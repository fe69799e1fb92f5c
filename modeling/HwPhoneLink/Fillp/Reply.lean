import HwPhoneLink.Fillp.PeerRun

/-!
# The reply to a FIN

A peer that has received a FIN and has nothing left to send owes a reply FIN and is
then done. The source looks at `fill_done`, which only a fill function sets by
returning a negative value: a peer without one waits for the timeout.
-/

namespace HwPhoneLink.Fillp

open BigEndian Transitions

/-- The FIN has been received, nothing is queued or in flight, every delivery has been
acknowledged. -/
structure NothingLeft (p : FillpPeer) : Prop where
  peerFin : p.peerFin = true
  txq : p.txq = []
  inflight : p.inflight = []
  acked : p.deliveredSincePack = 0

/-- The tick finalizes the peer as drained, and the FIN that it owes has gone out. -/
structure ClosesNow (env : FpEnv) (localAddr : Bytes) (fill : Option FpFill) (p : FillpPeer) :
    Prop where
  finalized : (fpTickPeer env localAddr fill p).2 = true
  drained : fpCloseDrained (fpTickPeer env localAddr fill p).1 = true
  replied : (fpTickPeer env localAddr fill p).1.pendingFin = false
  fin : p.pendingFin = true → (fpTickPeer env localAddr fill p).1.sent =
    p.sent ++ [(fillpEncodeFin (fillpHlen + fillpFinLen) 0).getD []]

/-- There is a fill function, and it returns a negative value. -/
def fillSaysDone (fill : Option FpFill) : Bool := fill.any fun f => decide (f.ret < 0)

/-! ## The state of a peer that has received a FIN -/

/-- A FIN closes the peer, for good. -/
def FinCloses (p : FillpPeer) : Prop := p.peerFin = true → p.state = .closing

theorem fpDataPlane_finCloses {p : FillpPeer} (h : FinCloses p) (env : FpEnv) (buf : Bytes) :
    FinCloses (fpDataPlane env p buf) := by
  by_cases hfin : fpTypeOf buf = some .fin
  · simp only [fpDataPlane, hfin]
    split
    · intro _
      exact fpOnFin_state env p
    · exact h
  · intro hp
    rw [fpDataPlane_peerFin env p hfin] at hp
    rw [(fpDataPlane_keepsOpen env p hfin).state]
    exact h hp

theorem fpPeerStep_finCloses {hmacSha256 : Bytes → Bytes → Bytes} {e : FillpEngine}
    {p p' : FillpPeer} {ev : FpPeerEv} (h : FinCloses p)
    (hs : fpPeerStep hmacSha256 e p ev = some p') : FinCloses p' := by
  rcases fpPeerStep_cases hs with ⟨data, -, rfl⟩ | ⟨env, fill, -, -, rfl⟩ | ⟨env, buf, -, rfl⟩ |
    ⟨-, hsame⟩
  · unfold fillpPeerSend
    split
    · exact h
    split
    · exact h
    · exact h
  · intro hp
    rw [fpPump_peerFin] at hp
    rw [fpPump_state]
    exact h hp
  · exact fpDataPlane_finCloses h env buf
  · intro hp
    rw [hsame.fields] at hp
    exact hsame.closing (h hp)

/-! ## The tick -/

/-- The fill function of a closing peer can only say that it is done. -/
theorem fpPumpFill_closing {p : FillpPeer} (hstate : p.state = .closing) (htxq : p.txq = [])
    (fill : Option FpFill) :
    fpPumpFill fill p = { p with fillDone := p.fillDone || fillSaysDone fill } := by
  have hdropped : ∀ chunks : List Bytes, chunks.foldl fillpPeerSend p = p := fun chunks =>
    foldl_fillpPeerSend_dropped chunks (by simp [hstate])
  cases fill with
  | none => simp [fpPumpFill, fillSaysDone]
  | some f =>
      by_cases hdone : p.fillDone = true
      · have hfull : fpWantsFill p = false := by simp [fpWantsFill, hdone]
        have hsame : (p.fillDone || fillSaysDone (some f)) = p.fillDone := by
          rw [hdone, Bool.true_or]
        rw [fpPumpFill, hfull, if_neg (by decide), hsame]
      · have hroom : fpWantsFill p = true := by
          simp [fpWantsFill, hdone, htxq, fpTxqWatermark]
        have hnot : p.fillDone = false := by simpa using hdone
        rw [fpPumpFill, hroom]
        simp only [if_true, hdropped, hnot, Bool.false_or, fillSaysDone, Option.any_some]
        split
        · rename_i hret
          rw [decide_eq_true hret]
        · rename_i hret
          rw [decide_eq_false hret, ← hnot]

/-- What the pump does to a closing peer with nothing left. -/
theorem fpPump_left {p : FillpPeer} (hstate : p.state = .closing) (h : NothingLeft p)
    (env : FpEnv) (fill : Option FpFill) :
    fpPump env fill p = fpPumpReplyFin
      (fpPumpTxComplete { p with fillDone := p.fillDone || fillSaysDone fill }) := by
  set q : FillpPeer := { p with fillDone := p.fillDone || fillSaysDone fill } with hq
  have hfill : fpPumpFill fill p = q := fpPumpFill_closing hstate h.txq fill
  have hstall : fpPumpStall env q = q := by
    have hin : q.inflight = [] := h.inflight
    simp [fpPumpStall, hin]
  have hpack : fpPacketize env fpSendBudget q = q := by
    have htxq : q.txq = [] := h.txq
    unfold fpSendBudget fpPacketize
    simp [htxq]
  have hack : fpMaybePack env (fpPumpTxComplete q) = fpPumpTxComplete q := by
    have hzero : (fpPumpTxComplete q).deliveredSincePack = 0 := by
      unfold fpPumpTxComplete
      split <;> exact h.acked
    rw [fpMaybePack, if_pos hzero]
  rw [fpPump, hfill, hstall, hpack, hack]

/-- **The tick** on a closing peer with nothing left. -/
theorem closesNow_iff_done {p : FillpPeer} (hstate : p.state = .closing) (h : NothingLeft p)
    (env : FpEnv) (localAddr : Bytes) (fill : Option FpFill) :
    ClosesNow env localAddr fill p ↔ p.fillDone = true ∨ fillSaysDone fill = true := by
  set q : FillpPeer := { p with fillDone := p.fillDone || fillSaysDone fill } with hq
  have htick : fpTickPeer env localAddr fill p = (fpPump env fill p,
      decide ((fpPump env fill p).state = .closing) && (fpCloseDrained (fpPump env fill p) ||
        decide (env.now - (fpPump env fill p).tStageMs ≥ fpCloseTimeoutMs))) := by
    unfold fpTickPeer
    rw [hstate]
  have hpump := fpPump_left hstate h env fill
  have hdone : (fpPump env fill p).fillDone = (p.fillDone || fillSaysDone fill) := by
    rw [(fpPump_fill env fill p).1, fpPumpFill_closing hstate h.txq fill]
  constructor
  · intro hnow
    have hdrained := hnow.drained
    rw [htick, fpCloseDrained, Bool.and_eq_true, Bool.and_eq_true, fpTxDrained_iff] at hdrained
    obtain ⟨⟨-, hfill, -⟩, -⟩ := hdrained
    rw [hdone, Bool.or_eq_true] at hfill
    exact hfill
  · intro hsays
    have hfill : q.fillDone = true := by
      rw [hq]
      simpa using hsays
    have hdrained : fpTxDrained (fpPumpTxComplete q) = true := by
      rw [(fpPumpTxComplete_sameSnd q).drained, fpTxDrained_iff]
      exact ⟨hfill, h.txq, h.inflight⟩
    have hkept : (fpPumpTxComplete q).peerFin = p.peerFin ∧
        (fpPumpTxComplete q).pendingFin = p.pendingFin ∧
        (fpPumpTxComplete q).deliveredSincePack = p.deliveredSincePack ∧
        (fpPumpTxComplete q).sent = p.sent := by
      unfold fpPumpTxComplete
      split <;> exact ⟨rfl, rfl, rfl, rfl⟩
    obtain ⟨hpeer, hpending, hacked, hsent⟩ := hkept
    have hclosed : fpCloseDrained (fpPump env fill p) = true := by
      have hreply : fpTxDrained (fpPump env fill p) = true := by
        rw [hpump, (fpPumpReplyFin_sameSnd _).drained]
        exact hdrained
      have hzero : (fpPump env fill p).deliveredSincePack = 0 := by
        rw [hpump]
        unfold fpPumpReplyFin
        split <;> exact hacked.trans h.acked
      rw [fpCloseDrained, fpPump_peerFin, h.peerFin, hreply, hzero]
      decide
    have hfin : fpPump env fill p = if p.pendingFin then
        fpSendto { fpPumpTxComplete q with pendingFin := false }
          ((fillpEncodeFin (fillpHlen + fillpFinLen) 0).getD [])
        else fpPumpTxComplete q := by
      rw [hpump, fpPumpReplyFin, hdrained, hpending, Bool.and_true]
    constructor
    · rw [htick]
      simp [hclosed, fpPump_state, hstate]
    · rw [htick]
      exact hclosed
    · rw [htick]
      show (fpPump env fill p).pendingFin = false
      rw [hfin]
      split
      · rfl
      · rename_i hnone
        rw [hpending]
        simpa using hnone
    · intro howed
      rw [htick]
      show (fpPump env fill p).sent = _
      rw [hfin, if_pos howed]
      show (fpPumpTxComplete q).sent ++ _ = _
      rw [hsent]

/-! ## Runs -/

/-- **The next tick closes** a peer that has received a FIN and has nothing left, if and
only if `fill_done` is set or a fill function sets it in this tick. -/
theorem closes_now_iff {hmacSha256 : Bytes → Bytes → Bytes} {e : FillpEngine}
    {p₀ p : FillpPeer} {es : List FpPeerEv} (hp₀ : StartingPeer p₀)
    (hrun : run (fpPeerStep hmacSha256 e) p₀ es = some p) (hleft : NothingLeft p)
    (env : FpEnv) (fill : Option FpFill) :
    ClosesNow env e.localAddr fill p ↔ p.fillDone = true ∨ fillSaysDone fill = true := by
  have hcloses : FinCloses p := by
    refine run_inv_all FinCloses (fun _ _ _ h hs => fpPeerStep_finCloses h hs) ?_ hrun
    intro hfin
    rw [hp₀.peerFin] at hfin
    cases hfin
  exact closesNow_iff_done (hcloses hleft.peerFin) hleft env e.localAddr fill

/-- A FIN arrives at a peer that has sent and received nothing. -/
def finOnly : List FpPeerEv := [.datagram runEnv pairFin]

theorem finOnly_run :
    ∃ p, run (fpPeerStep strayHmac (pairEngine .right)) (pairStart.peer .right) finOnly = some p ∧
      NothingLeft p ∧ p.fillDone = false := by
  have houtcome : (run (fpPeerStep strayHmac (pairEngine .right)) (pairStart.peer .right)
      finOnly).map (fun p => (p.peerFin, p.txq, p.inflight, p.deliveredSincePack, p.fillDone)) =
      some (true, [], [], 0, false) := by decide +kernel
  obtain ⟨p, hrun, hvalues⟩ := Option.map_eq_some_iff.mp houtcome
  simp only [Prod.mk.injEq] at hvalues
  obtain ⟨hfin, htxq, hin, hzero, hdone⟩ := hvalues
  exact ⟨p, hrun, ⟨hfin, htxq, hin, hzero⟩, hdone⟩

/-- A fill function that has given its last byte. -/
theorem closes_now_last_fill :
    ∃ p, run (fpPeerStep strayHmac (pairEngine .right)) (pairStart.peer .right) finOnly = some p ∧
      ClosesNow runEnv (pairEngine .right).localAddr lastFill p := by
  obtain ⟨p, hrun, hleft, -⟩ := finOnly_run
  refine ⟨p, hrun, ?_⟩
  exact (closes_now_iff (pairStart_init.starting .right) hrun hleft runEnv lastFill).mpr
    (.inr (by decide))

/-- **A receive-only peer** waits for the timeout. -/
theorem not_closes_now_receive_only :
    ∃ p, run (fpPeerStep strayHmac (pairEngine .right)) (pairStart.peer .right) finOnly = some p ∧
      NothingLeft p ∧ ¬ ClosesNow runEnv (pairEngine .right).localAddr none p := by
  obtain ⟨p, hrun, hleft, hdone⟩ := finOnly_run
  refine ⟨p, hrun, hleft, ?_⟩
  intro hnow
  have hdrained := hnow.drained
  rw [fpCloseDrained, Bool.and_eq_true, Bool.and_eq_true, fpTxDrained_iff] at hdrained
  have hstate : p.state = .closing := by
    have hall := congrArg (Option.map FillpPeer.state) hrun
    exact (Option.some.inj (hall.symm.trans (by decide +kernel :
      (run (fpPeerStep strayHmac (pairEngine .right)) (pairStart.peer .right) finOnly).map
        FillpPeer.state = some .closing)))
  have hfill : (fpTickPeer runEnv (pairEngine .right).localAddr none p).1.fillDone = false := by
    unfold fpTickPeer
    rw [hstate]
    exact (fpPump_fill runEnv none p).1.trans hdone
  rw [hfill] at hdrained
  exact absurd hdrained.1.2.1 (by decide)

end HwPhoneLink.Fillp
