import HwPhoneLink.Fillp.Admission
import Mathlib.Data.List.TakeWhile

/-!
# What `on_tx_complete` means

The callback fires when a pump finds the peer drained: the fill function is
done, the queue is empty and nothing is inflight (`fpPump_notified`). By then
every packet has been transmitted (`Transmitted`) and is covered by a PACK that
the peer has taken in (`Covered`); both hold of a peer whatever datagrams
arrive.
-/

namespace HwPhoneLink.Fillp

open BigEndian

/-! ## Every numbered packet has been sent -/

/-- The datagram of each numbered packet is among those handed to the socket. -/
def Transmitted (p : FillpPeer) : Prop :=
  ∀ i < p.numbered.length, ∃ q, IsPkt p.numbered i q ∧ fpPktFrame q ∈ p.sent

theorem Transmitted.congr {p p' : FillpPeer} (h : Transmitted p)
    (hnum : p'.numbered = p.numbered) (hsent : p.sent <+: p'.sent) : Transmitted p' := by
  intro i hi
  rw [hnum] at hi ⊢
  obtain ⟨q, hq, hmem⟩ := h i hi
  exact ⟨q, hq, hsent.subset hmem⟩

theorem SameSnd.sent_grows {p p' : FillpPeer} (h : SameSnd p p') : p.sent <+: p'.sent := by
  obtain ⟨ds, hds, -⟩ := h.sent
  exact ⟨ds, hds.symm⟩

theorem Transmitted.sameSnd {p p' : FillpPeer} (h : Transmitted p) (hs : SameSnd p p') :
    Transmitted p' := h.congr hs.numbered hs.sent_grows

theorem fillpPeerSend_transmitted {p : FillpPeer} (h : Transmitted p) (data : Bytes) :
    Transmitted (fillpPeerSend p data) := by
  unfold fillpPeerSend
  split
  · exact h
  split
  · exact h
  · exact h.congr rfl (List.prefix_refl _)

theorem fpPumpFill_transmitted {p : FillpPeer} (h : Transmitted p) (fill : Option FpFill) :
    Transmitted (fpPumpFill fill p) := by
  have hfold : ∀ (chunks : List Bytes) {p : FillpPeer}, Transmitted p →
      Transmitted (chunks.foldl fillpPeerSend p) := by
    intro chunks
    induction chunks with
    | nil => intro p h; exact h
    | cons c cs ih => intro p h; exact ih (fillpPeerSend_transmitted h c)
  unfold fpPumpFill
  split
  · exact h
  split
  · have hsent := hfold (by assumption : FpFill).chunks h
    simp only
    split
    · exact hsent.congr rfl (List.prefix_refl _)
    · exact hsent
  · exact h

theorem fpPumpStall_transmitted {p : FillpPeer} (h : Transmitted p) (env : FpEnv) :
    Transmitted (fpPumpStall env p) := by
  unfold fpPumpStall
  split
  · exact h
  split
  · exact h.congr rfl (List.prefix_append _ _)
  · exact h

theorem fpSendNext_transmitted {p : FillpPeer} (hs : SndInv p) (h : Transmitted p)
    (env : FpEnv) : Transmitted (fpSendNext env p) := by
  have hmono : p.numbered <+: (fpSendNext env p).numbered := List.prefix_append _ _
  have hlen : (fpSendNext env p).numbered.length = p.numbered.length + 1 := by
    simp [fpSendNext, fpSendto]
  have hsent : (fpSendNext env p).sent = p.sent ++ [fpPktFrame (fpNextPkt env p)] := rfl
  intro i hi
  rw [hlen] at hi
  rw [hsent]
  rcases Nat.lt_succ_iff_lt_or_eq.mp hi with hold | rfl
  · obtain ⟨q, hq, hmem⟩ := h i hold
    exact ⟨q, hq.mono hmono, List.mem_append_left _ hmem⟩
  · exact ⟨_, fpNextPkt_isPkt hs env, by simp⟩

theorem fpPacketize_transmitted (env : FpEnv) (budget : ℕ) : ∀ {p : FillpPeer}, SndInv p →
    Transmitted p → Transmitted (fpPacketize env budget p) := by
  induction budget with
  | zero => intro p _ h; exact h
  | succ budget ih =>
      intro p hs h
      unfold fpPacketize
      split
      · rename_i hc
        exact ih (fpSendNext_sndInv hs env hc.1 hc.2) (fpSendNext_transmitted hs h env)
      · exact h

theorem fpPump_transmitted {p : FillpPeer} (hs : SndInv p) (h : Transmitted p) (env : FpEnv)
    (fill : Option FpFill) : Transmitted (fpPump env fill p) := by
  have hs' := fpPumpStall_sndInv (fpPumpFill_sndInv hs fill) env
  have h' := fpPumpStall_transmitted (fpPumpFill_transmitted h fill) env
  unfold fpPump
  refine Transmitted.sameSnd ?_ (fpPumpReplyFin_sameSnd _)
  refine Transmitted.sameSnd ?_ (fpMaybePack_sameSnd env _)
  refine Transmitted.sameSnd ?_ (fpPumpTxComplete_sameSnd _)
  exact fpPacketize_transmitted env _ hs' h'

theorem fpDataPlane_transmitted {p : FillpPeer} (h : Transmitted p) (env : FpEnv) (buf : Bytes) :
    Transmitted (fpDataPlane env p buf) := by
  unfold fpDataPlane
  split
  · split
    · exact h.sameSnd (fpOnData_sameSnd env p buf)
    · exact h
  · split
    · unfold fpOnNack
      split
      · exact h
      · exact h.congr rfl (List.prefix_append _ _)
    · exact h
  · split
    · unfold fpOnPack
      split
      · exact h
      · exact h.congr rfl (List.prefix_refl _)
    · exact h
  · split
    · exact h.sameSnd (fpOnFin_sameSnd env p)
    · exact h
  · exact h

/-! ## Every packet out of flight has been acknowledged -/

/-- The PACK acknowledges packet number `i + 1`: the number is not ahead of
its own. -/
def AcksPkt (d : Bytes) (i : ℕ) : Prop :=
  ∃ k, fillpDecodePack d = some k ∧ fpNumIsbigger (UInt32.ofNat (i + 1)) k.ackPkt = false

/-- Each packet that has left the inflight list is acknowledged by one of the
datagrams. -/
def Covered (packs : List Bytes) (p : FillpPeer) : Prop :=
  ∀ i < p.ackedNum, ∃ d ∈ packs, AcksPkt d i

theorem Covered.congr {packs packs' : List Bytes} {p p' : FillpPeer} (h : Covered packs p)
    (hpacks : packs <+: packs') (hacked : p'.ackedNum = p.ackedNum) : Covered packs' p' := by
  intro i hi
  rw [hacked] at hi
  obtain ⟨d, hd, hack⟩ := h i hi
  exact ⟨d, hpacks.subset hd, hack⟩

/-- What a PACK takes out of flight it acknowledges. -/
theorem fpOnPack_covered {packs : List Bytes} {p : FillpPeer} (hs : SndInv p)
    (h : Covered packs p) (d : Bytes) : Covered (packs ++ [d]) (fpOnPack p d) := by
  have hkeep : ∀ {p' : FillpPeer}, p'.ackedNum = p.ackedNum → Covered (packs ++ [d]) p' :=
    h.congr (List.prefix_append _ _)
  unfold fpOnPack
  split
  · exact hkeep rfl
  rename_i k hk
  simp only [fpAckLoop_eq]
  set f : FpPkt → Bool := fun q => !fpNumIsbigger q.pktNum k.ackPkt with hf
  have hlens : p.inflight.length =
      (p.inflight.takeWhile f).length + (p.inflight.dropWhile f).length := by
    conv_lhs => rw [← List.takeWhile_append_dropWhile (p := f) (l := p.inflight)]
    exact List.length_append
  have hle := hs.le
  intro i hi
  simp only [FillpPeer.ackedNum] at hi
  by_cases hold : i < p.ackedNum
  · obtain ⟨d', hd', hack⟩ := h i hold
    exact ⟨d', List.mem_append_left _ hd', hack⟩
  · -- the packet is one of those the loop dropped
    have hj : i - p.ackedNum < (p.inflight.takeWhile f).length := by
      simp only [FillpPeer.ackedNum] at hold ⊢
      omega
    set q := (p.inflight.takeWhile f)[i - p.ackedNum] with hq
    have htrue : f q = true := List.mem_takeWhile_imp (List.getElem_mem hj)
    have hget : p.inflight[i - p.ackedNum]? = some q := by
      rw [← List.takeWhile_append_dropWhile (p := f) (l := p.inflight),
        List.getElem?_append_left hj, List.getElem?_eq_getElem hj]
    have hnum := (hs.pkts _ q hget).num
    have hidx : p.ackedNum + (i - p.ackedNum) = i := by omega
    rw [hidx] at hnum
    refine ⟨d, by simp, k, hk, ?_⟩
    rw [← hnum]
    simpa [hf] using htrue

theorem fpOnNack_ackedNum (env : FpEnv) (p : FillpPeer) (buf : Bytes) :
    (fpOnNack env p buf).ackedNum = p.ackedNum := by
  unfold fpOnNack
  split
  · rfl
  · simp [FillpPeer.ackedNum]

/-- Only a PACK takes packets out of flight. -/
theorem fpDataPlane_ackedNum (env : FpEnv) (p : FillpPeer) {buf : Bytes}
    (hbuf : fpTypeOf buf ≠ some .pack) : (fpDataPlane env p buf).ackedNum = p.ackedNum := by
  unfold fpDataPlane
  split
  · split
    · exact (fpOnData_sameSnd env p buf).ackedNum
    · rfl
  · split
    · exact fpOnNack_ackedNum env p buf
    · rfl
  · rename_i hpack
    exact absurd hpack hbuf
  · split
    · exact (fpOnFin_sameSnd env p).ackedNum
    · rfl
  · rfl

theorem fpDataPlane_covered {packs : List Bytes} {p : FillpPeer} (hs : SndInv p)
    (h : Covered packs p) (env : FpEnv) (buf : Bytes) :
    Covered (packs ++ if fpTypeOf buf = some .pack then [buf] else [])
      (fpDataPlane env p buf) := by
  by_cases hpack : fpTypeOf buf = some .pack
  · simp only [fpDataPlane, hpack, if_true]
    split
    · exact fpOnPack_covered hs h buf
    · exact h.congr (List.prefix_append _ _) rfl
  · exact h.congr (List.prefix_append _ _) (fpDataPlane_ackedNum env p hpack)

/-! ## The drained peer -/

theorem fpTxDrained_iff (p : FillpPeer) :
    fpTxDrained p = true ↔ p.fillDone = true ∧ p.txq = [] ∧ p.inflight = [] := by
  simp [fpTxDrained, and_assoc]

/-- A drained peer has packetized everything it accepted. -/
theorem SndInv.drained {p : FillpPeer} (h : SndInv p) (hd : fpTxDrained p = true) :
    p.numbered.flatten = p.accepted ∧ p.ackedNum = p.numbered.length := by
  obtain ⟨-, htxq, hin⟩ := (fpTxDrained_iff p).mp hd
  have hstream := h.stream
  rw [htxq, List.append_nil] at hstream
  refine ⟨hstream, ?_⟩
  rw [FillpPeer.ackedNum, hin, List.length_nil, Nat.sub_zero]

theorem SameSnd.drained {p p' : FillpPeer} (h : SameSnd p p') :
    fpTxDrained p' = fpTxDrained p := by
  rw [fpTxDrained, fpTxDrained, h.fillDone, h.txq, h.inflight]

/-- Steps 1 to 3 of the pump. -/
def fpPumpTx (env : FpEnv) (fill : Option FpFill) (p : FillpPeer) : FillpPeer :=
  fpPacketize env fpSendBudget <| fpPumpStall env <| fpPumpFill fill p

theorem fpPump_sameSnd (env : FpEnv) (fill : Option FpFill) (p : FillpPeer) :
    SameSnd (fpPumpTx env fill p) (fpPump env fill p) :=
  ((fpPumpTxComplete_sameSnd _).trans (fpMaybePack_sameSnd env _)).trans
    (fpPumpReplyFin_sameSnd _)

/-- The pump notifies a drained peer, and only a drained peer. -/
theorem fpPump_notified (env : FpEnv) (fill : Option FpFill) {p : FillpPeer}
    (hold : p.txNotified = false) (hnew : (fpPump env fill p).txNotified = true) :
    fpTxDrained (fpPump env fill p) = true := by
  have hkeep : (fpPumpTx env fill p).txNotified = p.txNotified := by
    have hfold : ∀ (chunks : List Bytes) (p : FillpPeer),
        (chunks.foldl fillpPeerSend p).txNotified = p.txNotified := by
      intro chunks
      induction chunks with
      | nil => intro p; rfl
      | cons c cs ih =>
          intro p
          rw [List.foldl_cons, ih]
          unfold fillpPeerSend
          split
          · rfl
          split <;> rfl
    have hpack : ∀ (n : ℕ) (p : FillpPeer), (fpPacketize env n p).txNotified = p.txNotified := by
      intro n
      induction n with
      | zero => intro p; rfl
      | succ n ih =>
          intro p
          unfold fpPacketize
          split
          · rw [ih]; rfl
          · rfl
    have hstall : ∀ p : FillpPeer, (fpPumpStall env p).txNotified = p.txNotified := by
      intro p
      unfold fpPumpStall
      split
      · rfl
      split <;> rfl
    rw [fpPumpTx, hpack, hstall]
    unfold fpPumpFill
    split
    · rfl
    split
    · simp only
      split <;> exact hfold _ _
    · rfl
  have hnote : (fpPump env fill p).txNotified =
      (fpPumpTxComplete (fpPumpTx env fill p)).txNotified := by
    have hfin : ∀ q : FillpPeer, (fpPumpReplyFin q).txNotified = q.txNotified := by
      intro q
      unfold fpPumpReplyFin
      split <;> rfl
    have hack : ∀ q : FillpPeer, (fpMaybePack env q).txNotified = q.txNotified := by
      intro q
      unfold fpMaybePack
      split
      · rfl
      split <;> rfl
    exact (hfin _).trans (hack _)
  rw [(fpPump_sameSnd env fill p).drained]
  rw [hnote] at hnew
  unfold fpPumpTxComplete at hnew
  split at hnew
  · rename_i hcond
    rw [Bool.and_eq_true] at hcond
    exact hcond.1
  · rw [hkeep, hold] at hnew
    cases hnew

/-- After step 1 nothing touches the queue's end or `fill_done`. -/
theorem fpPump_fill (env : FpEnv) (fill : Option FpFill) (p : FillpPeer) :
    (fpPump env fill p).fillDone = (fpPumpFill fill p).fillDone ∧
      (fpPump env fill p).accepted = (fpPumpFill fill p).accepted := by
  have hpack : ∀ (n : ℕ) (p : FillpPeer), (fpPacketize env n p).fillDone = p.fillDone := by
    intro n
    induction n with
    | zero => intro p; rfl
    | succ n ih =>
        intro p
        unfold fpPacketize
        split
        · rw [ih]; rfl
        · rfl
  have hstall : ∀ p : FillpPeer, (fpPumpStall env p).fillDone = p.fillDone := by
    intro p
    unfold fpPumpStall
    split
    · rfl
    split <;> rfl
  have hsame := fpPump_sameSnd env fill p
  rw [hsame.fillDone, hsame.accepted, fpPumpTx, hpack, hstall, fpPacketize_accepted,
    fpPumpStall_accepted]
  exact ⟨rfl, rfl⟩

theorem foldl_fillpPeerSend_fillDone (chunks : List Bytes) : ∀ p : FillpPeer,
    (chunks.foldl fillpPeerSend p).fillDone = p.fillDone := by
  induction chunks with
  | nil => intro p; rfl
  | cons c cs ih =>
      intro p
      rw [List.foldl_cons, ih]
      unfold fillpPeerSend
      split
      · rfl
      split <;> rfl

/-- `fill_done` is set by a fill function that was asked and returned -1. -/
theorem fpPump_fillDone (env : FpEnv) (f : FpFill) {p : FillpPeer}
    (h : (fpPump env (some f) p).fillDone = true) :
    p.fillDone = true ∨ (fpWantsFill p = true ∧ f.ret < 0) := by
  rw [(fpPump_fill env (some f) p).1] at h
  unfold fpPumpFill at h
  simp only at h
  split at h
  · rename_i hwant
    split at h
    · rename_i hneg
      exact Or.inr ⟨hwant, hneg⟩
    · rw [foldl_fillpPeerSend_fillDone] at h
      exact Or.inl h
  · exact Or.inl h

/-- What a pump adds to the accepted bytes, if the peer is established or the
fill function queues nothing. -/
theorem fpPump_accepts (env : FpEnv) (f : FpFill) {p : FillpPeer}
    (h : fpWantsFill p = true → f.chunks ≠ [] → p.state = .established) :
    (fpPump env (some f) p).accepted = p.accepted ++ fpFillGiven (some f) p := by
  by_cases hwant : fpWantsFill p = true
  · by_cases hnone : f.chunks = []
    · rw [(fpPump_fill env (some f) p).2]
      simp only [fpPumpFill, fpFillGiven, hwant, if_true, hnone, List.foldl_nil,
        List.flatten_nil, List.append_nil]
      split <;> rfl
    · exact fpPump_accepted (h hwant hnone) env (some f)
  · rw [(fpPump_fill env (some f) p).2]
    simp [fpPumpFill, fpFillGiven, hwant]

/-- A drained peer stays drained through a pump, which does not ask for data. -/
theorem fpPump_drained (env : FpEnv) (fill : Option FpFill) {p : FillpPeer}
    (h : fpTxDrained p = true) :
    fpTxDrained (fpPump env fill p) = true ∧ (fpPump env fill p).accepted = p.accepted := by
  obtain ⟨hfill, htxq, hin⟩ := (fpTxDrained_iff p).mp h
  have hquiet : fpPumpTx env fill p = p := by
    have h1 : fpPumpFill fill p = p := by
      unfold fpPumpFill
      cases fill with
      | none => rfl
      | some f => simp [fpWantsFill, hfill]
    have h2 : fpPumpStall env p = p := by simp [fpPumpStall, hin]
    have h3 : fpPacketize env fpSendBudget p = p := by
      unfold fpSendBudget fpPacketize
      simp [htxq]
    rw [fpPumpTx, h1, h2, h3]
  have hsame := fpPump_sameSnd env fill p
  rw [hquiet] at hsame
  exact ⟨hsame.drained.trans h, hsame.accepted⟩

theorem fpDataPlane_drained (env : FpEnv) {p : FillpPeer} (h : fpTxDrained p = true)
    (buf : Bytes) : fpTxDrained (fpDataPlane env p buf) = true := by
  obtain ⟨hfill, htxq, hin⟩ := (fpTxDrained_iff p).mp h
  unfold fpDataPlane
  split
  · split
    · exact (fpOnData_sameSnd env p buf).drained.trans h
    · exact h
  · split
    · unfold fpOnNack
      split
      · exact h
      · simp [fpTxDrained, hfill, htxq, hin]
    · exact h
  · split
    · unfold fpOnPack
      split
      · exact h
      · simp [fpTxDrained, hfill, htxq, hin, fpAckLoop]
    · exact h
  · split
    · exact (fpOnFin_sameSnd env p).drained.trans h
    · exact h
  · exact h

/-! ## One direction in an arbitrary network

The peer at the other end sees the datagrams of this one, and the PACKs that
reach this one are its own. Everything else that arrives here is arbitrary, and
either end may be closing. -/

structure OneWay (p remote : FillpPeer) (packs : List Bytes) : Prop where
  state : p.state = .established ∨ p.state = .closing
  snd : SndInv p
  transmitted : Transmitted p
  covered : Covered packs p
  packs : ∀ d ∈ packs, d ∈ remote.sent
  link : p.numbered.length < 2 ^ 31 →
    RcvInv p.numbered remote ∧ p.ackedNum ≤ remote.delivered.length

theorem FreshPeer.oneWay {p remote : FillpPeer} (hp : FreshPeer p) (hr : FreshPeer remote) :
    OneWay p remote [] := by
  have hlink := LinkInv.init (s := ⟨fun x => if x = .left then p else remote, fun _ => [], 0⟩)
    ⟨fun x => by cases x; exacts [hp, hr], fun _ => rfl⟩
  have hacked : p.ackedNum = 0 := by
    rw [FillpPeer.ackedNum, hp.numbered, List.length_nil, Nat.zero_sub]
  refine ⟨Or.inl hp.state, hlink.snd .left, ?_, ?_, by simp, fun _ => ⟨hlink.rcv .left, ?_⟩⟩
  · intro i hi
    rw [hp.numbered] at hi
    cases hi
  · intro i hi
    rw [hacked] at hi
    cases hi
  · rw [hacked]
    exact Nat.zero_le _

theorem fpPump_sent (env : FpEnv) (fill : Option FpFill) (p : FillpPeer) :
    p.sent <+: (fpPump env fill p).sent := by
  obtain ⟨ds, hds, -⟩ := (fpPumpStages_keepsOpen env fill p).sent
  have hpre : p.sent <+: _ := ⟨ds, hds.symm⟩
  exact hpre.trans (fpPumpReplyFin_sameSnd _).sent_grows

theorem fpDataPlane_sent (env : FpEnv) (p : FillpPeer) (d : Bytes) :
    p.sent <+: (fpDataPlane env p d).sent := by
  by_cases hfin : fpTypeOf d = some .fin
  · simp only [fpDataPlane, hfin]
    split
    · exact (fpOnFin_sameSnd env p).sent_grows
    · exact List.prefix_refl _
  · obtain ⟨ds, hds, -⟩ := (fpDataPlane_keepsOpen env p hfin).sent
    exact ⟨ds, hds.symm⟩

/-- The receive side under any datagram, if those with DATA carry packets of the
stream. -/
theorem fpDataPlane_rcv {pk : List Bytes} {r : FillpPeer} (h : RcvInv pk r)
    (hlen : pk.length < 2 ^ 31) (hsizes : ∀ d ∈ pk, d.length ≤ fpPktDataMax) {d : Bytes}
    (hd : fpTypeOf d = some .data → IsDataFrame pk d) (env : FpEnv) :
    RcvInv pk (fpDataPlane env r d) ∧
      r.delivered.length ≤ (fpDataPlane env r d).delivered.length := by
  have hle := h.le
  have hsame : ∀ {r' : FillpPeer}, SameRcv r r' →
      RcvInv pk r' ∧ r.delivered.length ≤ r'.delivered.length :=
    fun hs => ⟨h.congr hs, by rw [hs.delivered]⟩
  have hid : RcvInv pk r ∧ r.delivered.length ≤ r.delivered.length := ⟨h, Nat.le_refl _⟩
  unfold fpDataPlane
  split
  · rename_i hdata
    split
    · obtain ⟨i, q, hq, rfl⟩ := hd hdata
      have hsize := hsizes q.data (List.mem_of_getElem? hq.data)
      obtain ⟨hrcv, hdel, -⟩ := fpOnData_rcv h hq (hq.len ▸ hsize) (by omega) (by omega) env
      exact ⟨hrcv, hdel⟩
    · exact hid
  · split
    · exact hsame (fpOnNack_sameRcv env r d)
    · exact hid
  · split
    · exact hsame (fpOnPack_sameRcv r d)
    · exact hid
  · split
    · exact hsame (fpOnFin_sameRcv env r)
    · exact hid
  · exact hid

theorem fpPeerRequestClose_open {p : FillpPeer}
    (h : p.state = .established ∨ p.state = .closing) (env : FpEnv) :
    (fpPeerRequestClose env p).state = .closing := by
  unfold fpPeerRequestClose
  rcases h with h | h
  · rw [if_neg (by simp [h])]
  · rw [if_pos (Or.inr h)]
    exact h

theorem fpDataPlane_open {p : FillpPeer} (h : p.state = .established ∨ p.state = .closing)
    (env : FpEnv) (d : Bytes) :
    (fpDataPlane env p d).state = .established ∨ (fpDataPlane env p d).state = .closing := by
  by_cases hfin : fpTypeOf d = some .fin
  · right
    simp only [fpDataPlane, hfin]
    rcases h with h | h <;> simp [fpOnFin, h]
  · rw [(fpDataPlane_keepsOpen env p hfin).state]
    exact h

theorem OneWay.pump {p remote : FillpPeer} {packs : List Bytes} (h : OneWay p remote packs)
    (env : FpEnv) (fill : Option FpFill) : OneWay (fpPump env fill p) remote packs := by
  have hgrow := fpPump_grows env fill p
  refine ⟨?_, fpPump_sndInv h.snd env fill, fpPump_transmitted h.snd h.transmitted env fill,
    h.covered.congr (List.prefix_refl _) hgrow.acked, h.packs, ?_⟩
  · rw [fpPump_state]
    exact h.state
  · intro hcount
    obtain ⟨hrcv, hacked⟩ := h.link (Nat.lt_of_le_of_lt hgrow.numbered.length_le hcount)
    exact ⟨hrcv.mono hgrow.numbered, by rw [hgrow.acked]; exact hacked⟩

theorem OneWay.close {p remote : FillpPeer} {packs : List Bytes} (h : OneWay p remote packs)
    (env : FpEnv) : OneWay (fpPeerRequestClose env p) remote packs := by
  have hsame := fpPeerRequestClose_sameSnd env p
  refine ⟨Or.inr (fpPeerRequestClose_open h.state env), h.snd.congr hsame,
    h.transmitted.sameSnd hsame, h.covered.congr (List.prefix_refl _) hsame.ackedNum,
    h.packs, ?_⟩
  rw [hsame.numbered, hsame.ackedNum]
  exact h.link

theorem OneWay.datagram {p remote : FillpPeer} {packs : List Bytes} (h : OneWay p remote packs)
    {d : Bytes} (hd : fpTypeOf d = some .pack → d ∈ remote.sent) (env : FpEnv) :
    OneWay (fpDataPlane env p d) remote
      (packs ++ if fpTypeOf d = some .pack then [d] else []) := by
  have hnum := (fpDataPlane_grows env p d).1
  refine ⟨fpDataPlane_open h.state env d, fpDataPlane_sndInv h.snd env d,
    fpDataPlane_transmitted h.transmitted env d, fpDataPlane_covered h.snd h.covered env d, ?_, ?_⟩
  · intro d' hd'
    rcases List.mem_append.mp hd' with hd' | hd'
    · exact h.packs d' hd'
    · split at hd'
      · rename_i hpack
        rw [List.mem_singleton.mp hd']
        exact hd hpack
      · cases hd'
  · intro hcount
    rw [hnum] at hcount ⊢
    obtain ⟨hrcv, hacked⟩ := h.link hcount
    refine ⟨hrcv, ?_⟩
    by_cases hpack : fpTypeOf d = some .pack
    · obtain ⟨c, hc, hdec⟩ := hrcv.packs d (hd hpack) hpack
      have heq : fpDataPlane env p d = fpOnPack p d := by
        simp only [fpDataPlane, hpack]
        rw [if_pos h.state]
      rw [heq, fpOnPack_acked h.snd hdec (by omega) (Nat.le_trans hc hrcv.le)]
      exact Nat.max_le.mpr ⟨hacked, hc⟩
    · rw [fpDataPlane_ackedNum env p hpack]
      exact hacked

/-- A step of the other end that keeps what it has sent and received. -/
theorem OneWay.remote {p remote remote' : FillpPeer} {packs : List Bytes}
    (h : OneWay p remote packs) (hsent : remote.sent <+: remote'.sent)
    (hrcv : p.numbered.length < 2 ^ 31 → RcvInv p.numbered remote →
      RcvInv p.numbered remote' ∧ remote.delivered.length ≤ remote'.delivered.length) :
    OneWay p remote' packs := by
  refine ⟨h.state, h.snd, h.transmitted, h.covered, fun d hd => hsent.subset (h.packs d hd), ?_⟩
  intro hcount
  obtain ⟨hold, hacked⟩ := h.link hcount
  obtain ⟨hnew, hle⟩ := hrcv hcount hold
  exact ⟨hnew, Nat.le_trans hacked hle⟩

theorem OneWay.remotePump {p remote : FillpPeer} {packs : List Bytes} (h : OneWay p remote packs)
    (env : FpEnv) (fill : Option FpFill) : OneWay p (fpPump env fill remote) packs := by
  refine h.remote (fpPump_sent env fill remote) fun _ hold => ?_
  obtain ⟨hnew, hdel⟩ := fpPump_rcv hold env fill
  exact ⟨hnew, by rw [hdel]⟩

theorem OneWay.remoteDatagram {p remote : FillpPeer} {packs : List Bytes}
    (h : OneWay p remote packs) {d : Bytes} (hd : d ∈ p.sent) (env : FpEnv) :
    OneWay p (fpDataPlane env remote d) packs :=
  h.remote (fpDataPlane_sent env remote d) fun hcount hold =>
    fpDataPlane_rcv hold hcount (fun _ hmem => (h.snd.sizes _ hmem).2) (h.snd.frames d hd) env

theorem OneWay.remoteSame {p remote remote' : FillpPeer} {packs : List Bytes}
    (h : OneWay p remote packs) (hs : SameRcv remote remote') : OneWay p remote' packs := by
  obtain ⟨ds, hds, -⟩ := hs.sent
  exact h.remote ⟨ds, hds.symm⟩ fun _ hold => ⟨hold.congr hs, by rw [hs.delivered]⟩

/-- **A drained peer is done.** Every accepted byte is in a packet that was
transmitted and acknowledged; with fewer than 2^31 packets the other end has
delivered them all. -/
theorem OneWay.drained {p remote : FillpPeer} {packs : List Bytes} (h : OneWay p remote packs)
    (hd : fpTxDrained p = true) :
    p.numbered.flatten = p.accepted ∧ Transmitted p ∧
      (∀ i < p.numbered.length, ∃ d ∈ packs, d ∈ remote.sent ∧ AcksPkt d i) ∧
      (p.numbered.length < 2 ^ 31 → remote.delivered = p.numbered) := by
  obtain ⟨hstream, hall⟩ := h.snd.drained hd
  refine ⟨hstream, h.transmitted, ?_, ?_⟩
  · intro i hi
    obtain ⟨d, hmem, hack⟩ := h.covered i (by rw [hall]; exact hi)
    exact ⟨d, hmem, h.packs d hmem, hack⟩
  · intro hcount
    obtain ⟨hrcv, hacked⟩ := h.link hcount
    rw [hall] at hacked
    exact hrcv.pre.eq_of_length_le hacked

end HwPhoneLink.Fillp
