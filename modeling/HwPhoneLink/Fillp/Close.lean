import HwPhoneLink.Fillp.Complete
import HwPhoneLink.Fillp.Entry

/-!
# The drained close

Two peers from their creation to the close, over a network that loses, delays,
duplicates and reorders datagrams; either application may close at any time.
The tick finalizes a peer as drained on its own transmit side alone. What the
other side still had under way is only safe if its FIN did not overtake it, and
`fp_peer_request_close` sends the FIN without waiting for the queue
(`ClosesDrained` is the condition that it had nothing to wait for).
-/

namespace HwPhoneLink.Fillp

open BigEndian Transitions

/-! ## The system -/

/-- `gone` says that the peer has been finalized; its record is kept as it was. -/
structure FpPair where
  peer : Side → FillpPeer
  gone : Side → Bool
  clock : ℕ

inductive FpPairEv : Type where
  | advance (dt : ℕ)
  | send (x : Side) (data : Bytes)
  | close (x : Side)
  | tick (x : Side) (fill : Option FpFill)
  | deliver (x : Side) (d : Bytes) (rand1 rand2 : UInt32)
  | shutdown (x : Side)

def FpPair.env (s : FpPair) (rand1 rand2 : UInt32) : FpEnv :=
  { now := s.clock, nowUs := UInt64.ofNat (s.clock * 1000), rand1 := rand1, rand2 := rand2 }

/-- Write a peer that has not been finalized. -/
def FpPair.put (s : FpPair) (x : Side) (p : FillpPeer) (gone : Bool) : Option FpPair :=
  if s.gone x then none
  else some { s with peer := Function.update s.peer x p, gone := Function.update s.gone x gone }

section System

-- the engines of the two sides, for their keys and addresses
variable (hmacSha256 : Bytes → Bytes → Bytes) (engine : Side → FillpEngine)

def FpPair.step (s : FpPair) : FpPairEv → Option FpPair
  | .advance dt => some { s with clock := s.clock + dt }
  | .send x data => s.put x (fillpPeerSend (s.peer x) data) false
  | .close x => s.put x (fpPeerRequestClose (s.env 0 0) (s.peer x)) false
  | .tick x fill =>
      let r := fpTickPeer (s.env 0 0) (engine x).localAddr fill (s.peer x)
      s.put x r.1 r.2
  | .deliver x d rand1 rand2 =>
      if d ∈ (s.peer x.other).sent then
        s.put x (fpReceive hmacSha256 (s.env rand1 rand2) (engine x) (s.peer x) d) false
      else none
  | .shutdown x => s.put x (s.peer x) true

end System

/-- A peer before the data plane has done anything, pending or just established. -/
structure StartingPeer (p : FillpPeer) : Prop where
  state : p.state = .pending ∨ p.state = .established
  sendPktNum : p.sendPktNum = 0
  txq : p.txq = []
  inflight : p.inflight = []
  inflightBytes : p.inflightBytes = 0
  recvPktNum : p.recvPktNum = 0
  ofo : p.ofo = ∅
  peerFin : p.peerFin = false
  pendingFin : p.pendingFin = false
  sent : ∀ d ∈ p.sent, fpTypeOf d ≠ some .data ∧ fpTypeOf d ≠ some .pack ∧ fpTypeOf d ≠ some .fin
  delivered : p.delivered = []
  accepted : p.accepted = []
  numbered : p.numbered = []

structure FpPair.Init (s : FpPair) : Prop where
  starting : ∀ x, StartingPeer (s.peer x)
  gone : ∀ x, s.gone x = false

/-! ## One side -/

/-- The peer is closing and has nothing to send and nothing to wait for. -/
structure TxQuiet (p : FillpPeer) : Prop where
  state : p.state = .closing
  txq : p.txq = []
  inflight : p.inflight = []

def SentFin (p : FillpPeer) : Prop := ∃ d ∈ p.sent, fpTypeOf d = some .fin

/-- What holds of a peer `p` with the peer `o` at the other end. -/
structure PairHalf (o p : FillpPeer) : Prop where
  snd : SndInv p
  covered : Covered o.sent p
  rcv : RcvInv o.numbered p
  acked : p.ackedNum ≤ o.delivered.length
  quiet : SentFin p → TxQuiet p
  peerFin : p.peerFin = true → SentFin o
  owed : p.pendingFin = true → p.state = .closing

/-- What the other end sees of a step of `p`. -/
structure PeerGrows (p p' : FillpPeer) : Prop where
  sent : p.sent <+: p'.sent
  numbered : p.numbered <+: p'.numbered
  delivered : p.delivered.length ≤ p'.delivered.length

theorem PeerGrows.refl (p : FillpPeer) : PeerGrows p p :=
  ⟨List.prefix_refl _, List.prefix_refl _, Nat.le_refl _⟩

theorem SentFin.mono {p p' : FillpPeer} (hsent : p.sent <+: p'.sent) (h : SentFin p) :
    SentFin p' := by
  obtain ⟨d, hd, htype⟩ := h
  exact ⟨d, hsent.subset hd, htype⟩

/-- A step at the other end. -/
theorem PairHalf.other {o o' p : FillpPeer} (h : PairHalf o p) (hg : PeerGrows o o') :
    PairHalf o' p := by
  refine ⟨h.snd, ?_, h.rcv.mono hg.numbered, Nat.le_trans h.acked hg.delivered, h.quiet,
    fun hp => (h.peerFin hp).mono hg.sent, h.owed⟩
  intro i hi
  obtain ⟨d, hd, hack⟩ := h.covered i hi
  exact ⟨d, hg.sent.subset hd, hack⟩

/-- Fewer packets than half the number space are under way. -/
theorem PairHalf.window {o p : FillpPeer} (h : PairHalf o p) :
    p.numbered.length < o.delivered.length + 2 ^ 31 := by
  have hacked := h.acked
  have hshort := h.snd.inflight_lt
  unfold FillpPeer.ackedNum at hacked
  omega

theorem StartingPeer.half {p : FillpPeer} (hp : StartingPeer p) (o : FillpPeer) :
    PairHalf o p := by
  have hacked : p.ackedNum = 0 := by
    rw [FillpPeer.ackedNum, hp.numbered, List.length_nil, Nat.zero_sub]
  refine ⟨⟨?_, ?_, ?_, ?_, ?_, ?_, ?_, ?_⟩, ?_, ⟨?_, ?_, ?_, ?_, ?_⟩, ?_, ?_, ?_, ?_⟩
  · rw [hp.sendPktNum, hp.numbered]
    rfl
  · rw [hp.inflight]
    exact Nat.zero_le _
  · intro j q hq
    rw [hp.inflight] at hq
    simp at hq
  · rw [hp.inflightBytes, hp.inflight]
    rfl
  · rw [hp.inflightBytes]
    decide
  · rw [hp.numbered]
    simp
  · rw [hp.numbered, hp.txq, hp.accepted]
    rfl
  · intro d hd htype
    exact absurd htype (hp.sent d hd).1
  · intro i hi
    rw [hacked] at hi
    cases hi
  · rw [hp.recvPktNum, hp.delivered]
    rfl
  · rw [hp.delivered]
    exact List.nil_prefix
  · intro k q hq
    rw [hp.ofo, AList.lookup_empty] at hq
    cases hq
  · intro k q hq
    rw [hp.ofo, AList.lookup_empty] at hq
    cases hq
  · intro d hd htype
    exact absurd htype (hp.sent d hd).2.1
  · rw [hacked]
    exact Nat.zero_le _
  · rintro ⟨d, hd, htype⟩
    exact absurd htype (hp.sent d hd).2.2
  · rw [hp.peerFin]
    exact fun h => absurd h (by simp)
  · rw [hp.pendingFin]
    exact fun h => absurd h (by simp)

/-! ## Steps of one side -/

/-- A step that touches neither stream. -/
theorem PairHalf.same {o p p' : FillpPeer} (h : PairHalf o p) (hs : SameSnd p p')
    (hr : SameRcv p p') (hquiet : SentFin p' → TxQuiet p') (hfin : p'.peerFin = true → SentFin o)
    (howed : p'.pendingFin = true → p'.state = .closing) : PairHalf o p' ∧ PeerGrows p p' :=
  ⟨⟨h.snd.congr hs, h.covered.congr (List.prefix_refl _) hs.ackedNum, h.rcv.congr hr,
    hs.ackedNum ▸ h.acked, hquiet, hfin, howed⟩,
    ⟨hs.sent_grows, hs.numbered ▸ List.prefix_refl _, by rw [hr.delivered]⟩⟩

theorem PairHalf.id {o p : FillpPeer} (h : PairHalf o p) : PairHalf o p ∧ PeerGrows p p :=
  ⟨h, .refl p⟩

/-- A handshake step: the peer is not closing, and sends neither DATA nor PACK nor FIN. -/
theorem PairHalf.handshake {o p p' : FillpPeer} (h : PairHalf o p) (hopen : p.state ≠ .closing)
    (hs : SameSnd p p') (hr : SameRcv p p')
    (hsent : ∃ ds, p'.sent = p.sent ++ ds ∧ ∀ d ∈ ds, fpTypeOf d ≠ some .fin)
    (hfin : p'.peerFin = p.peerFin) (howed : p'.pendingFin = p.pendingFin) :
    PairHalf o p' ∧ PeerGrows p p' := by
  have hnever : ¬ SentFin p := fun hf => hopen (h.quiet hf).state
  refine h.same hs hr ?_ (hfin ▸ h.peerFin) ?_
  · rintro ⟨d, hd, htype⟩
    exfalso
    obtain ⟨ds, hds, hno⟩ := hsent
    rw [hds] at hd
    rcases List.mem_append.mp hd with hd | hd
    · exact hnever ⟨d, hd, htype⟩
    · exact hno d hd htype
  · rw [howed]
    exact fun hp => absurd (h.owed hp) hopen

theorem fillpPeerSend_half {o p : FillpPeer} (h : PairHalf o p) (data : Bytes) :
    PairHalf o (fillpPeerSend p data) ∧ PeerGrows p (fillpPeerSend p data) := by
  have hsnd := fillpPeerSend_sndInv h.snd data
  have hgrow := fillpPeerSend_grows p data
  have hrcv := fillpPeerSend_sameRcv p data
  unfold fillpPeerSend at *
  split
  · exact h.id
  split
  · exact h.id
  · rename_i hlen hopen
    simp only [hlen, hopen, if_false] at hsnd hgrow hrcv
    simp only [ne_eq, Decidable.not_not] at hopen
    refine ⟨⟨hsnd, h.covered.congr (List.prefix_refl _) hgrow.acked, h.rcv.congr hrcv, h.acked, ?_,
      h.peerFin, h.owed⟩, ⟨List.prefix_refl _, hgrow.numbered, Nat.le_refl _⟩⟩
    intro hfin
    have hclosing := (h.quiet hfin).state
    rw [hopen] at hclosing
    cases hclosing

/-- **Closing.** The FIN of an established peer goes out at once; the transmit side is
to be empty then. -/
theorem fpPeerRequestClose_half {o p : FillpPeer} (h : PairHalf o p) (env : FpEnv)
    (hempty : p.state = .established → p.txq = [] ∧ p.inflight = []) :
    PairHalf o (fpPeerRequestClose env p) ∧ PeerGrows p (fpPeerRequestClose env p) := by
  have hs := fpPeerRequestClose_sameSnd env p
  have hr := fpPeerRequestClose_sameRcv env p
  unfold fpPeerRequestClose at *
  split
  · exact h.id
  rename_i hopen
  rw [if_neg hopen] at hs hr
  push Not at hopen
  simp only at hs hr ⊢
  split
  · rename_i hest
    rw [if_pos hest] at hs hr
    obtain ⟨htxq, hin⟩ := hempty hest
    exact h.same hs hr (fun _ => ⟨rfl, htxq, hin⟩) h.peerFin fun _ => rfl
  · rename_i hest
    rw [if_neg hest] at hs hr
    refine h.same hs hr ?_ h.peerFin fun _ => rfl
    exact fun hfin => absurd (h.quiet hfin).state hopen.2

/-! ### The pump -/

theorem TxQuiet.congr {p p' : FillpPeer} (h : TxQuiet p) (hs : SameSnd p p')
    (hstate : p'.state = p.state) : TxQuiet p' :=
  ⟨hstate.trans h.state, hs.txq.trans h.txq, hs.inflight.trans h.inflight⟩

theorem foldl_fillpPeerSend_dropped (chunks : List Bytes) : ∀ {p : FillpPeer},
    p.state ≠ .established → chunks.foldl fillpPeerSend p = p := by
  induction chunks with
  | nil => intro p _; rfl
  | cons c cs ih =>
      intro p hp
      have hone : fillpPeerSend p c = p := by simp [fillpPeerSend, hp]
      rw [List.foldl_cons, hone, ih hp]

/-- A quiet peer stays quiet. -/
theorem fpPump_quiet {p : FillpPeer} (h : TxQuiet p) (env : FpEnv) (fill : Option FpFill) :
    TxQuiet (fpPump env fill p) := by
  have hfill : TxQuiet (fpPumpFill fill p) := by
    unfold fpPumpFill
    split
    · exact h
    rename_i f
    split
    · rw [foldl_fillpPeerSend_dropped _ (by simp [h.state])]
      simp only
      split
      · exact ⟨h.state, h.txq, h.inflight⟩
      · exact h
    · exact h
  have hstall : fpPumpStall env (fpPumpFill fill p) = fpPumpFill fill p := by
    simp [fpPumpStall, hfill.inflight]
  have hpack : fpPacketize env fpSendBudget (fpPumpFill fill p) = fpPumpFill fill p := by
    unfold fpSendBudget fpPacketize
    simp [hfill.txq]
  have htx : TxQuiet (fpPumpTx env fill p) := by
    rw [fpPumpTx, hstall, hpack]
    exact hfill
  refine htx.congr (fpPump_sameSnd env fill p) ?_
  rw [fpPump_state, htx.state, h.state]

/-- The pump sends a FIN only as a reply, with the transmit side drained. -/
theorem fpPump_sentFin {p : FillpPeer} (env : FpEnv) (fill : Option FpFill)
    (h : SentFin (fpPump env fill p)) : SentFin p ∨
      (p.pendingFin = true ∧ (fpPump env fill p).txq = [] ∧ (fpPump env fill p).inflight = []) := by
  have hstages := fpPumpStages_keepsOpen env fill p
  set q := fpMaybePack env <| fpPumpTxComplete <| fpPacketize env fpSendBudget <|
    fpPumpStall env <| fpPumpFill fill p with hq
  have hpump : fpPump env fill p = fpPumpReplyFin q := rfl
  have hsame := fpPumpReplyFin_sameSnd q
  rw [hpump] at h ⊢
  by_cases hreply : (q.pendingFin && fpTxDrained q) = true
  · right
    rw [Bool.and_eq_true] at hreply
    obtain ⟨hpending, hdrained⟩ := hreply
    obtain ⟨-, htxq, hin⟩ := (fpTxDrained_iff q).mp hdrained
    exact ⟨hstages.pendingFin ▸ hpending, hsame.txq.trans htxq, hsame.inflight.trans hin⟩
  · left
    have hid : fpPumpReplyFin q = q := by rw [fpPumpReplyFin, if_neg hreply]
    rw [hid] at h
    obtain ⟨d, hd, htype⟩ := h
    obtain ⟨ds, hds, hno⟩ := hstages.sent
    rw [hds] at hd
    rcases List.mem_append.mp hd with hd | hd
    · exact ⟨d, hd, htype⟩
    · exact absurd htype (hno d hd)

theorem foldl_fillpPeerSend_peerFin (chunks : List Bytes) : ∀ p : FillpPeer,
    (chunks.foldl fillpPeerSend p).peerFin = p.peerFin := by
  induction chunks with
  | nil => intro p; rfl
  | cons c cs ih =>
      intro p
      rw [List.foldl_cons, ih, fillpPeerSend]
      split
      · rfl
      split <;> rfl

theorem fpPacketize_peerFin (env : FpEnv) (budget : ℕ) : ∀ p : FillpPeer,
    (fpPacketize env budget p).peerFin = p.peerFin := by
  induction budget with
  | zero => intro p; rfl
  | succ budget ih =>
      intro p
      rw [fpPacketize]
      split
      · rw [ih]
        rfl
      · rfl

theorem fpMaybePack_peerFin (env : FpEnv) (p : FillpPeer) :
    (fpMaybePack env p).peerFin = p.peerFin := by
  unfold fpMaybePack
  split
  · rfl
  split <;> rfl

theorem fpPump_peerFin (env : FpEnv) (fill : Option FpFill) (p : FillpPeer) :
    (fpPump env fill p).peerFin = p.peerFin := by
  have hreply : ∀ q : FillpPeer, (fpPumpReplyFin q).peerFin = q.peerFin := by
    intro q
    unfold fpPumpReplyFin
    split <;> rfl
  have hcomplete : ∀ q : FillpPeer, (fpPumpTxComplete q).peerFin = q.peerFin := by
    intro q
    unfold fpPumpTxComplete
    split <;> rfl
  have hstall : ∀ q : FillpPeer, (fpPumpStall env q).peerFin = q.peerFin := by
    intro q
    unfold fpPumpStall
    split
    · rfl
    split <;> rfl
  have hfill : (fpPumpFill fill p).peerFin = p.peerFin := by
    unfold fpPumpFill
    split
    · rfl
    split
    · simp only
      split
      · exact foldl_fillpPeerSend_peerFin _ p
      · exact foldl_fillpPeerSend_peerFin _ p
    · rfl
  rw [fpPump, hreply, fpMaybePack_peerFin, hcomplete, fpPacketize_peerFin, hstall, hfill]

theorem fpPump_half {o p : FillpPeer} (h : PairHalf o p) (env : FpEnv) (fill : Option FpFill) :
    PairHalf o (fpPump env fill p) ∧ PeerGrows p (fpPump env fill p) := by
  have hgrow := fpPump_grows env fill p
  obtain ⟨hrcv, hdel⟩ := fpPump_rcv h.rcv env fill
  have hstate := fpPump_state env fill p
  refine ⟨⟨fpPump_sndInv h.snd env fill, h.covered.congr (List.prefix_refl _) hgrow.acked, hrcv,
    hgrow.acked ▸ h.acked, ?_, ?_, ?_⟩, ⟨fpPump_sent env fill p, hgrow.numbered, by rw [hdel]⟩⟩
  · intro hfin
    rcases fpPump_sentFin env fill hfin with hold | ⟨hpending, htxq, hin⟩
    · exact fpPump_quiet (h.quiet hold) env fill
    · exact ⟨hstate.trans (h.owed hpending), htxq, hin⟩
  · rw [fpPump_peerFin]
    exact h.peerFin
  · intro hpending
    rw [hstate]
    apply h.owed
    by_contra hno
    rw [Bool.not_eq_true] at hno
    rw [(fpPump_keepsOpen env fill hno).pendingFin, hno] at hpending
    cases hpending

/-- The tick. -/
theorem fpTickPeer_half {o p : FillpPeer} (h : PairHalf o p) (env : FpEnv) (localAddr : Bytes)
    (fill : Option FpFill) : PairHalf o (fpTickPeer env localAddr fill p).1 ∧
      PeerGrows p (fpTickPeer env localAddr fill p).1 := by
  unfold fpTickPeer
  split
  · rename_i hpending
    have hopen : p.state ≠ .closing := by simp [hpending]
    split
    · exact fpPeerRequestClose_half h env fun hest => by simp [hpending] at hest
    split
    · simp only
      split
      · exact h.handshake hopen
          ⟨rfl, rfl, rfl, rfl, rfl, rfl, rfl, _, rfl, by simp [fillpEncodeConnConfirm]⟩
          ⟨rfl, rfl, rfl, rfl, rfl, rfl, _, rfl, by simp [fillpEncodeConnConfirm]⟩
          ⟨_, rfl, by simp [fillpEncodeConnConfirm]⟩ rfl rfl
      · exact h.handshake hopen
          ⟨rfl, rfl, rfl, rfl, rfl, rfl, rfl, _, rfl, by simp [fillpEncodeConnReq]⟩
          ⟨rfl, rfl, rfl, rfl, rfl, rfl, _, rfl, by simp [fillpEncodeConnReq]⟩
          ⟨_, rfl, by simp [fillpEncodeConnReq]⟩ rfl rfl
    · exact h.id
  · exact h.id
  · exact fpPump_half h env fill

/-! ### A datagram -/

/-- The DATA or PACK is not more than half the number space behind. -/
def InTime (o p : FillpPeer) (d : Bytes) : Prop :=
  (fpTypeOf d = some .data → FreshData p.delivered.length o.numbered d) ∧
  (fpTypeOf d = some .pack → FreshAck o.delivered.length p.numbered.length d)

theorem fpDataPlane_peerFin (env : FpEnv) (p : FillpPeer) {buf : Bytes}
    (hbuf : fpTypeOf buf ≠ some .fin) : (fpDataPlane env p buf).peerFin = p.peerFin := by
  have hflush : ∀ (n : ℕ) (q : FillpPeer), (fpFlushOfo n q).peerFin = q.peerFin := by
    intro n
    induction n with
    | zero => intro q; rfl
    | succ n ih =>
        intro q
        rw [fpFlushOfo]
        split
        · rfl
        · rw [ih]
          rfl
  have hbuffer : ∀ h payload, (fpBuffer env p h payload).peerFin = p.peerFin := by
    intro h payload
    unfold fpBuffer fpMaybeNack
    split <;> split <;> rfl
  unfold fpDataPlane
  split
  · split
    · unfold fpOnData
      split
      · rfl
      unfold fpOnPkt
      split
      · split <;> rfl
      split
      · rw [fpMaybePack_peerFin, hflush]
        rfl
      · exact hbuffer _ _
    · rfl
  · split
    · unfold fpOnNack
      split <;> rfl
    · rfl
  · split
    · unfold fpOnPack
      split <;> rfl
    · rfl
  · rename_i hfin
    exact absurd hfin hbuf
  · rfl

theorem fpOnFin_quiet {p : FillpPeer} (h : TxQuiet p) (env : FpEnv) : TxQuiet (fpOnFin env p) :=
  ⟨by simp [fpOnFin, h.state], by simp [fpOnFin, h.state, h.txq],
    by simp [fpOnFin, h.state, h.inflight]⟩

theorem fpOnFin_sent (env : FpEnv) (p : FillpPeer) : (fpOnFin env p).sent = p.sent := by
  unfold fpOnFin
  simp only
  split <;> rfl

theorem fpOnFin_state (env : FpEnv) (p : FillpPeer) : (fpOnFin env p).state = .closing := by
  unfold fpOnFin
  simp only
  split
  · rfl
  · rename_i hclosing
    simpa using hclosing

/-- A quiet peer stays quiet under every datagram. -/
theorem fpDataPlane_quiet {p : FillpPeer} (h : TxQuiet p) (env : FpEnv) (d : Bytes) :
    TxQuiet (fpDataPlane env p d) := by
  unfold fpDataPlane
  split
  · split
    · refine h.congr (fpOnData_sameSnd env p d) ?_
      exact (fpOnData_keepsOpen env p d).state
    · exact h
  · rw [if_neg (by simp [h.state])]
    exact h
  · split
    · unfold fpOnPack
      split
      · exact h
      · exact ⟨h.state, h.txq, by simp [h.inflight, fpAckLoop]⟩
    · exact h
  · split
    · exact fpOnFin_quiet h env
    · exact h
  · exact h

theorem fpDataPlane_half {o p : FillpPeer} (h : PairHalf o p) (ho : PairHalf p o) {d : Bytes}
    (hd : d ∈ o.sent) (hintime : InTime o p d) (env : FpEnv) :
    PairHalf o (fpDataPlane env p d) ∧ PeerGrows p (fpDataPlane env p d) := by
  by_cases hfin : fpTypeOf d = some .fin
  · simp only [fpDataPlane, hfin]
    split
    · refine h.same (fpOnFin_sameSnd env p) (fpOnFin_sameRcv env p) ?_ (fun _ => ⟨d, hd, hfin⟩)
        fun _ => fpOnFin_state env p
      intro hsent
      rw [SentFin, fpOnFin_sent] at hsent
      exact fpOnFin_quiet (h.quiet hsent) env
    · exact h.id
  -- everything but a FIN keeps the peer open
  have hkeep := fpDataPlane_keepsOpen env p hfin
  have hquiet : SentFin (fpDataPlane env p d) → TxQuiet (fpDataPlane env p d) := by
    rintro ⟨d', hd', htype⟩
    obtain ⟨ds, hds, hno⟩ := hkeep.sent
    rw [hds] at hd'
    rcases List.mem_append.mp hd' with hd' | hd'
    · exact fpDataPlane_quiet (h.quiet ⟨d', hd', htype⟩) env d
    · exact absurd htype (hno d' hd')
  have hpeerFin : (fpDataPlane env p d).peerFin = true → SentFin o := by
    rw [fpDataPlane_peerFin env p hfin]
    exact h.peerFin
  have howed : (fpDataPlane env p d).pendingFin = true →
      (fpDataPlane env p d).state = .closing := by
    rw [hkeep.pendingFin, hkeep.state]
    exact h.owed
  have hnum := (fpDataPlane_grows env p d).1
  have hcov : Covered o.sent (fpDataPlane env p d) := by
    have hcovered := fpDataPlane_covered h.snd h.covered env d
    intro i hi
    obtain ⟨d', hd', hack⟩ := hcovered i hi
    refine ⟨d', ?_, hack⟩
    rcases List.mem_append.mp hd' with hd' | hd'
    · exact hd'
    · split at hd'
      · rw [List.mem_singleton.mp hd']
        exact hd
      · cases hd'
  have hrcv : RcvInv o.numbered (fpDataPlane env p d) ∧
      p.delivered.length ≤ (fpDataPlane env p d).delivered.length := by
    by_cases hdata : fpTypeOf d = some .data
    · simp only [fpDataPlane, hdata]
      split
      · obtain ⟨i, q, hq, rfl, hi⟩ := hintime.1 hdata
        have hsize := ho.snd.sizes q.data (List.mem_of_getElem? hq.data)
        obtain ⟨hrcv, hdel, -⟩ := fpOnData_rcv h.rcv hq (hq.len ▸ hsize.2) ho.window hi env
        exact ⟨hrcv, hdel⟩
      · exact ⟨h.rcv, Nat.le_refl _⟩
    · have hsame : SameRcv p (fpDataPlane env p d) := by
        unfold fpDataPlane
        split
        · rename_i htype
          exact absurd htype hdata
        · split
          · exact fpOnNack_sameRcv env p d
          · exact .refl p
        · split
          · exact fpOnPack_sameRcv p d
          · exact .refl p
        · split
          · exact fpOnFin_sameRcv env p
          · exact .refl p
        · exact .refl p
      exact ⟨h.rcv.congr hsame, by rw [hsame.delivered]⟩
  have hacked : (fpDataPlane env p d).ackedNum ≤ o.delivered.length := by
    by_cases hpack : fpTypeOf d = some .pack
    · simp only [fpDataPlane, hpack]
      split
      · obtain ⟨c, hc, hdec, hnew⟩ := hintime.2 hpack
        rw [fpOnPack_acked h.snd hdec hnew (Nat.le_trans hc ho.rcv.le)]
        exact Nat.max_le.mpr ⟨h.acked, hc⟩
      · exact h.acked
    · rw [fpDataPlane_ackedNum env p hpack]
      exact h.acked
  exact ⟨⟨fpDataPlane_sndInv h.snd env d, hcov, hrcv.1, hacked, hquiet, hpeerFin, howed⟩,
    ⟨fpDataPlane_sent env p d, hnum ▸ List.prefix_refl _, hrcv.2⟩⟩

/-- The CONN_CONFIRM has a cookie that does not verify. -/
def BadConfirm (hmacSha256 : Bytes → Bytes → Bytes) (e : FillpEngine) (d : Bytes) : Prop :=
  fpTypeOf d = some .connConfirm ∧ ∃ c, fillpDecodeConnConfirm d = some c ∧
    fillpCookieVerify hmacSha256 c.cookie e.macKey e.localAddr = false

/-- A step to an open state that sends at most handshake messages. -/
theorem PairHalf.opened {o p p' : FillpPeer} (h : PairHalf o p) (hopen : p.state ≠ .closing)
    (hp' : ∃ ds, (∀ d ∈ ds, fpTypeOf d = some .connConfirmAck) ∧
      p' = { p with sent := p.sent ++ ds, state := p'.state, tStageMs := p'.tStageMs
                    wasEstablished := p'.wasEstablished }) :
    PairHalf o p' ∧ PeerGrows p p' := by
  obtain ⟨ds, hds, hp'⟩ := hp'
  have hno : ∀ d ∈ ds, ∀ t : FpPktType, t ≠ .connConfirmAck → fpTypeOf d ≠ some t := by
    intro d hd t ht htype
    rw [hds d hd] at htype
    exact ht (Option.some.inj htype).symm
  have hmid : PairHalf o { p with sent := p.sent ++ ds } ∧
      PeerGrows p { p with sent := p.sent ++ ds } := h.handshake hopen
    ⟨rfl, rfl, rfl, rfl, rfl, rfl, rfl, ds, rfl, fun d hd => hno d hd _ (by simp)⟩
    ⟨rfl, rfl, rfl, rfl, rfl, rfl, ds, rfl, fun d hd => ⟨hno d hd _ (by simp), hno d hd _ (by simp)⟩⟩
    ⟨ds, rfl, fun d hd => hno d hd _ (by simp)⟩ rfl rfl
  obtain ⟨hhalf, hgrows⟩ := hmid
  have hnever : ¬ SentFin ({ p with sent := p.sent ++ ds } : FillpPeer) :=
    fun hf => hopen (hhalf.quiet hf).state
  rw [hp']
  refine ⟨⟨⟨hhalf.snd.num, hhalf.snd.le, hhalf.snd.pkts, hhalf.snd.bytes, hhalf.snd.window,
    hhalf.snd.sizes, hhalf.snd.stream, hhalf.snd.frames⟩, hhalf.covered,
    ⟨hhalf.rcv.num, hhalf.rcv.pre, hhalf.rcv.key, hhalf.rcv.ofo, hhalf.rcv.packs⟩, hhalf.acked,
    fun hf => absurd hf hnever, hhalf.peerFin, fun howed => ?_⟩,
    ⟨hgrows.sent, hgrows.numbered, hgrows.delivered⟩⟩
  exact absurd (h.owed howed) hopen

theorem fpReceive_half (hmacSha256 : Bytes → Bytes → Bytes) {o p : FillpPeer} (h : PairHalf o p)
    (ho : PairHalf p o) {d : Bytes} (hd : d ∈ o.sent) (hintime : InTime o p d) (env : FpEnv)
    {e : FillpEngine} (hbad : BadConfirm hmacSha256 e d → p.state = .established →
      p.txq = [] ∧ p.inflight = []) :
    PairHalf o (fpReceive hmacSha256 env e p d) ∧
      PeerGrows p (fpReceive hmacSha256 env e p d) := by
  unfold fpReceive
  split
  · split
    · exact h.id
    split
    · rename_i hpending
      exact h.handshake (by simp [hpending])
        ⟨rfl, rfl, rfl, rfl, rfl, rfl, rfl, _, rfl, by simp [fillpEncodeConnReqAck]⟩
        (fpSendConnReqAck_sameRcv env p) ⟨_, rfl, by simp [fillpEncodeConnReqAck]⟩ rfl rfl
    · exact h.id
  · unfold fpHandleConnReqAck
    split
    · exact h.id
    rename_i hpending
    push Not at hpending
    split
    · exact h.id
    · exact h.handshake (by simp [hpending.1])
        ⟨rfl, rfl, rfl, rfl, rfl, rfl, rfl, _, rfl, by simp [fillpEncodeConnConfirm]⟩
        ⟨rfl, rfl, rfl, rfl, rfl, rfl, _, rfl, by simp [fillpEncodeConnConfirm]⟩
        ⟨_, rfl, by simp [fillpEncodeConnConfirm]⟩ rfl rfl
  · rename_i htype
    unfold fpHandleConnConfirm
    split
    · exact h.id
    split
    · exact h.id
    rename_i hopen
    split
    · exact h.id
    rename_i c hdec
    have hnot : p.state ≠ .closing := by
      intro hclosing
      exact hopen (by simp [hclosing])
    split
    · simp only
      split
      · exact h.opened hnot ⟨_, by simp [fillpEncodeConnConfirmAck], rfl⟩
      · exact h.opened hnot ⟨_, by simp [fillpEncodeConnConfirmAck], rfl⟩
    · rename_i hverify
      exact fpPeerRequestClose_half h env
        (hbad ⟨htype, c, hdec, by simpa using hverify⟩)
  · unfold fpHandleConnConfirmAck
    split
    · exact h.id
    rename_i hpending
    push Not at hpending
    split
    · exact h.id
    · exact h.opened (by simp [hpending.1]) ⟨[], by simp, by simp [fpPeerEstablished]⟩
  · exact fpDataPlane_half h ho hd hintime env
  · exact h.id

/-! ## Runs -/

structure PairInv (s : FpPair) : Prop where
  half : ∀ x, PairHalf (s.peer x.other) (s.peer x)

/-- **The condition on a step.** A peer that is established is closed only with
nothing left to send or to be acknowledged, and DATA and PACK arrive in time. -/
def ClosesDrained (hmacSha256 : Bytes → Bytes → Bytes) (engine : Side → FillpEngine) (s : FpPair) :
    FpPairEv → Prop
  | .close x => (s.peer x).state = .established →
      (s.peer x).txq = [] ∧ (s.peer x).inflight = []
  | .deliver x d _ _ => InTime (s.peer x.other) (s.peer x) d ∧
      (BadConfirm hmacSha256 (engine x) d → (s.peer x).state = .established →
        (s.peer x).txq = [] ∧ (s.peer x).inflight = [])
  | _ => True

theorem PairInv.put {s s' : FpPair} (h : PairInv s) {x : Side} {p' : FillpPeer} {gone : Bool}
    (hp : PairHalf (s.peer x.other) p' ∧ PeerGrows (s.peer x) p')
    (hs : s.put x p' gone = some s') : PairInv s' := by
  unfold FpPair.put at hs
  split at hs
  · cases hs
  cases hs
  constructor
  intro y
  have hother : x.other ≠ x := Side.other_ne x
  rcases Side.eq_or_eq_other x y with rfl | rfl
  · simp only [Function.update_self, Function.update_of_ne hother]
    exact hp.1
  · simp only [Side.other_other, Function.update_self, Function.update_of_ne hother]
    have hhalf := h.half x.other
    rw [Side.other_other] at hhalf
    exact hhalf.other hp.2

/-- **Step lemma.** -/
theorem PairInv.step {hmacSha256 : Bytes → Bytes → Bytes} {engine : Side → FillpEngine}
    {s s' : FpPair} {e : FpPairEv} (h : PairInv s) (hok : ClosesDrained hmacSha256 engine s e)
    (hs : s.step hmacSha256 engine e = some s') : PairInv s' := by
  cases e with
  | advance dt =>
      cases hs
      exact ⟨h.half⟩
  | send x data => exact h.put (fillpPeerSend_half (h.half x) data) hs
  | close x => exact h.put (fpPeerRequestClose_half (h.half x) _ hok) hs
  | tick x fill => exact h.put (fpTickPeer_half (h.half x) _ _ fill) hs
  | shutdown x => exact h.put (h.half x).id hs
  | deliver x d r₁ r₂ =>
      unfold FpPair.step at hs
      simp only at hs
      split at hs
      · rename_i hd
        have hother := h.half x.other
        rw [Side.other_other] at hother
        exact h.put (fpReceive_half hmacSha256 (h.half x) hother hd hok.1 _ hok.2) hs
      · cases hs

/-- Everything that `o` accepted has been delivered to `p`, in order, and everything
that `p` accepted has been transmitted, acknowledged and delivered to `o`. -/
structure Exchanged (o p : FillpPeer) : Prop where
  delivered : p.delivered.flatten = o.accepted
  inOrder : p.ofo.entries = []
  transmitted : p.numbered.flatten = p.accepted
  acked : ∀ i < p.numbered.length, ∃ d ∈ o.sent, AcksPkt d i
  arrived : o.delivered = p.numbered

theorem PairHalf.exchanged {o p : FillpPeer} (h : PairHalf o p) (ho : PairHalf p o)
    (hd : fpCloseDrained p = true) : Exchanged o p := by
  simp only [fpCloseDrained, Bool.and_eq_true] at hd
  obtain ⟨⟨hfin, hdrained⟩, -⟩ := hd
  -- the FIN that was received came from a peer with nothing under way
  have hq := ho.quiet (h.peerFin hfin)
  have hstream := ho.snd.stream
  rw [hq.txq, List.append_nil] at hstream
  have hall : o.ackedNum = o.numbered.length := by
    rw [FillpPeer.ackedNum, hq.inflight, List.length_nil, Nat.sub_zero]
  have hdel : p.delivered = o.numbered := by
    have hacked := ho.acked
    rw [hall] at hacked
    exact h.rcv.pre.eq_of_length_le hacked
  obtain ⟨hsent, hnum⟩ := h.snd.drained hdrained
  refine ⟨by rw [hdel, hstream], ?_, hsent, ?_, ?_⟩
  · rw [List.eq_nil_iff_forall_not_mem]
    intro entry hmem
    have hlook : p.ofo.lookup entry.1 = some entry.2 :=
      AList.mem_lookup_iff.mpr (by simpa using hmem)
    obtain ⟨i, hi, hpkt⟩ := h.rcv.ofo _ _ hlook
    have hlt := hpkt.lt
    rw [hdel] at hi
    omega
  · intro i hi
    exact h.covered i (hnum ▸ hi)
  · have hacked := h.acked
    rw [hnum] at hacked
    exact ho.rcv.pre.eq_of_length_le hacked

/-- **A drained close has lost nothing**, in every run whose closes have nothing
to wait for. -/
theorem FpPair.drained_exchanged {hmacSha256 : Bytes → Bytes → Bytes}
    {engine : Side → FillpEngine} {s t t' : FpPair} {es : List FpPairEv} (hs : s.Init)
    (hok : Meets (FpPair.step hmacSha256 engine) (ClosesDrained hmacSha256 engine) s es)
    (hrun : run (FpPair.step hmacSha256 engine) s es = some t) {x : Side} {fill : Option FpFill}
    (htick : t.step hmacSha256 engine (.tick x fill) = some t') (_hgone : t'.gone x = true)
    (hdrained : fpCloseDrained (t'.peer x) = true) :
    Exchanged (t'.peer x.other) (t'.peer x) := by
  have hinit : PairInv s := ⟨fun y => (hs.starting y).half _⟩
  have hinv : PairInv t := run_inv PairInv (ClosesDrained hmacSha256 engine)
    (fun _ _ _ h hok he => h.step hok he) hinit hok hrun
  have hok' : ClosesDrained hmacSha256 engine t (.tick x fill) := trivial
  have hinv' : PairInv t' := hinv.step hok' htick
  have hother := hinv'.half x.other
  rw [Side.other_other] at hother
  exact (hinv'.half x).exchanged hother hdrained

/-! ### Two closes -/

/-- Two peers that have just become established. -/
def pairStart : FpPair where
  peer := fpLinkStart.peer
  gone := fun _ => false
  clock := 0

def pairEngine (x : Side) : FillpEngine :=
  fillpEngineNew (if x = .left then 5000 else 6000) (List.replicate 32 0)

theorem pairStart_init : pairStart.Init :=
  ⟨fun _ => ⟨.inr rfl, rfl, rfl, rfl, rfl, rfl, rfl, rfl, rfl, by simp [pairStart, fpLinkStart,
    fpPeerEstablished, fpPeerNew], rfl, rfl, rfl⟩, fun _ => rfl⟩

def pairFin : Bytes := (fillpEncodeFin (fillpHlen + fillpFinLen) 0).getD []

/-- The application has given its last byte. -/
def lastFill : Option FpFill := some ⟨[], -1⟩

/-- Two bytes are sent, delivered and acknowledged, then the left side closes. -/
def patientClose : List FpPairEv :=
  [.advance 10, .send .left [104, 105], .tick .left lastFill,
    .deliver .right (fpPktFrame ⟨1, 2, 2, 10, [104, 105]⟩) 0 0,
    .deliver .left ((fillpEncodePack (fillpHlen + fillpPackLen) 2 1 2 0).getD []) 0 0,
    .close .left, .deliver .right pairFin 0 0]

/-- The left side closes with its two bytes still under way. -/
def hastyClose : List FpPairEv :=
  [.advance 10, .send .left [104, 105], .tick .left lastFill, .close .left,
    .deliver .right pairFin 0 0]

/-- What a run and a last tick of the right side leave behind there. -/
def closeOutcome (es : List FpPairEv) : Option (Bool × Bool × List Bytes × Bytes) :=
  (run (FpPair.step strayHmac pairEngine) pairStart es).bind fun t =>
    (t.step strayHmac pairEngine (.tick .right lastFill)).map fun t' =>
      (t'.gone .right, fpCloseDrained (t'.peer .right), (t'.peer .right).delivered,
        (t'.peer .left).accepted)

theorem closeOutcome_spec {es : List FpPairEv} {delivered : List Bytes} {accepted : Bytes}
    (h : closeOutcome es = some (true, true, delivered, accepted)) :
    ∃ t t', run (FpPair.step strayHmac pairEngine) pairStart es = some t ∧
      t.step strayHmac pairEngine (.tick .right lastFill) = some t' ∧
      t'.gone .right = true ∧ fpCloseDrained (t'.peer .right) = true ∧
      (t'.peer .right).delivered = delivered ∧ (t'.peer .left).accepted = accepted := by
  obtain ⟨t, hrun, h⟩ := Option.bind_eq_some_iff.mp h
  obtain ⟨t', htick, h⟩ := Option.map_eq_some_iff.mp h
  simp only [Prod.mk.injEq] at h
  exact ⟨t, t', hrun, htick, h⟩

/-- A test for `InTime`, when fewer than 2^31 packets are numbered. -/
def inTimeTest (o p : FillpPeer) (d : Bytes) : Bool :=
  (decide (fpTypeOf d ≠ some .data) || ((List.range o.numbered.length).any fun i =>
    ((fpDataOf d).any fun hp => decide (p.delivered.length ≤ i + 2 ^ 31 ∧
      o.numbered[i]? = some hp.2 ∧
      d = fpPktFrame ⟨UInt32.ofNat (i + 1), hp.1.seqNum, hp.2.length, 0, hp.2⟩)))) &&
  (decide (fpTypeOf d ≠ some .pack) || ((fillpDecodePack d).any fun k =>
    decide (k.ackPkt.toNat ≤ o.delivered.length ∧
      p.numbered.length < k.ackPkt.toNat + 2 ^ 31)))

theorem inTime_of_test {o p : FillpPeer} {d : Bytes} (h : inTimeTest o p d = true) :
    InTime o p d := by
  simp only [inTimeTest, Bool.and_eq_true, Bool.or_eq_true, decide_eq_true_eq] at h
  obtain ⟨hdata, hpack⟩ := h
  constructor
  · intro htype
    rcases hdata with hdata | hdata
    · exact absurd htype hdata
    obtain ⟨i, -, hi⟩ := List.any_eq_true.mp hdata
    obtain ⟨⟨head, payload⟩, -, hi⟩ := (Option.any_eq_true ..).mp hi
    obtain ⟨hle, hget, hd⟩ := of_decide_eq_true hi
    exact ⟨i, _, ⟨hget, rfl, rfl⟩, hd, hle⟩
  · intro htype
    rcases hpack with hpack | hpack
    · exact absurd htype hpack
    obtain ⟨k, hk, hack⟩ := (Option.any_eq_true ..).mp hpack
    obtain ⟨hle, hlt⟩ := of_decide_eq_true hack
    exact ⟨_, hle, by rw [hk, Option.map_some, UInt32.ofNat_toNat], hlt⟩

def closesTest (s : FpPair) : FpPairEv → Bool
  | .close x => decide ((s.peer x).txq = [] ∧ (s.peer x).inflight = [])
  | .deliver x d _ _ => inTimeTest (s.peer x.other) (s.peer x) d &&
      decide (fpTypeOf d ≠ some .connConfirm)
  | _ => true

theorem closesDrained_of_test (s : FpPair) (e : FpPairEv) (h : closesTest s e = true) :
    ClosesDrained strayHmac pairEngine s e := by
  cases e with
  | close x => exact fun _ => of_decide_eq_true h
  | deliver x d r₁ r₂ =>
      simp only [closesTest, Bool.and_eq_true, decide_eq_true_eq] at h
      exact ⟨inTime_of_test h.1, fun hbad => absurd hbad.1 h.2⟩
  | _ => trivial

/-- The patient close. -/
theorem FpPair.drained_exchanged_patient :
    ∃ t t', run (FpPair.step strayHmac pairEngine) pairStart patientClose = some t ∧
      t.step strayHmac pairEngine (.tick .right lastFill) = some t' ∧
      t'.gone .right = true ∧ (t'.peer .right).delivered = [[104, 105]] ∧
      Exchanged (t'.peer .left) (t'.peer .right) := by
  obtain ⟨t, t', hrun, htick, hgone, hdrained, hdel, -⟩ := closeOutcome_spec
    (show closeOutcome patientClose = some (true, true, [[104, 105]], [104, 105]) by
      decide +kernel)
  have hok : Meets (FpPair.step strayHmac pairEngine) (ClosesDrained strayHmac pairEngine)
      pairStart patientClose := meets_of_test closesDrained_of_test _ (by decide +kernel)
  exact ⟨t, t', hrun, htick, hgone, hdel,
    FpPair.drained_exchanged pairStart_init hok hrun htick hgone hdrained⟩

/-- **A FIN overtakes DATA.** The right side is finalized as drained without the two bytes. -/
theorem FpPair.not_drained_exchanged :
    ∃ t t', run (FpPair.step strayHmac pairEngine) pairStart hastyClose = some t ∧
      t.step strayHmac pairEngine (.tick .right lastFill) = some t' ∧
      t'.gone .right = true ∧ fpCloseDrained (t'.peer .right) = true ∧
      (t'.peer .right).delivered = [] ∧ (t'.peer .left).accepted = [104, 105] ∧
      ¬ Exchanged (t'.peer .left) (t'.peer .right) := by
  obtain ⟨t, t', hrun, htick, hgone, hdrained, hdel, hacc⟩ := closeOutcome_spec
    (show closeOutcome hastyClose = some (true, true, [], [104, 105]) by decide +kernel)
  refine ⟨t, t', hrun, htick, hgone, hdrained, hdel, hacc, ?_⟩
  intro h
  have hall := h.delivered
  rw [hdel, hacc] at hall
  cases hall

end HwPhoneLink.Fillp
