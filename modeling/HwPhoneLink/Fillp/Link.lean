import HwPhoneLink.Fillp.Receiver
import HwPhoneLink.Lib.Transitions
import Mathlib.Algebra.Order.BigOperators.Group.List

/-!
# Two established peers over an unreliable network

An `FpLink` is two peers and a clock. A datagram that a peer has handed to
`fp_sendto` may be delivered to the other peer at any later time, any number
of times and in any order, or never: delivery picks it from the whole history
of the sender. Both sides may queue data; the application of each side is the
events that call `fillp_peer_send` and the answer of the fill function in each
pump.

`LinkInv` joins the invariants of the two directions. Freshness (`FreshData`,
`FreshAck`) is what the 32-bit comparison needs of a delivered datagram; in a
run with fewer than 2^31 packets every datagram is fresh.
-/

namespace HwPhoneLink.Fillp

open BigEndian Transitions

/-! ## The system -/

inductive Side : Type where
  | left | right
deriving DecidableEq, Repr

def Side.other : Side → Side
  | .left => .right
  | .right => .left

@[simp] theorem Side.other_other (x : Side) : x.other.other = x := by cases x <;> rfl

theorem Side.other_ne (x : Side) : x.other ≠ x := by cases x <;> decide

theorem Side.eq_or_eq_other (x y : Side) : y = x ∨ y = x.other := by
  cases x <;> cases y <;> simp [Side.other]

structure FpLink where
  peer : Side → FillpPeer
  /-- the bytes passed to `fillp_peer_send` on each side so far -/
  given : Side → Bytes
  clock : ℕ

inductive FpLinkEv : Type where
  | advance (dt : ℕ)
  | send (x : Side) (chunk : Bytes)
  | pump (x : Side) (fill : Option FpFill)
  | deliver (x : Side) (d : Bytes) (rand1 rand2 : UInt32)

def FpLink.env (s : FpLink) (rand1 rand2 : UInt32) : FpEnv :=
  { now := s.clock, nowUs := UInt64.ofNat (s.clock * 1000), rand1 := rand1, rand2 := rand2 }

def FpLink.setPeer (s : FpLink) (x : Side) (p : FillpPeer) : FpLink :=
  { s with peer := Function.update s.peer x p }

/-- The bytes a pump of `p` makes the application pass to `fillp_peer_send`. -/
def fpFillGiven (fill : Option FpFill) (p : FillpPeer) : Bytes :=
  match fill with
  | none => []
  | some f => if fpWantsFill p then f.chunks.flatten else []

def FpLink.step (s : FpLink) : FpLinkEv → Option FpLink
  | .advance dt => some { s with clock := s.clock + dt }
  | .send x chunk =>
      some { s.setPeer x (fillpPeerSend (s.peer x) chunk) with
        given := Function.update s.given x (s.given x ++ chunk) }
  | .pump x fill =>
      some { s.setPeer x (fpPump (s.env 0 0) fill (s.peer x)) with
        given := Function.update s.given x (s.given x ++ fpFillGiven fill (s.peer x)) }
  | .deliver x d rand1 rand2 =>
      if d ∈ (s.peer x.other).sent then
        some (s.setPeer x (fpDataPlane (s.env rand1 rand2) (s.peer x) d))
      else none

/-- A peer right after it became established: nothing sent or received yet.
The handshake fields are arbitrary. -/
structure FreshPeer (p : FillpPeer) : Prop where
  state : p.state = .established
  sendPktNum : p.sendPktNum = 0
  txq : p.txq = []
  inflight : p.inflight = []
  inflightBytes : p.inflightBytes = 0
  recvPktNum : p.recvPktNum = 0
  ofo : p.ofo = ∅
  ofoBytes : p.ofoBytes = 0
  deliveredSincePack : p.deliveredSincePack = 0
  tLastPackMs : p.tLastPackMs = 0
  tLastNackMs : p.tLastNackMs = 0
  pendingFin : p.pendingFin = false
  sent : p.sent = []
  delivered : p.delivered = []
  accepted : p.accepted = []
  numbered : p.numbered = []

structure FpLink.Init (s : FpLink) : Prop where
  fresh : ∀ x, FreshPeer (s.peer x)
  given : ∀ x, s.given x = []

/-! ## Staying open -/

/-- The peer stays in its state and sends no FIN. -/
structure KeepsOpen (p p' : FillpPeer) : Prop where
  state : p'.state = p.state
  pendingFin : p'.pendingFin = p.pendingFin
  opened : p'.wasEstablished = p.wasEstablished
  isClient : p'.isClient = p.isClient
  sent : ∃ ds, p'.sent = p.sent ++ ds ∧ ∀ d ∈ ds, fpTypeOf d ≠ some .fin

theorem KeepsOpen.refl (p : FillpPeer) : KeepsOpen p p := ⟨rfl, rfl, rfl, rfl, [], by simp, by simp⟩

theorem KeepsOpen.trans {p p' p'' : FillpPeer} (h : KeepsOpen p p') (h' : KeepsOpen p' p'') :
    KeepsOpen p p'' := by
  obtain ⟨ds, hds, hno⟩ := h.sent
  obtain ⟨ds', hds', hno'⟩ := h'.sent
  refine ⟨h'.state.trans h.state, h'.pendingFin.trans h.pendingFin,
    h'.opened.trans h.opened, h'.isClient.trans h.isClient, ds ++ ds', ?_, ?_⟩
  · rw [hds', hds, List.append_assoc]
  · intro d hd
    rcases List.mem_append.mp hd with hd | hd
    · exact hno d hd
    · exact hno' d hd

theorem fillpPeerSend_keepsOpen (p : FillpPeer) (data : Bytes) :
    KeepsOpen p (fillpPeerSend p data) := by
  unfold fillpPeerSend
  split
  · exact .refl p
  split
  · exact .refl p
  · exact ⟨rfl, rfl, rfl, rfl, [], by simp, by simp⟩

theorem foldl_fillpPeerSend_keepsOpen (chunks : List Bytes) : ∀ p : FillpPeer,
    KeepsOpen p (chunks.foldl fillpPeerSend p) := by
  induction chunks with
  | nil => intro p; exact .refl p
  | cons c cs ih => intro p; exact (fillpPeerSend_keepsOpen p c).trans (ih _)

theorem fpPumpFill_keepsOpen (fill : Option FpFill) (p : FillpPeer) :
    KeepsOpen p (fpPumpFill fill p) := by
  unfold fpPumpFill
  split
  · exact .refl p
  split
  · have hfold := foldl_fillpPeerSend_keepsOpen (by assumption : FpFill).chunks p
    simp only
    split
    · exact hfold.trans ⟨rfl, rfl, rfl, rfl, [], by simp, by simp⟩
    · exact hfold
  · exact .refl p

theorem fpPumpStall_keepsOpen (env : FpEnv) (p : FillpPeer) :
    KeepsOpen p (fpPumpStall env p) := by
  unfold fpPumpStall
  split
  · exact .refl p
  split
  · exact ⟨rfl, rfl, rfl, rfl, _, rfl, by simp⟩
  · exact .refl p

theorem fpPacketize_keepsOpen (env : FpEnv) (budget : ℕ) : ∀ p : FillpPeer,
    KeepsOpen p (fpPacketize env budget p) := by
  induction budget with
  | zero => intro p; exact .refl p
  | succ budget ih =>
      intro p
      unfold fpPacketize
      split
      · have hone : KeepsOpen p (fpSendNext env p) := ⟨rfl, rfl, rfl, rfl, _, rfl, by simp⟩
        exact hone.trans (ih _)
      · exact .refl p

theorem fpPumpTxComplete_keepsOpen (p : FillpPeer) : KeepsOpen p (fpPumpTxComplete p) := by
  unfold fpPumpTxComplete
  split
  · exact ⟨rfl, rfl, rfl, rfl, [], by simp, by simp⟩
  · exact .refl p

theorem fpSendPack_keepsOpen (env : FpEnv) (p : FillpPeer) : KeepsOpen p (fpSendPack env p) :=
  ⟨rfl, rfl, rfl, rfl, _, rfl, by simp [fpTypeOf_pack]⟩

theorem fpMaybePack_keepsOpen (env : FpEnv) (p : FillpPeer) :
    KeepsOpen p (fpMaybePack env p) := by
  unfold fpMaybePack
  split
  · exact .refl p
  split
  · exact .refl p
  · exact fpSendPack_keepsOpen env p

/-- The first five steps of the pump. -/
theorem fpPumpStages_keepsOpen (env : FpEnv) (fill : Option FpFill) (p : FillpPeer) :
    KeepsOpen p (fpMaybePack env <| fpPumpTxComplete <| fpPacketize env fpSendBudget <|
      fpPumpStall env <| fpPumpFill fill p) :=
  ((((fpPumpFill_keepsOpen fill p).trans (fpPumpStall_keepsOpen env _)).trans
    (fpPacketize_keepsOpen env _ _)).trans (fpPumpTxComplete_keepsOpen _)).trans
    (fpMaybePack_keepsOpen env _)

/-- Without an owed reply FIN the last step does nothing. -/
theorem fpPump_of_pendingFin (env : FpEnv) (fill : Option FpFill) {p : FillpPeer}
    (hp : p.pendingFin = false) :
    fpPump env fill p = (fpMaybePack env <| fpPumpTxComplete <| fpPacketize env fpSendBudget <|
      fpPumpStall env <| fpPumpFill fill p) := by
  have hfin := (fpPumpStages_keepsOpen env fill p).pendingFin
  rw [fpPump, fpPumpReplyFin, hfin, hp]
  rfl

theorem fpPump_keepsOpen (env : FpEnv) (fill : Option FpFill) {p : FillpPeer}
    (hp : p.pendingFin = false) : KeepsOpen p (fpPump env fill p) := by
  rw [fpPump_of_pendingFin env fill hp]
  exact fpPumpStages_keepsOpen env fill p

theorem fpFlushOfo_keepsOpen (n : ℕ) : ∀ p : FillpPeer, KeepsOpen p (fpFlushOfo n p) := by
  induction n with
  | zero => intro p; exact .refl p
  | succ n ih =>
      intro p
      unfold fpFlushOfo
      split
      · exact .refl p
      · rename_i next _
        have hone : KeepsOpen p (fpFlushOne p next) :=
          ⟨rfl, rfl, rfl, rfl, [], by simp [fpFlushOne, fpDeliver], by simp⟩
        exact hone.trans (ih _)

theorem fpBuffer_keepsOpen (env : FpEnv) (p : FillpPeer) (h : FpHead) (payload : Bytes) :
    KeepsOpen p (fpBuffer env p h payload) := by
  unfold fpBuffer fpMaybeNack
  split <;> split
  · exact ⟨rfl, rfl, rfl, rfl, [], by simp, by simp⟩
  · exact ⟨rfl, rfl, rfl, rfl, _, rfl, by simp [fpTypeOf_nack]⟩
  · exact .refl p
  · exact ⟨rfl, rfl, rfl, rfl, _, rfl, by simp [fpTypeOf_nack]⟩

theorem fpOnData_keepsOpen (env : FpEnv) (p : FillpPeer) (buf : Bytes) :
    KeepsOpen p (fpOnData env p buf) := by
  unfold fpOnData
  split
  · exact .refl p
  unfold fpOnPkt
  split
  · split
    · exact fpSendPack_keepsOpen env p
    · exact .refl p
  split
  · rename_i h payload _ _ _
    have hacc : KeepsOpen p (fpAccept p h.pktNum h.seqNum payload) :=
      ⟨rfl, rfl, rfl, rfl, [], by simp [fpAccept, fpDeliver], by simp⟩
    exact (hacc.trans (fpFlushOfo_keepsOpen _ _)).trans (fpMaybePack_keepsOpen env _)
  · exact fpBuffer_keepsOpen env p _ _

theorem fpOnNack_keepsOpen (env : FpEnv) (p : FillpPeer) (buf : Bytes) :
    KeepsOpen p (fpOnNack env p buf) := by
  unfold fpOnNack
  split
  · exact .refl p
  · refine ⟨rfl, rfl, rfl, rfl, _, rfl, ?_⟩
    intro d hd
    obtain ⟨q, _, rfl⟩ := List.mem_map.mp hd
    simp

theorem fpOnPack_keepsOpen (p : FillpPeer) (buf : Bytes) : KeepsOpen p (fpOnPack p buf) := by
  unfold fpOnPack
  split
  · exact .refl p
  · exact ⟨rfl, rfl, rfl, rfl, [], by simp, by simp⟩

/-- A datagram that is no FIN keeps the peer open. -/
theorem fpDataPlane_keepsOpen (env : FpEnv) (p : FillpPeer) {buf : Bytes}
    (hbuf : fpTypeOf buf ≠ some .fin) : KeepsOpen p (fpDataPlane env p buf) := by
  unfold fpDataPlane
  split
  · split
    · exact fpOnData_keepsOpen env p buf
    · exact .refl p
  · split
    · exact fpOnNack_keepsOpen env p buf
    · exact .refl p
  · split
    · exact fpOnPack_keepsOpen p buf
    · exact .refl p
  · rename_i hfin
    exact absurd hfin hbuf
  · exact .refl p

/-! ## What a pump queues and numbers -/

/-- Packets are numbered at the end, and none leaves the inflight list. -/
structure SndGrows (p p' : FillpPeer) : Prop where
  numbered : p.numbered <+: p'.numbered
  acked : p'.ackedNum = p.ackedNum

theorem SndGrows.trans {p p' p'' : FillpPeer} (h : SndGrows p p') (h' : SndGrows p' p'') :
    SndGrows p p'' := ⟨h.numbered.trans h'.numbered, h'.acked.trans h.acked⟩

theorem SameSnd.grows {p p' : FillpPeer} (h : SameSnd p p') : SndGrows p p' :=
  ⟨h.numbered ▸ List.prefix_refl _, h.ackedNum⟩

theorem SndGrows.refl (p : FillpPeer) : SndGrows p p := ⟨List.prefix_refl _, rfl⟩

theorem fillpPeerSend_grows (p : FillpPeer) (data : Bytes) :
    SndGrows p (fillpPeerSend p data) := by
  unfold fillpPeerSend
  split
  · exact .refl p
  split
  · exact .refl p
  · exact ⟨List.prefix_refl _, rfl⟩

theorem foldl_fillpPeerSend_grows (chunks : List Bytes) : ∀ p : FillpPeer,
    SndGrows p (chunks.foldl fillpPeerSend p) := by
  induction chunks with
  | nil => intro p; exact .refl p
  | cons c cs ih => intro p; exact (fillpPeerSend_grows p c).trans (ih _)

theorem fpPumpFill_grows (fill : Option FpFill) (p : FillpPeer) :
    SndGrows p (fpPumpFill fill p) := by
  unfold fpPumpFill
  split
  · exact .refl p
  split
  · have hfold := foldl_fillpPeerSend_grows (by assumption : FpFill).chunks p
    simp only
    split
    · exact hfold.trans ⟨List.prefix_refl _, rfl⟩
    · exact hfold
  · exact .refl p

theorem fpPumpStall_grows (env : FpEnv) (p : FillpPeer) : SndGrows p (fpPumpStall env p) := by
  unfold fpPumpStall
  split
  · exact .refl p
  · rename_i hin
    split
    · exact ⟨List.prefix_refl _, by simp [FillpPeer.ackedNum, fpSendto, hin]⟩
    · exact .refl p

theorem fpPacketize_grows (env : FpEnv) (budget : ℕ) : ∀ p : FillpPeer,
    SndGrows p (fpPacketize env budget p) := by
  induction budget with
  | zero => intro p; exact .refl p
  | succ budget ih =>
      intro p
      unfold fpPacketize
      split
      · have hone : SndGrows p (fpSendNext env p) :=
          ⟨List.prefix_append _ _, by simp [FillpPeer.ackedNum, fpSendNext, fpSendto]⟩
        exact hone.trans (ih _)
      · exact .refl p

theorem fpPump_grows (env : FpEnv) (fill : Option FpFill) (p : FillpPeer) :
    SndGrows p (fpPump env fill p) := by
  unfold fpPump
  exact ((((fpPumpFill_grows fill p).trans (fpPumpStall_grows env _)).trans
    (fpPacketize_grows env _ _)).trans (fpPumpTxComplete_sameSnd _).grows).trans
    ((fpMaybePack_sameSnd env _).trans (fpPumpReplyFin_sameSnd _)).grows

theorem fillpPeerSend_accepted {p : FillpPeer} (hp : p.state = .established) (data : Bytes) :
    (fillpPeerSend p data).accepted = p.accepted ++ data := by
  unfold fillpPeerSend
  split
  · rename_i hlen
    rw [List.length_eq_zero_iff.mp hlen, List.append_nil]
  · rw [if_neg (by simpa using hp)]

theorem foldl_fillpPeerSend_accepted (chunks : List Bytes) : ∀ {p : FillpPeer},
    p.state = .established →
    (chunks.foldl fillpPeerSend p).accepted = p.accepted ++ chunks.flatten := by
  induction chunks with
  | nil => intro p _; simp
  | cons c cs ih =>
      intro p hp
      rw [List.foldl_cons, ih ((fillpPeerSend_keepsOpen p c).state.trans hp),
        fillpPeerSend_accepted hp, List.flatten_cons, List.append_assoc]

theorem fpPumpFill_accepted {p : FillpPeer} (hp : p.state = .established)
    (fill : Option FpFill) :
    (fpPumpFill fill p).accepted = p.accepted ++ fpFillGiven fill p := by
  unfold fpPumpFill fpFillGiven
  cases fill with
  | none => simp
  | some f =>
      by_cases hw : fpWantsFill p = true
      · have hfold := foldl_fillpPeerSend_accepted f.chunks hp
        simp only [hw, if_true]
        split
        · exact hfold
        · exact hfold
      · simp [hw]

theorem fpPumpStall_accepted (env : FpEnv) (p : FillpPeer) :
    (fpPumpStall env p).accepted = p.accepted := by
  unfold fpPumpStall
  split
  · rfl
  · split <;> rfl

theorem fpPacketize_accepted (env : FpEnv) (budget : ℕ) : ∀ p : FillpPeer,
    (fpPacketize env budget p).accepted = p.accepted := by
  induction budget with
  | zero => intro p; rfl
  | succ budget ih =>
      intro p
      unfold fpPacketize
      split
      · exact ih _
      · rfl

/-- A pump of an established peer queues what the fill function hands over. -/
theorem fpPump_accepted {p : FillpPeer} (hp : p.state = .established) (env : FpEnv)
    (fill : Option FpFill) :
    (fpPump env fill p).accepted = p.accepted ++ fpFillGiven fill p := by
  unfold fpPump
  rw [(fpPumpReplyFin_sameSnd _).accepted, (fpMaybePack_sameSnd env _).accepted,
    (fpPumpTxComplete_sameSnd _).accepted, fpPacketize_accepted, fpPumpStall_accepted,
    fpPumpFill_accepted hp]

/-- A datagram neither numbers a packet nor queues a byte. -/
theorem fpDataPlane_grows (env : FpEnv) (p : FillpPeer) (buf : Bytes) :
    (fpDataPlane env p buf).numbered = p.numbered ∧
      (fpDataPlane env p buf).accepted = p.accepted := by
  unfold fpDataPlane
  split
  · split
    · exact ⟨(fpOnData_sameSnd env p buf).numbered, (fpOnData_sameSnd env p buf).accepted⟩
    · exact ⟨rfl, rfl⟩
  · split
    · unfold fpOnNack
      split <;> exact ⟨rfl, rfl⟩
    · exact ⟨rfl, rfl⟩
  · split
    · unfold fpOnPack
      split <;> exact ⟨rfl, rfl⟩
    · exact ⟨rfl, rfl⟩
  · split
    · exact ⟨(fpOnFin_sameSnd env p).numbered, (fpOnFin_sameSnd env p).accepted⟩
    · exact ⟨rfl, rfl⟩
  · exact ⟨rfl, rfl⟩

/-! ## Acknowledgement of a fresh PACK -/

/-- The PACK acknowledges `c` packets, `c` is within half the number space of
the newest packet, and no more than `r` packets have been delivered. -/
def FreshAck (r newest : ℕ) (d : Bytes) : Prop :=
  ∃ c ≤ r, (fillpDecodePack d).map FpPack.ackPkt = some (UInt32.ofNat c) ∧
    newest < c + 2 ^ 31

/-- The datagram carries a packet no further than half the number space behind
the `r` delivered ones. -/
def FreshData (r : ℕ) (pk : List Bytes) (d : Bytes) : Prop :=
  ∃ i q, IsPkt pk i q ∧ d = fpPktFrame q ∧ r ≤ i + 2 ^ 31

theorem dropWhile_eq_drop {α : Type*} (f : α → Bool) : ∀ (l : List α) (k : ℕ),
    (∀ j q, l[j]? = some q → f q = decide (j < k)) → l.dropWhile f = l.drop k
  | [], k, _ => by simp
  | q :: rest, 0, h => by
      have hq := h 0 q rfl
      simp [hq]
  | q :: rest, k + 1, h => by
      have hq := h 0 q rfl
      have hrest := dropWhile_eq_drop f rest k fun j x hx => by
        rw [h (j + 1) x (by simpa using hx)]
        simp
      simp [hq, hrest]

theorem SndInv.inflight_le_bytes {p : FillpPeer} (h : SndInv p) :
    p.inflight.length ≤ p.inflightBytes := by
  rw [h.bytes, ← List.length_map (f := FpPkt.len)]
  apply List.length_le_sum_of_one_le
  intro n hn
  obtain ⟨q, hq, rfl⟩ := List.mem_map.mp hn
  obtain ⟨j, hj⟩ := List.mem_iff_getElem?.mp hq
  have hpkt := h.pkts j q hj
  have hsize := h.sizes q.data (List.mem_of_getElem? hpkt.data)
  rw [hpkt.len]
  exact hsize.1

theorem SndInv.inflight_lt {p : FillpPeer} (h : SndInv p) : p.inflight.length < 2 ^ 20 := by
  have hle := h.inflight_le_bytes
  have hwin := h.window
  unfold fpSendCache fpPktDataMax at hwin
  omega

/-- **A fresh PACK** moves the acknowledged count up to its number. -/
theorem fpOnPack_acked {p : FillpPeer} (h : SndInv p) {c : ℕ} {d : Bytes}
    (hdec : (fillpDecodePack d).map FpPack.ackPkt = some (UInt32.ofNat c))
    (hfresh : p.numbered.length < c + 2 ^ 31) (hc : c ≤ p.numbered.length) :
    (fpOnPack p d).ackedNum = max p.ackedNum c := by
  obtain ⟨k, hk, hack⟩ := Option.map_eq_some_iff.mp hdec
  have hshort := h.inflight_lt
  have hle := h.le
  have hacked : p.ackedNum + p.inflight.length = p.numbered.length := by
    simp only [FillpPeer.ackedNum]
    omega
  have hdrop : (p.inflight.dropWhile fun q => !fpNumIsbigger q.pktNum k.ackPkt) =
      p.inflight.drop (c - p.ackedNum) := by
    apply dropWhile_eq_drop
    intro j q hj
    have hlt : j < p.inflight.length := (List.getElem?_eq_some_iff.mp hj).1
    have hbig : fpNumIsbigger q.pktNum k.ackPkt = decide (c < p.ackedNum + j + 1) := by
      rw [(h.pkts j q hj).num, hack]
      exact SerialNumber.ahead_ofNat (by omega) (by omega)
    rw [hbig, ← decide_not]
    congr 1
    exact propext (by omega)
  have hinflight : (fpOnPack p d).inflight = p.inflight.drop (c - p.ackedNum) := by
    simp only [fpOnPack, hk, fpAckLoop_eq, hdrop]
  have hnumbered : (fpOnPack p d).numbered = p.numbered := by simp only [fpOnPack, hk]
  rw [FillpPeer.ackedNum, hinflight, hnumbered, List.length_drop]
  omega

/-! ## The joint invariant -/

structure LinkInv (s : FpLink) : Prop where
  state : ∀ x, (s.peer x).state = .established
  pendingFin : ∀ x, (s.peer x).pendingFin = false
  noFin : ∀ x, ∀ d ∈ (s.peer x).sent, fpTypeOf d ≠ some .fin
  snd : ∀ x, SndInv (s.peer x)
  rcv : ∀ x, RcvInv (s.peer x).numbered (s.peer x.other)
  acked : ∀ x, (s.peer x).ackedNum ≤ (s.peer x.other).delivered.length
  given : ∀ x, (s.peer x).accepted = s.given x

/-- The numbers in use on one direction lie in a small window. -/
theorem LinkInv.window {s : FpLink} (h : LinkInv s) (x : Side) :
    (s.peer x).numbered.length < (s.peer x.other).delivered.length + 2 ^ 20 := by
  have hacked := h.acked x
  have hshort := (h.snd x).inflight_lt
  unfold FillpPeer.ackedNum at hacked
  omega

theorem LinkInv.init {s : FpLink} (h : s.Init) : LinkInv s := by
  have hf := h.fresh
  refine ⟨fun x => (hf x).state, fun x => (hf x).pendingFin, ?_, ?_, ?_, ?_, ?_⟩
  · intro x d hd
    rw [(hf x).sent] at hd
    cases hd
  · intro x
    refine ⟨?_, ?_, ?_, ?_, ?_, ?_, ?_, ?_⟩
    · rw [(hf x).sendPktNum, (hf x).numbered]; rfl
    · rw [(hf x).inflight]; exact Nat.zero_le _
    · intro j q hq
      rw [(hf x).inflight] at hq
      simp at hq
    · rw [(hf x).inflightBytes, (hf x).inflight]; rfl
    · rw [(hf x).inflightBytes]; decide
    · intro d hd
      rw [(hf x).numbered] at hd
      cases hd
    · rw [(hf x).numbered, (hf x).txq, (hf x).accepted]; rfl
    · intro d hd
      rw [(hf x).sent] at hd
      cases hd
  · intro x
    refine ⟨?_, ?_, ?_, ?_, ?_⟩
    · rw [(hf x.other).recvPktNum, (hf x.other).delivered]; rfl
    · rw [(hf x.other).delivered]; exact List.nil_prefix
    · intro k q hq
      rw [(hf x.other).ofo, AList.lookup_empty] at hq
      cases hq
    · intro k q hq
      rw [(hf x.other).ofo, AList.lookup_empty] at hq
      cases hq
    · intro d hd
      rw [(hf x.other).sent] at hd
      cases hd
  · intro x
    rw [FillpPeer.ackedNum, (hf x).numbered, List.length_nil, Nat.zero_sub]
    exact Nat.zero_le _
  · intro x
    rw [(hf x).accepted, h.given x]

/-- How one peer of a link may change: it stays open, keeps its own send
invariant, still receives the other's stream, and takes no packet out of
flight that the other has not delivered. -/
structure PeerStep (o p p' : FillpPeer) : Prop where
  open' : KeepsOpen p p'
  snd : SndInv p'
  numbered : p.numbered <+: p'.numbered
  rcv : RcvInv o.numbered p'
  delivered : p.delivered.length ≤ p'.delivered.length
  acked : p'.ackedNum ≤ o.delivered.length

/-- **Changing one peer.** The step lemma of every event that acts on a peer. -/
theorem LinkInv.setPeer {s : FpLink} (h : LinkInv s) {x : Side} {p' : FillpPeer}
    (hp : PeerStep (s.peer x.other) (s.peer x) p') (given : Side → Bytes)
    (hsame : given x.other = s.given x.other) (hgiven : p'.accepted = given x) :
    LinkInv { s.setPeer x p' with given := given } := by
  have hself : (s.setPeer x p').peer x = p' := Function.update_self ..
  have hoth : (s.setPeer x p').peer x.other = s.peer x.other :=
    Function.update_of_ne (Side.other_ne x) ..
  have hcases : ∀ P : Side → Prop, P x → P x.other → ∀ y, P y := by
    intro P hx hox y
    rcases Side.eq_or_eq_other x y with rfl | rfl
    · exact hx
    · exact hox
  refine ⟨hcases _ ?_ ?_, hcases _ ?_ ?_, hcases _ ?_ ?_, hcases _ ?_ ?_, hcases _ ?_ ?_,
    hcases _ ?_ ?_, hcases _ ?_ ?_⟩ <;>
    simp only [Side.other_other, hself, hoth]
  · rw [hp.open'.state]; exact h.state x
  · exact h.state _
  · rw [hp.open'.pendingFin]; exact h.pendingFin x
  · exact h.pendingFin _
  · obtain ⟨ds, hds, hno⟩ := hp.open'.sent
    intro d hd
    rw [hds, List.mem_append] at hd
    rcases hd with hd | hd
    · exact h.noFin x d hd
    · exact hno d hd
  · exact h.noFin _
  · exact hp.snd
  · exact h.snd _
  · exact (h.rcv x).mono hp.numbered
  · exact hp.rcv
  · exact hp.acked
  · have hacked := h.acked x.other
    rw [Side.other_other] at hacked
    exact Nat.le_trans hacked hp.delivered
  · exact hgiven
  · rw [hsame]; exact h.given _

theorem RcvGap.congr_ack {gap : ℕ} {pk : List Bytes} {p p' : FillpPeer} (h : RcvGap gap pk p)
    (env : FpEnv) (hs : SameRcv p p') : RcvGap gap pk (fpMaybePack env p') :=
  fpMaybePack_rcv (h.congr hs) env

/-- The receive side of a pump: only step 5 may touch it. -/
theorem fpPump_rcv {gap : ℕ} {pk : List Bytes} {p : FillpPeer} (h : RcvGap gap pk p)
    (env : FpEnv) (fill : Option FpFill) :
    RcvGap gap pk (fpPump env fill p) ∧ (fpPump env fill p).delivered = p.delivered := by
  have hpre : SameRcv p (fpPumpTxComplete <| fpPacketize env fpSendBudget <|
      fpPumpStall env <| fpPumpFill fill p) :=
    (((fpPumpFill_sameRcv fill p).trans (fpPumpStall_sameRcv env _)).trans
      (fpPacketize_sameRcv env _ _)).trans (fpPumpTxComplete_sameRcv _)
  unfold fpPump
  refine ⟨(h.congr_ack env hpre).congr (fpPumpReplyFin_sameRcv _), ?_⟩
  rw [(fpPumpReplyFin_sameRcv _).delivered, fpMaybePack_delivered, hpre.delivered]

theorem LinkInv.peerStep_send {s : FpLink} (h : LinkInv s) (x : Side) (chunk : Bytes) :
    PeerStep (s.peer x.other) (s.peer x) (fillpPeerSend (s.peer x) chunk) := by
  have hrcv := fillpPeerSend_sameRcv (s.peer x) chunk
  have hgrow := fillpPeerSend_grows (s.peer x) chunk
  have hin := h.rcv x.other
  rw [Side.other_other] at hin
  exact
    { open' := fillpPeerSend_keepsOpen _ _
      snd := fillpPeerSend_sndInv (h.snd x) chunk
      numbered := hgrow.numbered
      rcv := hin.congr hrcv
      delivered := by rw [hrcv.delivered]
      acked := by rw [hgrow.acked]; exact h.acked x }

theorem LinkInv.peerStep_pump {s : FpLink} (h : LinkInv s) (x : Side) (env : FpEnv)
    (fill : Option FpFill) :
    PeerStep (s.peer x.other) (s.peer x) (fpPump env fill (s.peer x)) := by
  have hgrow := fpPump_grows env fill (s.peer x)
  have hin := h.rcv x.other
  rw [Side.other_other] at hin
  obtain ⟨hrcv, hdel⟩ := fpPump_rcv hin env fill
  exact
    { open' := fpPump_keepsOpen env fill (h.pendingFin x)
      snd := fpPump_sndInv (h.snd x) env fill
      numbered := hgrow.numbered
      rcv := hrcv
      delivered := by rw [hdel]
      acked := by rw [hgrow.acked]; exact h.acked x }

/-- What delivery of `d` to side `x` needs of the 32-bit comparison. -/
def FreshFor (s : FpLink) (x : Side) (d : Bytes) : Prop :=
  (fpTypeOf d = some .data →
    FreshData (s.peer x).delivered.length (s.peer x.other).numbered d) ∧
  (fpTypeOf d = some .pack →
    FreshAck (s.peer x.other).delivered.length (s.peer x).numbered.length d)

theorem LinkInv.peerStep_deliver {s : FpLink} (h : LinkInv s) {x : Side} {d : Bytes}
    (hd : d ∈ (s.peer x.other).sent) (hfresh : FreshFor s x d) (env : FpEnv) :
    PeerStep (s.peer x.other) (s.peer x) (fpDataPlane env (s.peer x) d) := by
  have hopen := fpDataPlane_keepsOpen env (s.peer x) (h.noFin x.other d hd)
  have hsnd := fpDataPlane_sndInv (h.snd x) env d
  have hin := h.rcv x.other
  rw [Side.other_other] at hin
  have hacked := h.acked x
  have hstate := h.state x
  cases htype : fpTypeOf d with
  | none =>
      have heq : fpDataPlane env (s.peer x) d = s.peer x := by simp [fpDataPlane, htype]
      rw [heq] at hopen hsnd ⊢
      exact ⟨hopen, hsnd, List.prefix_refl _, hin, Nat.le_refl _, hacked⟩
  | some t =>
      by_cases hdata : t = .data
      · subst hdata
        obtain ⟨i, q, hq, rfl, hi⟩ := hfresh.1 htype
        have heq : fpDataPlane env (s.peer x) (fpPktFrame q) =
            fpOnData env (s.peer x) (fpPktFrame q) := by simp [fpDataPlane, hstate]
        have hsame := fpOnData_sameSnd env (s.peer x) (fpPktFrame q)
        have hsize := (h.snd x.other).sizes q.data (List.mem_of_getElem? hq.data)
        have hwin := h.window x.other
        rw [Side.other_other] at hwin
        obtain ⟨hrcv, hdel, -⟩ := fpOnData_rcv hin hq (hq.len ▸ hsize.2) (by omega) hi env
        rw [heq] at hopen hsnd ⊢
        exact ⟨hopen, hsnd, hsame.grows.numbered, hrcv, hdel, by rw [hsame.ackedNum]; exact hacked⟩
      by_cases hpack : t = .pack
      · subst hpack
        have heq : fpDataPlane env (s.peer x) d = fpOnPack (s.peer x) d := by
          simp [fpDataPlane, htype, hstate]
        have hle : (s.peer x.other).delivered.length ≤ (s.peer x).numbered.length := (h.rcv x).le
        obtain ⟨c, hc, hdec, hnew⟩ := hfresh.2 htype
        have hmax := fpOnPack_acked (h.snd x) hdec hnew (Nat.le_trans hc hle)
        have hrcv := fpOnPack_sameRcv (s.peer x) d
        rw [heq] at hopen hsnd ⊢
        refine ⟨hopen, hsnd, ?_, hin.congr hrcv, by rw [hrcv.delivered], by omega⟩
        unfold fpOnPack
        split <;> exact List.prefix_refl _
      by_cases hnack : t = .nack
      · subst hnack
        have heq : fpDataPlane env (s.peer x) d = fpOnNack env (s.peer x) d := by
          simp [fpDataPlane, htype, hstate]
        have hrcv := fpOnNack_sameRcv env (s.peer x) d
        have hgrow : SndGrows (s.peer x) (fpOnNack env (s.peer x) d) := by
          unfold fpOnNack
          split
          · exact .refl _
          · exact ⟨List.prefix_refl _, by simp [FillpPeer.ackedNum]⟩
        rw [heq] at hopen hsnd ⊢
        exact ⟨hopen, hsnd, hgrow.numbered, hin.congr hrcv, by rw [hrcv.delivered],
          by rw [hgrow.acked]; exact hacked⟩
      · have hfin : t ≠ .fin := fun he => h.noFin x.other d hd (he ▸ htype)
        have heq : fpDataPlane env (s.peer x) d = s.peer x := by
          unfold fpDataPlane
          rw [htype]
          cases t <;> first | rfl | contradiction
        rw [heq] at hopen hsnd ⊢
        exact ⟨hopen, hsnd, List.prefix_refl _, hin, Nat.le_refl _, hacked⟩

/-- With fewer than 2^31 packets numbered on either side, every datagram in the
network is fresh. -/
theorem LinkInv.freshFor {s : FpLink} (h : LinkInv s) {x : Side} {d : Bytes}
    (hd : d ∈ (s.peer x.other).sent) (hcount : ∀ y, (s.peer y).numbered.length < 2 ^ 31) :
    FreshFor s x d := by
  constructor
  · intro htype
    obtain ⟨i, q, hq, rfl⟩ := (h.snd x.other).frames d hd htype
    have hle : (s.peer x).delivered.length ≤ (s.peer x.other).numbered.length := by
      have := (h.rcv x.other).le
      rwa [Side.other_other] at this
    have hlt := hcount x.other
    exact ⟨i, q, hq, rfl, by omega⟩
  · intro htype
    obtain ⟨c, hc, hdec⟩ := (h.rcv x).packs d hd htype
    have hlt := hcount x
    exact ⟨c, hc, hdec, by omega⟩

/-! ## Runs -/

/-- The larger of the two packet counts. -/
def FpLink.numberedMax (s : FpLink) : ℕ :=
  max (s.peer .left).numbered.length (s.peer .right).numbered.length

theorem FpLink.numbered_le_max (s : FpLink) (x : Side) :
    (s.peer x).numbered.length ≤ s.numberedMax := by
  cases x
  · exact Nat.le_max_left _ _
  · exact Nat.le_max_right _ _

/-- **Step lemma.** An event of a link with the invariant leads to a link with
the invariant, if a delivered datagram is fresh. -/
theorem LinkInv.step {s s' : FpLink} {e : FpLinkEv} (h : LinkInv s) (hs : s.step e = some s')
    (hfresh : ∀ x d r₁ r₂, e = .deliver x d r₁ r₂ → FreshFor s x d) : LinkInv s' := by
  cases e with
  | advance dt =>
      cases hs
      exact ⟨h.state, h.pendingFin, h.noFin, h.snd, h.rcv, h.acked, h.given⟩
  | send x chunk =>
      cases hs
      refine h.setPeer (h.peerStep_send x chunk) _ (Function.update_of_ne (Side.other_ne x) ..) ?_
      rw [Function.update_self, fillpPeerSend_accepted (h.state x), h.given x]
  | pump x fill =>
      cases hs
      refine h.setPeer (h.peerStep_pump x _ fill) _ (Function.update_of_ne (Side.other_ne x) ..) ?_
      rw [Function.update_self, fpPump_accepted (h.state x), h.given x]
  | deliver x d r₁ r₂ =>
      unfold FpLink.step at hs
      simp only at hs
      split at hs
      · rename_i hd
        cases hs
        have hstep := h.peerStep_deliver hd (hfresh x d r₁ r₂ rfl) (s.env r₁ r₂)
        exact h.setPeer hstep s.given rfl
          ((fpDataPlane_grows (s.env r₁ r₂) (s.peer x) d).2.trans (h.given x))
      · cases hs

/-- Numbered packets stay numbered. -/
theorem FpLink.step_numbered {s s' : FpLink} {e : FpLinkEv} (hs : s.step e = some s')
    (y : Side) : (s.peer y).numbered <+: (s'.peer y).numbered := by
  have hset : ∀ (x : Side) (p' : FillpPeer), (s.peer x).numbered <+: p'.numbered →
      (s.peer y).numbered <+: ((s.setPeer x p').peer y).numbered := by
    intro x p' hp
    by_cases hxy : y = x
    · subst hxy
      simpa only [FpLink.setPeer, Function.update_self] using hp
    · simp only [FpLink.setPeer, Function.update_of_ne hxy]
      exact List.prefix_refl _
  cases e with
  | advance dt => cases hs; exact List.prefix_refl _
  | send x chunk => cases hs; exact hset x _ (fillpPeerSend_grows _ _).numbered
  | pump x fill => cases hs; exact hset x _ (fpPump_grows _ _ _).numbered
  | deliver x d r₁ r₂ =>
      unfold FpLink.step at hs
      simp only at hs
      split at hs
      · cases hs
        exact hset x _ ((fpDataPlane_grows _ _ _).1 ▸ List.prefix_refl _)
      · cases hs

theorem FpLink.step_numberedMax {s s' : FpLink} {e : FpLinkEv} (hs : s.step e = some s') :
    s.numberedMax ≤ s'.numberedMax :=
  max_le_max (FpLink.step_numbered hs .left).length_le (FpLink.step_numbered hs .right).length_le

/-- **Run lemma.** A run with fewer than 2^31 packets on each side keeps the
invariant. -/
theorem LinkInv.of_run {s t : FpLink} {es : List FpLinkEv} (h : LinkInv s)
    (hrun : run FpLink.step s es = some t) (hcount : t.numberedMax < 2 ^ 31) : LinkInv t := by
  refine run_inv_below LinkInv (fun _ _ _ hs => FpLink.step_numberedMax hs) ?_ h hrun hcount
  intro s e s' hinv hlt hs
  refine hinv.step hs ?_
  rintro x d r₁ r₂ rfl
  have hle := FpLink.step_numberedMax hs
  refine hinv.freshFor ?_ fun y => ?_
  · unfold FpLink.step at hs
    simp only at hs
    split at hs
    · assumption
    · cases hs
  · have := s.numbered_le_max y
    omega

/-- The receiver's number, as a count. -/
theorem LinkInv.recvPktNum_toNat {s : FpLink} (h : LinkInv s) (x : Side)
    (hcount : s.numberedMax < 2 ^ 31) :
    (s.peer x.other).recvPktNum.toNat = (s.peer x.other).delivered.length := by
  have hle := (h.rcv x).le
  have hmax := s.numbered_le_max x
  rw [(h.rcv x).num, UInt32.toNat_ofNat', Nat.mod_eq_of_lt (by omega)]

/-- **Reliable delivery.** What a side has passed to `on_data` is a prefix of
what the other side was given, and every packet numbered above the receiver's
`recvPktNum` is still inflight, in any run with fewer than 2^31 packets. -/
theorem FpLink.delivered_prefix_and_inflight {s t : FpLink} {es : List FpLinkEv} (hs : s.Init)
    (hrun : run FpLink.step s es = some t) (hcount : t.numberedMax < 2 ^ 31) (x : Side) :
    (t.peer x.other).delivered.flatten <+: t.given x ∧
      ∀ i, (t.peer x.other).recvPktNum.toNat < i → i ≤ (t.peer x).sendPktNum.toNat →
        ∃ q ∈ (t.peer x).inflight, q.pktNum.toNat = i := by
  have h := (LinkInv.init hs).of_run hrun hcount
  have hmax := t.numbered_le_max x
  constructor
  · have hpre : (t.peer x.other).delivered.flatten <+: (t.peer x).numbered.flatten := by
      obtain ⟨rest, hrest⟩ := (h.rcv x).pre
      exact ⟨rest.flatten, by rw [← List.flatten_append, hrest]⟩
    refine hpre.trans ?_
    rw [← h.given x, ← (h.snd x).stream]
    exact List.prefix_append _ _
  · intro i hlo hhi
    rw [h.recvPktNum_toNat x hcount] at hlo
    rw [(h.snd x).num, UInt32.toNat_ofNat', Nat.mod_eq_of_lt (by omega)] at hhi
    have hacked := h.acked x
    have hle := (h.snd x).le
    have hidx : i - 1 - (t.peer x).ackedNum < (t.peer x).inflight.length := by
      simp only [FillpPeer.ackedNum] at hacked ⊢
      omega
    refine ⟨(t.peer x).inflight[i - 1 - (t.peer x).ackedNum], List.getElem_mem hidx, ?_⟩
    have hpkt := (h.snd x).pkts _ _ (List.getElem?_eq_getElem hidx)
    have heq : (t.peer x).ackedNum + (i - 1 - (t.peer x).ackedNum) + 1 = i := by omega
    rw [hpkt.num, heq, UInt32.toNat_ofNat', Nat.mod_eq_of_lt (by omega)]

/-- Two peers that have just become established. -/
def fpLinkStart : FpLink where
  peer := fun x => fpPeerEstablished ⟨0, 0, 0, 0⟩ (fpPeerNew ⟨0, 0, 0, 0⟩ (decide (x = .left)))
  given := fun _ => []
  clock := 0

theorem fpLinkStart_init : fpLinkStart.Init :=
  ⟨fun _ => ⟨rfl, rfl, rfl, rfl, rfl, rfl, rfl, rfl, rfl, rfl, rfl, rfl, rfl, rfl, rfl, rfl⟩,
    fun _ => rfl⟩

/-- Two bytes cross in one DATA packet that arrives twice. -/
theorem FpLink.delivered_prefix_and_inflight_two_bytes :
    ∃ t, run FpLink.step fpLinkStart
        [.advance 10, .send .left [104, 105], .pump .left none,
          .deliver .right (fpPktFrame ⟨1, 2, 2, 10, [104, 105]⟩) 0 0,
          .deliver .right (fpPktFrame ⟨1, 2, 2, 10, [104, 105]⟩) 0 0] = some t ∧
      (t.peer .right).delivered = [[104, 105]] ∧
      (t.peer .right).delivered.flatten <+: t.given .left ∧
      ∀ i, (t.peer .right).recvPktNum.toNat < i → i ≤ (t.peer .left).sendPktNum.toNat →
        ∃ q ∈ (t.peer .left).inflight, q.pktNum.toNat = i := by
  obtain ⟨t, hrun, ht⟩ := Option.map_eq_some_iff.mp (show
    (run FpLink.step fpLinkStart
        [.advance 10, .send .left [104, 105], .pump .left none,
          .deliver .right (fpPktFrame ⟨1, 2, 2, 10, [104, 105]⟩) 0 0,
          .deliver .right (fpPktFrame ⟨1, 2, 2, 10, [104, 105]⟩) 0 0]).map
      (fun t => (t.numberedMax, (t.peer .right).delivered)) = some (1, [[104, 105]]) by
    decide +kernel)
  rw [Prod.mk.injEq] at ht
  exact ⟨t, hrun, ht.2, FpLink.delivered_prefix_and_inflight fpLinkStart_init hrun
    (by omega) .left⟩

end HwPhoneLink.Fillp
