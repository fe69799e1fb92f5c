import HwPhoneLink.Fillp.Sender

/-!
# The receiving side of a peer

`RcvInv pk p` says what the receive fields hold when the datagrams come from
the stream with payloads `pk`: the delivered runs are a prefix of `pk`, the
out-of-order table holds later packets of `pk` only, and every PACK ever sent
acknowledges delivered packets only. `RcvGap 0` is the state inside the flush
loop, where the next packet may already be in the table.
-/

namespace HwPhoneLink.Fillp

open BigEndian

/-- The datagram acknowledges the first `c` packets, for some `c ≤ r`. -/
def IsAck (r : ℕ) (d : Bytes) : Prop :=
  ∃ c ≤ r, (fillpDecodePack d).map FpPack.ackPkt = some (UInt32.ofNat c)

theorem IsAck.mono {r r' : ℕ} {d : Bytes} (hr : r ≤ r') (h : IsAck r d) : IsAck r' d := by
  obtain ⟨c, hc, hd⟩ := h
  exact ⟨c, Nat.le_trans hc hr, hd⟩

structure RcvGap (gap : ℕ) (pk : List Bytes) (p : FillpPeer) : Prop where
  num : p.recvPktNum = UInt32.ofNat p.delivered.length
  pre : p.delivered <+: pk
  key : ∀ k x, p.ofo.lookup k = some x → k = x.pktNum
  ofo : ∀ k x, p.ofo.lookup k = some x → ∃ i, p.delivered.length + gap ≤ i ∧ IsPkt pk i x
  packs : ∀ d ∈ p.sent, fpTypeOf d = some .pack → IsAck p.delivered.length d

abbrev RcvInv : List Bytes → FillpPeer → Prop := RcvGap 1

theorem RcvGap.le {gap : ℕ} {pk : List Bytes} {p : FillpPeer} (h : RcvGap gap pk p) :
    p.delivered.length ≤ pk.length := h.pre.length_le

/-- The sender may number more packets. -/
theorem RcvGap.mono {gap : ℕ} {pk pk' : List Bytes} {p : FillpPeer} (hpk : pk <+: pk')
    (h : RcvGap gap pk p) : RcvGap gap pk' p := by
  refine ⟨h.num, h.pre.trans hpk, h.key, ?_, h.packs⟩
  intro k x hx
  obtain ⟨i, hi, hq⟩ := h.ofo k x hx
  exact ⟨i, hi, hq.mono hpk⟩

/-- Nothing on the receive side changed, and neither PACK nor NACK was sent. -/
structure SameRcv (p p' : FillpPeer) : Prop where
  num : p'.recvPktNum = p.recvPktNum
  delivered : p'.delivered = p.delivered
  ofo : p'.ofo = p.ofo
  ofoBytes : p'.ofoBytes = p.ofoBytes
  unacked : p'.deliveredSincePack = p.deliveredSincePack
  opened : p'.wasEstablished = p.wasEstablished
  sent : ∃ ds, p'.sent = p.sent ++ ds ∧
    ∀ d ∈ ds, fpTypeOf d ≠ some .pack ∧ fpTypeOf d ≠ some .nack

theorem SameRcv.refl (p : FillpPeer) : SameRcv p p :=
  ⟨rfl, rfl, rfl, rfl, rfl, rfl, [], by simp, by simp⟩

theorem SameRcv.trans {p p' p'' : FillpPeer} (h : SameRcv p p') (h' : SameRcv p' p'') :
    SameRcv p p'' := by
  obtain ⟨ds, hds, hno⟩ := h.sent
  obtain ⟨ds', hds', hno'⟩ := h'.sent
  refine ⟨h'.num.trans h.num, h'.delivered.trans h.delivered, h'.ofo.trans h.ofo,
    h'.ofoBytes.trans h.ofoBytes, h'.unacked.trans h.unacked, h'.opened.trans h.opened,
    ds ++ ds', ?_, ?_⟩
  · rw [hds', hds, List.append_assoc]
  · intro d hd
    rcases List.mem_append.mp hd with hd | hd
    · exact hno d hd
    · exact hno' d hd

theorem RcvGap.congr {gap : ℕ} {pk : List Bytes} {p p' : FillpPeer} (h : RcvGap gap pk p)
    (hs : SameRcv p p') : RcvGap gap pk p' := by
  obtain ⟨ds, hds, hno⟩ := hs.sent
  refine ⟨?_, ?_, ?_, ?_, ?_⟩
  · rw [hs.num, hs.delivered]; exact h.num
  · rw [hs.delivered]; exact h.pre
  · rw [hs.ofo]; exact h.key
  · rw [hs.ofo, hs.delivered]; exact h.ofo
  · intro d hd htype
    rw [hs.delivered]
    rw [hds, List.mem_append] at hd
    rcases hd with hd | hd
    · exact h.packs d hd htype
    · exact absurd htype (hno d hd).1

/-! ## Operations that leave the receive side alone -/

theorem fillpPeerSend_sameRcv (p : FillpPeer) (data : Bytes) :
    SameRcv p (fillpPeerSend p data) := by
  unfold fillpPeerSend
  split
  · exact .refl p
  split
  · exact .refl p
  · exact ⟨rfl, rfl, rfl, rfl, rfl, rfl, [], by simp, by simp⟩

theorem foldl_fillpPeerSend_sameRcv (chunks : List Bytes) : ∀ p : FillpPeer,
    SameRcv p (chunks.foldl fillpPeerSend p) := by
  induction chunks with
  | nil => intro p; exact .refl p
  | cons c cs ih => intro p; exact (fillpPeerSend_sameRcv p c).trans (ih _)

theorem fpPumpFill_sameRcv (fill : Option FpFill) (p : FillpPeer) :
    SameRcv p (fpPumpFill fill p) := by
  unfold fpPumpFill
  split
  · exact .refl p
  split
  · have hfold := foldl_fillpPeerSend_sameRcv (by assumption : FpFill).chunks p
    simp only
    split
    · exact hfold.trans ⟨rfl, rfl, rfl, rfl, rfl, rfl, [], by simp, by simp⟩
    · exact hfold
  · exact .refl p

theorem fpPumpStall_sameRcv (env : FpEnv) (p : FillpPeer) : SameRcv p (fpPumpStall env p) := by
  unfold fpPumpStall
  split
  · exact .refl p
  split
  · exact ⟨rfl, rfl, rfl, rfl, rfl, rfl, _, rfl, by simp⟩
  · exact .refl p

theorem fpSendNext_sameRcv (env : FpEnv) (p : FillpPeer) : SameRcv p (fpSendNext env p) :=
  ⟨rfl, rfl, rfl, rfl, rfl, rfl, _, rfl, by simp⟩

theorem fpPacketize_sameRcv (env : FpEnv) (budget : ℕ) : ∀ p : FillpPeer,
    SameRcv p (fpPacketize env budget p) := by
  induction budget with
  | zero => intro p; exact .refl p
  | succ budget ih =>
      intro p
      unfold fpPacketize
      split
      · exact (fpSendNext_sameRcv env p).trans (ih _)
      · exact .refl p

theorem fpPumpTxComplete_sameRcv (p : FillpPeer) : SameRcv p (fpPumpTxComplete p) := by
  unfold fpPumpTxComplete
  split
  · exact ⟨rfl, rfl, rfl, rfl, rfl, rfl, [], by simp, by simp⟩
  · exact .refl p

theorem fpPumpReplyFin_sameRcv (p : FillpPeer) : SameRcv p (fpPumpReplyFin p) := by
  unfold fpPumpReplyFin
  split
  · exact ⟨rfl, rfl, rfl, rfl, rfl, rfl, _, rfl, by simp [fpTypeOf_fin]⟩
  · exact .refl p

theorem fpOnNack_sameRcv (env : FpEnv) (p : FillpPeer) (buf : Bytes) :
    SameRcv p (fpOnNack env p buf) := by
  unfold fpOnNack
  split
  · exact .refl p
  · refine ⟨rfl, rfl, rfl, rfl, rfl, rfl, _, rfl, ?_⟩
    intro d hd
    obtain ⟨q, _, rfl⟩ := List.mem_map.mp hd
    simp

theorem fpOnPack_sameRcv (p : FillpPeer) (buf : Bytes) : SameRcv p (fpOnPack p buf) := by
  unfold fpOnPack
  split
  · exact .refl p
  · exact ⟨rfl, rfl, rfl, rfl, rfl, rfl, [], by simp, by simp⟩

theorem fpOnFin_sameRcv (env : FpEnv) (p : FillpPeer) : SameRcv p (fpOnFin env p) := by
  unfold fpOnFin
  simp only
  split <;> exact ⟨rfl, rfl, rfl, rfl, rfl, rfl, [], by simp, by simp⟩

theorem fpPeerRequestClose_sameRcv (env : FpEnv) (p : FillpPeer) :
    SameRcv p (fpPeerRequestClose env p) := by
  unfold fpPeerRequestClose
  split
  · exact .refl p
  by_cases h : p.state = .established
  · simp only [if_pos h]
    exact ⟨rfl, rfl, rfl, rfl, rfl, rfl, _, rfl, by simp [fpTypeOf_fin]⟩
  · simp only [if_neg h]
    exact ⟨rfl, rfl, rfl, rfl, rfl, rfl, [], by simp, by simp⟩

/-- A NACK changes nothing on the receive side but its clock. -/
theorem fpMaybeNack_rcv {gap : ℕ} {pk : List Bytes} {p : FillpPeer} (h : RcvGap gap pk p)
    (env : FpEnv) : RcvGap gap pk (fpMaybeNack env p) := by
  unfold fpMaybeNack
  split
  · exact h
  · refine ⟨h.num, h.pre, h.key, h.ofo, ?_⟩
    intro d hd htype
    rcases List.mem_append.mp hd with hd | hd
    · exact h.packs d hd htype
    · rw [List.mem_singleton.mp hd, fpTypeOf_nack] at htype
      cases htype

/-! ## Acknowledging -/

theorem fpSendPack_rcv {gap : ℕ} {pk : List Bytes} {p : FillpPeer} (h : RcvGap gap pk p)
    (env : FpEnv) : RcvGap gap pk (fpSendPack env p) := by
  refine ⟨h.num, h.pre, h.key, h.ofo, ?_⟩
  intro d hd htype
  rcases List.mem_append.mp hd with hd | hd
  · exact h.packs d hd htype
  · rw [List.mem_singleton] at hd
    refine ⟨p.delivered.length, Nat.le_refl _, ?_⟩
    have henc : fillpEncodePack (fillpHlen + fillpPackLen) p.recvSeqNum p.recvPktNum p.recvSeqNum
        (UInt32.ofNat p.ofoBytes) = some d := by
      rw [hd]
      simp [fillpEncodePack]
    rw [fillpDecodePack_encode henc, Option.map_some, h.num]

theorem fpMaybePack_rcv {gap : ℕ} {pk : List Bytes} {p : FillpPeer} (h : RcvGap gap pk p)
    (env : FpEnv) : RcvGap gap pk (fpMaybePack env p) := by
  unfold fpMaybePack
  split
  · exact h
  split
  · exact h
  · exact fpSendPack_rcv h env

@[simp] theorem fpMaybePack_delivered (env : FpEnv) (p : FillpPeer) :
    (fpMaybePack env p).delivered = p.delivered := by
  unfold fpMaybePack
  split
  · rfl
  split <;> rfl

/-! ## Delivering in order -/

/-- The payload of the next packet goes on with the stream. -/
theorem IsPkt.append_delivered {pk delivered : List Bytes} {q : FpPkt} (hpre : delivered <+: pk)
    (hq : IsPkt pk delivered.length q) : delivered ++ [q.data] <+: pk := by
  have htake : delivered ++ [q.data] = pk.take (delivered.length + 1) := by
    rw [List.take_add_one, hq.data, ← List.prefix_iff_eq_take.mp hpre]
    rfl
  rw [htake]
  exact List.take_prefix _ _

/-- The next packet of the stream is delivered. -/
theorem fpAccept_rcv {pk : List Bytes} {p : FillpPeer} (h : RcvInv pk p) {q : FpPkt}
    (hq : IsPkt pk p.delivered.length q) :
    RcvGap 0 pk (fpAccept p q.pktNum q.seqNum q.data) := by
  have hlen : (fpAccept p q.pktNum q.seqNum q.data).delivered.length = p.delivered.length + 1 := by
    simp [fpAccept, fpDeliver]
  refine ⟨?_, ?_, h.key, ?_, ?_⟩
  · rw [hlen, ← hq.num]
    rfl
  · show p.delivered ++ [q.data] <+: pk
    exact hq.append_delivered h.pre
  · intro k x hx
    obtain ⟨i, hi, hix⟩ := h.ofo k x hx
    exact ⟨i, by rw [hlen]; omega, hix⟩
  · intro d hd htype
    exact (h.packs d hd htype).mono (by rw [hlen]; omega)

/-- One round of the flush loop keeps the invariant of the loop. -/
theorem fpFlushOne_rcv {pk : List Bytes} {p : FillpPeer} (h : RcvGap 0 pk p)
    (hwin : pk.length < p.delivered.length + 2 ^ 31) {next : FpPkt}
    (hnext : p.ofo.lookup (p.recvPktNum + 1) = some next) :
    RcvGap 0 pk (fpFlushOne p next) := by
  obtain ⟨i, hi, hq⟩ := h.ofo _ _ hnext
  have hnum : p.recvPktNum + 1 = UInt32.ofNat (p.delivered.length + 1) := by
    rw [SerialNumber.ofNat_succ, ← h.num]
  have hidx : i = p.delivered.length := by
    have heq : UInt32.ofNat (i + 1) = UInt32.ofNat (p.delivered.length + 1) := by
      rw [← hq.num, ← hnum]
      exact (h.key _ _ hnext).symm
    have hlt := hq.lt
    have := SerialNumber.ofNat_inj (by omega) (by omega) heq
    omega
  subst hidx
  have hlen : (fpFlushOne p next).delivered.length = p.delivered.length + 1 := by
    simp [fpFlushOne, fpDeliver]
  refine ⟨?_, ?_, ?_, ?_, ?_⟩
  · rw [hlen, ← hq.num]
    rfl
  · show p.delivered ++ [next.data] <+: pk
    exact hq.append_delivered h.pre
  · intro k x hx
    change (p.ofo.erase (p.recvPktNum + 1)).lookup k = some x at hx
    by_cases hk : k = p.recvPktNum + 1
    · rw [hk, AList.lookup_erase] at hx
      cases hx
    · rw [AList.lookup_erase_ne hk] at hx
      exact h.key k x hx
  · intro k x hx
    change (p.ofo.erase (p.recvPktNum + 1)).lookup k = some x at hx
    by_cases hk : k = p.recvPktNum + 1
    · rw [hk, AList.lookup_erase] at hx
      cases hx
    · rw [AList.lookup_erase_ne hk] at hx
      obtain ⟨j, hj, hqj⟩ := h.ofo k x hx
      refine ⟨j, ?_, hqj⟩
      -- only the erased key belongs to the packet just delivered
      have hne : j ≠ p.delivered.length := by
        intro heq
        apply hk
        rw [h.key k x hx, hqj.num, heq, hnum]
      rw [hlen]
      omega
  · intro d hd htype
    exact (h.packs d hd htype).mono (by rw [hlen]; omega)

theorem fpFlushOne_entries {p : FillpPeer} {next : FpPkt}
    (hnext : p.ofo.lookup (p.recvPktNum + 1) = some next) :
    (fpFlushOne p next).ofo.entries.length + 1 = p.ofo.entries.length := by
  have hmem : p.recvPktNum + 1 ∈ p.ofo.keys := by
    rw [← AList.mem_keys, ← AList.lookup_isSome, hnext]
    rfl
  have hkeys : (p.ofo.erase (p.recvPktNum + 1)).keys.length + 1 = p.ofo.keys.length := by
    rw [AList.keys_erase, List.length_erase_of_mem hmem]
    have := List.length_pos_of_mem hmem
    omega
  simpa [AList.keys, List.keys, fpFlushOne, fpDeliver] using hkeys

/-- The flush loop runs until the next packet is not in the table, and never
takes back a delivery. -/
theorem fpFlushOfo_rcv {pk : List Bytes} (n : ℕ) : ∀ {p : FillpPeer}, RcvGap 0 pk p →
    pk.length < p.delivered.length + 2 ^ 31 → p.ofo.entries.length ≤ n →
    RcvInv pk (fpFlushOfo n p) ∧
      p.delivered.length ≤ (fpFlushOfo n p).delivered.length := by
  induction n with
  | zero =>
      intro p h _ hn
      refine ⟨⟨h.num, h.pre, h.key, ?_, h.packs⟩, Nat.le_refl _⟩
      intro k x hx
      have hemp : p.ofo.entries = [] := List.length_eq_zero_iff.mp (Nat.le_zero.mp hn)
      rw [fpFlushOfo, AList.lookup, hemp, List.dlookup_nil] at hx
      cases hx
  | succ n ih =>
      intro p h hwin hn
      unfold fpFlushOfo
      split
      · rename_i hnone
        refine ⟨⟨h.num, h.pre, h.key, ?_, h.packs⟩, Nat.le_refl _⟩
        intro k x hx
        obtain ⟨i, hi, hq⟩ := h.ofo k x hx
        refine ⟨i, ?_, hq⟩
        have hne : i ≠ p.delivered.length := by
          intro heq
          have hk : k = p.recvPktNum + 1 := by
            rw [h.key k x hx, hq.num, heq, SerialNumber.ofNat_succ, ← h.num]
          rw [hk, hnone] at hx
          cases hx
        omega
      · rename_i next hnext
        have hlen : (fpFlushOne p next).delivered.length = p.delivered.length + 1 := by
          simp [fpFlushOne, fpDeliver]
        have hone := fpFlushOne_rcv h hwin hnext
        have hent := fpFlushOne_entries hnext
        obtain ⟨hinv, hle⟩ := ih hone (by rw [hlen]; omega) (by omega)
        exact ⟨hinv, by omega⟩

/-! ## The three cases of a DATA packet -/

/-- A datagram that carries a packet is read back as that packet. -/
theorem fpDataOf_pktFrame {q : FpPkt} (hlen : q.len = q.data.length)
    (hmax : q.len ≤ fpPktDataMax) :
    fpDataOf (fpPktFrame q) =
      some (⟨1, 0, UInt16.ofNat q.len, q.pktNum, q.seqNum⟩, q.data) := by
  have hnat : (UInt16.ofNat q.len).toNat = q.len := by
    rw [UInt16.toNat_ofNat', Nat.mod_eq_of_lt]
    unfold fpPktDataMax at hmax
    omega
  have hdec : fillpDecodeHead (fpPktFrame q) =
      some ⟨1, 0, UInt16.ofNat q.len, q.pktNum, q.seqNum⟩ := by
    rw [fpPktFrame, fillpDecodeHead_encode]
    rfl
  have hfield : field q.len fillpHlen (fpPktFrame q) = q.data := by
    have hhead : (fillpEncodeHead FpPktType.data.code 0 (UInt16.ofNat q.len) q.pktNum
        q.seqNum).length = fillpHlen := by simp
    simpa [fpPktFrame] using field_append _ q.data [] hhead hlen.symm
  have hframe : ¬ (fpPktFrame q).length < fillpHlen + q.len := by
    simp [fpPktFrame, hlen]
  simp only [fpDataOf, hdec, hnat, hfield, if_neg hframe, if_neg (Nat.not_lt.mpr hmax)]

/-- **What a DATA packet does.** With the packet number within half the number
space of the receiver, packet `i` is a duplicate, the next packet or a packet
behind a gap exactly as `i` compares to the number of delivered packets. -/
theorem fpOnPkt_cases {pk : List Bytes} {p : FillpPeer} (h : RcvInv pk p) {i : ℕ} {q : FpPkt}
    (hq : IsPkt pk i q) (hwin : pk.length < p.delivered.length + 2 ^ 31)
    (hfresh : p.delivered.length ≤ i + 2 ^ 31) (env : FpEnv) (hd : FpHead)
    (hnum : hd.pktNum = q.pktNum) (payload : Bytes) :
    (i < p.delivered.length ∧ fpOnPkt env p hd payload =
      if env.now - p.tLastPackMs ≥ fpNackIntervalMs then fpSendPack env p else p) ∨
    (i = p.delivered.length ∧ fpOnPkt env p hd payload =
      fpMaybePack env (fpFlushOfo p.ofo.entries.length
        (fpAccept p hd.pktNum hd.seqNum payload))) ∨
    (p.delivered.length < i ∧ fpOnPkt env p hd payload = fpBuffer env p hd payload) := by
  have hlt := hq.lt
  have hbig : fpNumIsbigger hd.pktNum p.recvPktNum = decide (p.delivered.length < i + 1) := by
    rw [hnum, hq.num, h.num]
    exact SerialNumber.ahead_ofNat (by omega) (by omega)
  have hnext : hd.pktNum = p.recvPktNum + 1 ↔ i = p.delivered.length := by
    rw [hnum, hq.num, h.num, ← SerialNumber.ofNat_succ]
    constructor
    · intro heq
      have := SerialNumber.ofNat_inj (by omega) (by omega) heq
      omega
    · rintro rfl
      rfl
  rcases Nat.lt_trichotomy i p.delivered.length with hi | hi | hi
  · refine Or.inl ⟨hi, ?_⟩
    have hnot : ¬ p.delivered.length < i + 1 := by omega
    rw [fpOnPkt, hbig, decide_eq_false hnot]
    rfl
  · refine Or.inr (Or.inl ⟨hi, ?_⟩)
    have hyes : p.delivered.length < i + 1 := by omega
    rw [fpOnPkt, hbig, decide_eq_true hyes]
    simp only [Bool.not_true, Bool.false_eq_true, if_false]
    rw [if_pos (hnext.mpr hi)]
    rfl
  · refine Or.inr (Or.inr ⟨hi, ?_⟩)
    have hyes : p.delivered.length < i + 1 := by omega
    have hno : ¬ hd.pktNum = p.recvPktNum + 1 := fun he => by have := hnext.mp he; omega
    rw [fpOnPkt, hbig, decide_eq_true hyes]
    simp only [Bool.not_true, Bool.false_eq_true, if_false]
    rw [if_neg hno]

/-- A packet behind a gap enters the table or is dropped at the cap. -/
theorem fpBuffer_rcv {pk : List Bytes} {p : FillpPeer} (h : RcvInv pk p) {i : ℕ} {q : FpPkt}
    (hq : IsPkt pk i q) (hi : p.delivered.length < i) (env : FpEnv) {hd : FpHead}
    (hnum : hd.pktNum = q.pktNum) (hdl : hd.dataLen.toNat = q.len) :
    RcvInv pk (fpBuffer env p hd q.data) := by
  unfold fpBuffer
  refine fpMaybeNack_rcv ?_ env
  split
  · refine ⟨h.num, h.pre, ?_, ?_, h.packs⟩
    · intro k x hx
      by_cases hk : k = hd.pktNum
      · subst hk
        rw [AList.lookup_insert] at hx
        cases hx
        rfl
      · rw [AList.lookup_insert_ne hk] at hx
        exact h.key k x hx
    · intro k x hx
      by_cases hk : k = hd.pktNum
      · subst hk
        rw [AList.lookup_insert] at hx
        cases hx
        exact ⟨i, hi, hq.data, hnum.trans hq.num, hdl.trans hq.len⟩
      · rw [AList.lookup_insert_ne hk] at hx
        exact h.ofo k x hx
  · exact h

@[simp] theorem fpBuffer_delivered (env : FpEnv) (p : FillpPeer) (hd : FpHead) (payload : Bytes) :
    (fpBuffer env p hd payload).delivered = p.delivered := by
  unfold fpBuffer fpMaybeNack
  split <;> split <;> rfl

/-- **DATA keeps the receive invariant**, and delivers the packet if it is the
next one. -/
theorem fpOnData_rcv {pk : List Bytes} {p : FillpPeer} (h : RcvInv pk p) {i : ℕ} {q : FpPkt}
    (hq : IsPkt pk i q) (hsize : q.len ≤ fpPktDataMax)
    (hwin : pk.length < p.delivered.length + 2 ^ 31)
    (hfresh : p.delivered.length ≤ i + 2 ^ 31) (env : FpEnv) :
    RcvInv pk (fpOnData env p (fpPktFrame q)) ∧
      p.delivered.length ≤ (fpOnData env p (fpPktFrame q)).delivered.length ∧
      (i ≤ p.delivered.length → i < (fpOnData env p (fpPktFrame q)).delivered.length) := by
  have hnat : (UInt16.ofNat q.len).toNat = q.len := by
    rw [UInt16.toNat_ofNat', Nat.mod_eq_of_lt]
    unfold fpPktDataMax at hsize
    omega
  rw [fpOnData, fpDataOf_pktFrame hq.len hsize]
  simp only
  rcases fpOnPkt_cases h hq hwin hfresh env ⟨1, 0, UInt16.ofNat q.len, q.pktNum, q.seqNum⟩
    rfl q.data with ⟨hi, heq⟩ | ⟨hi, heq⟩ | ⟨hi, heq⟩
  · rw [heq]
    split
    · exact ⟨fpSendPack_rcv h env, Nat.le_refl _, fun _ => hi⟩
    · exact ⟨h, Nat.le_refl _, fun _ => hi⟩
  · rw [heq]
    subst hi
    have hacc := fpAccept_rcv h hq
    have hlen : (fpAccept p q.pktNum q.seqNum q.data).delivered.length =
        p.delivered.length + 1 := by simp [fpAccept, fpDeliver]
    obtain ⟨hinv, hle⟩ := fpFlushOfo_rcv p.ofo.entries.length hacc (by rw [hlen]; omega)
      (Nat.le_refl _)
    simp only at hinv hle ⊢
    rw [fpMaybePack_delivered]
    exact ⟨fpMaybePack_rcv hinv env, by omega, fun _ => by omega⟩
  · rw [heq]
    rw [fpBuffer_delivered]
    exact ⟨fpBuffer_rcv h hq hi env rfl hnat, Nat.le_refl _, fun hle => by omega⟩

end HwPhoneLink.Fillp
