import HwPhoneLink.Fillp.Peer

/-!
# The sending side of a peer

`SndInv` says what the send fields of a peer hold: the inflight list is the
tail of the numbered packets, every DATA datagram ever sent carries one of
them, and packets and queue together spell the accepted bytes. Every operation
of a peer keeps it, whatever datagrams arrive; operations of the receiving side
do so because they do not touch the send fields (`SameSnd`).
-/

namespace HwPhoneLink.Fillp

open BigEndian

/-! ## Numbered packets -/

/-- `q` is packet number `i + 1` of the stream with payloads `pk`. -/
structure IsPkt (pk : List Bytes) (i : ℕ) (q : FpPkt) : Prop where
  data : pk[i]? = some q.data
  num : q.pktNum = UInt32.ofNat (i + 1)
  len : q.len = q.data.length

theorem IsPkt.lt {pk : List Bytes} {i : ℕ} {q : FpPkt} (h : IsPkt pk i q) : i < pk.length :=
  (List.getElem?_eq_some_iff.mp h.data).1

theorem IsPkt.mono {pk pk' : List Bytes} {i : ℕ} {q : FpPkt} (hpk : pk <+: pk')
    (h : IsPkt pk i q) : IsPkt pk' i q := by
  obtain ⟨rest, rfl⟩ := hpk
  refine ⟨?_, h.num, h.len⟩
  rw [List.getElem?_append_left h.lt]
  exact h.data

theorem IsPkt.retime {pk : List Bytes} {i : ℕ} {q : FpPkt} (t : ℕ) (h : IsPkt pk i q) :
    IsPkt pk i { q with tSentMs := t } := ⟨h.data, h.num, h.len⟩

/-- The datagram carries some packet of the stream. -/
def IsDataFrame (pk : List Bytes) (d : Bytes) : Prop := ∃ i q, IsPkt pk i q ∧ d = fpPktFrame q

theorem IsDataFrame.mono {pk pk' : List Bytes} {d : Bytes} (hpk : pk <+: pk')
    (h : IsDataFrame pk d) : IsDataFrame pk' d := by
  obtain ⟨i, q, hq, rfl⟩ := h
  exact ⟨i, q, hq.mono hpk, rfl⟩

@[simp] theorem fpTypeOf_pktFrame (q : FpPkt) : fpTypeOf (fpPktFrame q) = some .data := by
  simp [fpPktFrame]

/-! ## The invariant -/

/-- How many packets have left the inflight list. -/
def FillpPeer.ackedNum (p : FillpPeer) : ℕ := p.numbered.length - p.inflight.length

structure SndInv (p : FillpPeer) : Prop where
  num : p.sendPktNum = UInt32.ofNat p.numbered.length
  le : p.inflight.length ≤ p.numbered.length
  pkts : ∀ j q, p.inflight[j]? = some q → IsPkt p.numbered (p.ackedNum + j) q
  bytes : p.inflightBytes = (p.inflight.map FpPkt.len).sum
  window : p.inflightBytes < fpSendCache + fpPktDataMax
  sizes : ∀ d ∈ p.numbered, 0 < d.length ∧ d.length ≤ fpPktDataMax
  stream : p.numbered.flatten ++ p.txq = p.accepted
  frames : ∀ d ∈ p.sent, fpTypeOf d = some .data → IsDataFrame p.numbered d

/-- Nothing on the send side changed, and no DATA datagram was sent. -/
structure SameSnd (p p' : FillpPeer) : Prop where
  num : p'.sendPktNum = p.sendPktNum
  numbered : p'.numbered = p.numbered
  inflight : p'.inflight = p.inflight
  bytes : p'.inflightBytes = p.inflightBytes
  txq : p'.txq = p.txq
  accepted : p'.accepted = p.accepted
  fillDone : p'.fillDone = p.fillDone
  sent : ∃ ds, p'.sent = p.sent ++ ds ∧ ∀ d ∈ ds, fpTypeOf d ≠ some .data

theorem SameSnd.refl (p : FillpPeer) : SameSnd p p :=
  ⟨rfl, rfl, rfl, rfl, rfl, rfl, rfl, [], by simp, by simp⟩

theorem SameSnd.trans {p p' p'' : FillpPeer} (h : SameSnd p p') (h' : SameSnd p' p'') :
    SameSnd p p'' := by
  obtain ⟨ds, hds, hno⟩ := h.sent
  obtain ⟨ds', hds', hno'⟩ := h'.sent
  refine ⟨h'.num.trans h.num, h'.numbered.trans h.numbered, h'.inflight.trans h.inflight,
    h'.bytes.trans h.bytes, h'.txq.trans h.txq, h'.accepted.trans h.accepted,
    h'.fillDone.trans h.fillDone, ds ++ ds', ?_, ?_⟩
  · rw [hds', hds, List.append_assoc]
  · intro d hd
    rcases List.mem_append.mp hd with hd | hd
    · exact hno d hd
    · exact hno' d hd

theorem SameSnd.ackedNum {p p' : FillpPeer} (h : SameSnd p p') : p'.ackedNum = p.ackedNum := by
  rw [FillpPeer.ackedNum, h.numbered, h.inflight, FillpPeer.ackedNum]

theorem SndInv.congr {p p' : FillpPeer} (h : SndInv p) (hs : SameSnd p p') : SndInv p' := by
  obtain ⟨ds, hds, hno⟩ := hs.sent
  refine ⟨?_, ?_, ?_, ?_, ?_, ?_, ?_, ?_⟩
  · rw [hs.num, hs.numbered]; exact h.num
  · rw [hs.inflight, hs.numbered]; exact h.le
  · rw [hs.inflight, hs.numbered, hs.ackedNum]; exact h.pkts
  · rw [hs.bytes, hs.inflight]; exact h.bytes
  · rw [hs.bytes]; exact h.window
  · rw [hs.numbered]; exact h.sizes
  · rw [hs.numbered, hs.txq, hs.accepted]; exact h.stream
  · intro d hd htype
    rw [hs.numbered]
    rw [hds, List.mem_append] at hd
    rcases hd with hd | hd
    · exact h.frames d hd htype
    · exact absurd htype (hno d hd)

/-! ## Operations that leave the send side alone -/

/-- The datagram of a PACK. -/
theorem fpTypeOf_pack (a b c d : UInt32) :
    fpTypeOf ((fillpEncodePack (fillpHlen + fillpPackLen) a b c d).getD []) = some .pack := by
  simp [fillpEncodePack]

theorem fpTypeOf_nack (a b c : UInt32) (r : UInt64) :
    fpTypeOf ((fillpEncodeNack (fillpHlen + fillpNackLen) .nack a b c r).getD []) =
      some .nack := by
  simp [fillpEncodeNack]

theorem fpTypeOf_fin :
    fpTypeOf ((fillpEncodeFin (fillpHlen + fillpFinLen) 0).getD []) = some .fin := by
  simp [fillpEncodeFin]

theorem fpSendPack_sameSnd (env : FpEnv) (p : FillpPeer) : SameSnd p (fpSendPack env p) :=
  ⟨rfl, rfl, rfl, rfl, rfl, rfl, rfl, _, rfl, by simp [fpTypeOf_pack]⟩

theorem fpMaybePack_sameSnd (env : FpEnv) (p : FillpPeer) : SameSnd p (fpMaybePack env p) := by
  unfold fpMaybePack
  split
  · exact .refl p
  split
  · exact .refl p
  · exact fpSendPack_sameSnd env p

theorem fpMaybeNack_sameSnd (env : FpEnv) (p : FillpPeer) : SameSnd p (fpMaybeNack env p) := by
  unfold fpMaybeNack
  split
  · exact .refl p
  · exact ⟨rfl, rfl, rfl, rfl, rfl, rfl, rfl, _, rfl, by simp [fpTypeOf_nack]⟩

theorem fpAccept_sameSnd (p : FillpPeer) (n s : UInt32) (data : Bytes) :
    SameSnd p (fpAccept p n s data) :=
  ⟨rfl, rfl, rfl, rfl, rfl, rfl, rfl, [], by simp [fpAccept, fpDeliver], by simp⟩

theorem fpFlushOne_sameSnd (p : FillpPeer) (next : FpPkt) : SameSnd p (fpFlushOne p next) :=
  ⟨rfl, rfl, rfl, rfl, rfl, rfl, rfl, [], by simp [fpFlushOne, fpDeliver], by simp⟩

theorem fpFlushOfo_sameSnd (n : ℕ) : ∀ p : FillpPeer, SameSnd p (fpFlushOfo n p) := by
  induction n with
  | zero => intro p; exact .refl p
  | succ n ih =>
      intro p
      unfold fpFlushOfo
      split
      · exact .refl p
      · exact (fpFlushOne_sameSnd p _).trans (ih _)

theorem fpBuffer_sameSnd (env : FpEnv) (p : FillpPeer) (h : FpHead) (payload : Bytes) :
    SameSnd p (fpBuffer env p h payload) := by
  unfold fpBuffer
  refine SameSnd.trans ?_ (fpMaybeNack_sameSnd env _)
  split
  · exact ⟨rfl, rfl, rfl, rfl, rfl, rfl, rfl, [], by simp, by simp⟩
  · exact .refl p

theorem fpOnPkt_sameSnd (env : FpEnv) (p : FillpPeer) (h : FpHead) (payload : Bytes) :
    SameSnd p (fpOnPkt env p h payload) := by
  unfold fpOnPkt
  split
  · split
    · exact fpSendPack_sameSnd env p
    · exact .refl p
  split
  · exact ((fpAccept_sameSnd p _ _ _).trans (fpFlushOfo_sameSnd _ _)).trans
      (fpMaybePack_sameSnd env _)
  · exact fpBuffer_sameSnd env p h payload

theorem fpOnData_sameSnd (env : FpEnv) (p : FillpPeer) (buf : Bytes) :
    SameSnd p (fpOnData env p buf) := by
  unfold fpOnData
  split
  · exact .refl p
  · exact fpOnPkt_sameSnd env p _ _

theorem fpPumpTxComplete_sameSnd (p : FillpPeer) : SameSnd p (fpPumpTxComplete p) := by
  unfold fpPumpTxComplete
  split
  · exact ⟨rfl, rfl, rfl, rfl, rfl, rfl, rfl, [], by simp, by simp⟩
  · exact .refl p

theorem fpPumpReplyFin_sameSnd (p : FillpPeer) : SameSnd p (fpPumpReplyFin p) := by
  unfold fpPumpReplyFin
  split
  · exact ⟨rfl, rfl, rfl, rfl, rfl, rfl, rfl, _, rfl, by simp [fpTypeOf_fin]⟩
  · exact .refl p

theorem fpPeerRequestClose_sameSnd (env : FpEnv) (p : FillpPeer) :
    SameSnd p (fpPeerRequestClose env p) := by
  unfold fpPeerRequestClose
  split
  · exact .refl p
  by_cases h : p.state = .established
  · simp only [if_pos h]
    exact ⟨rfl, rfl, rfl, rfl, rfl, rfl, rfl, _, rfl, by simp [fpTypeOf_fin]⟩
  · simp only [if_neg h]
    exact ⟨rfl, rfl, rfl, rfl, rfl, rfl, rfl, [], by simp, by simp⟩

theorem fpOnFin_sameSnd (env : FpEnv) (p : FillpPeer) : SameSnd p (fpOnFin env p) := by
  unfold fpOnFin
  simp only
  split <;> exact ⟨rfl, rfl, rfl, rfl, rfl, rfl, rfl, [], by simp, by simp⟩

/-! ## Queueing -/

theorem fillpPeerSend_sndInv {p : FillpPeer} (h : SndInv p) (data : Bytes) :
    SndInv (fillpPeerSend p data) := by
  unfold fillpPeerSend
  split
  · exact h
  split
  · exact h
  · exact ⟨h.num, h.le, h.pkts, h.bytes, h.window, h.sizes,
      by simp [← h.stream, List.append_assoc], h.frames⟩

theorem foldl_fillpPeerSend_sndInv (chunks : List Bytes) : ∀ {p : FillpPeer}, SndInv p →
    SndInv (chunks.foldl fillpPeerSend p) := by
  induction chunks with
  | nil => intro p h; exact h
  | cons c cs ih => intro p h; exact ih (fillpPeerSend_sndInv h c)

theorem SndInv.setFillDone {p : FillpPeer} (h : SndInv p) : SndInv { p with fillDone := true } :=
  ⟨h.num, h.le, h.pkts, h.bytes, h.window, h.sizes, h.stream, h.frames⟩

theorem fpPumpFill_sndInv {p : FillpPeer} (h : SndInv p) (fill : Option FpFill) :
    SndInv (fpPumpFill fill p) := by
  unfold fpPumpFill
  split
  · exact h
  split
  · have hfold := foldl_fillpPeerSend_sndInv (p := p) (by assumption : FpFill).chunks h
    simp only
    split
    · exact hfold.setFillDone
    · exact hfold
  · exact h

/-! ## Retransmission -/

/-- Resending inflight packets and stamping them keeps the invariant. -/
theorem SndInv.resend {p : FillpPeer} (h : SndInv p) (stamp : FpPkt → ℕ) {ds : List Bytes}
    (hds : ∀ d ∈ ds, ∃ q ∈ p.inflight, d = fpPktFrame q) :
    SndInv { p with inflight := p.inflight.map fun q => { q with tSentMs := stamp q }
                    sent := p.sent ++ ds } := by
  refine ⟨h.num, by simpa using h.le, ?_, ?_, h.window, h.sizes, h.stream, ?_⟩
  · intro j q hq
    rw [List.getElem?_map, Option.map_eq_some_iff] at hq
    obtain ⟨q₀, hq₀, rfl⟩ := hq
    have hacked : FillpPeer.ackedNum { p with
        inflight := p.inflight.map fun q => { q with tSentMs := stamp q }
        sent := p.sent ++ ds } = p.ackedNum := by simp [FillpPeer.ackedNum]
    rw [hacked]
    exact (h.pkts j q₀ hq₀).retime (stamp q₀)
  · simpa [Function.comp_def] using h.bytes
  · intro d hd htype
    rcases List.mem_append.mp hd with hd | hd
    · exact h.frames d hd htype
    · obtain ⟨q, hq, rfl⟩ := hds d hd
      obtain ⟨j, hj⟩ := List.mem_iff_getElem?.mp hq
      exact ⟨_, q, h.pkts j q hj, rfl⟩

theorem fpOnNack_sndInv {p : FillpPeer} (h : SndInv p) (env : FpEnv) (buf : Bytes) :
    SndInv (fpOnNack env p buf) := by
  unfold fpOnNack
  split
  · exact h
  · rename_i n _
    have hhits : ∀ d ∈ (p.inflight.filter (fpNackHits n)).map fpPktFrame,
        ∃ q ∈ p.inflight, d = fpPktFrame q := by
      intro d hd
      obtain ⟨q, hq, rfl⟩ := List.mem_map.mp hd
      exact ⟨q, List.mem_of_mem_filter hq, rfl⟩
    have hres := h.resend (fun q => if fpNackHits n q then env.now else q.tSentMs) hhits
    have hmap : (fun q : FpPkt => if fpNackHits n q then { q with tSentMs := env.now } else q) =
        fun q => { q with tSentMs := if fpNackHits n q then env.now else q.tSentMs } := by
      funext q
      split <;> rfl
    rw [hmap]
    exact hres

theorem fpPumpStall_sndInv {p : FillpPeer} (h : SndInv p) (env : FpEnv) :
    SndInv (fpPumpStall env p) := by
  unfold fpPumpStall
  split
  · exact h
  · rename_i oldest rest hin
    split
    · refine ⟨h.num, ?_, ?_, ?_, h.window, h.sizes, h.stream, ?_⟩
      · simpa [fpSendto, hin] using h.le
      · intro j q hq
        have hacked : FillpPeer.ackedNum (fpSendto { p with
            inflight := { oldest with tSentMs := env.now } :: rest } (fpPktFrame oldest)) =
            p.ackedNum := by simp [FillpPeer.ackedNum, fpSendto, hin]
        rw [hacked]
        cases j with
        | zero =>
            have hq' : q = { oldest with tSentMs := env.now } := by
              simpa [fpSendto] using hq.symm
            rw [hq']
            exact (h.pkts 0 oldest (by simp [hin])).retime env.now
        | succ j =>
            have hq' : rest[j]? = some q := by simpa [fpSendto] using hq
            exact h.pkts (j + 1) q (by simpa [hin] using hq')
      · have hb := h.bytes
        rw [hin] at hb
        simpa [fpSendto] using hb
      · intro d hd htype
        rcases List.mem_append.mp hd with hd | hd
        · exact h.frames d hd htype
        · rw [List.mem_singleton] at hd
          exact ⟨_, oldest, h.pkts 0 oldest (by simp [hin]), hd⟩
    · exact h

/-! ## New packets -/

theorem fpNextPkt_len (env : FpEnv) (p : FillpPeer) :
    (fpNextPkt env p).len = (fpNextPkt env p).data.length := by
  simp [fpNextPkt]

theorem fpNextPkt_size (env : FpEnv) {p : FillpPeer} (hq : 0 < p.txq.length) :
    0 < (fpNextPkt env p).len ∧ (fpNextPkt env p).len ≤ fpPktDataMax := by
  simp only [fpNextPkt, fpPktDataMax]
  omega

/-- The next packet takes the next number. -/
theorem fpNextPkt_isPkt {p : FillpPeer} (h : SndInv p) (env : FpEnv) :
    IsPkt (fpSendNext env p).numbered p.numbered.length (fpNextPkt env p) := by
  refine ⟨by simp [fpSendNext, fpSendto], ?_, fpNextPkt_len env p⟩
  rw [SerialNumber.ofNat_succ, ← h.num]
  rfl

theorem fpSendNext_sndInv {p : FillpPeer} (h : SndInv p) (env : FpEnv) (hq : 0 < p.txq.length)
    (hw : p.inflightBytes < fpSendCache) : SndInv (fpSendNext env p) := by
  obtain ⟨hpos, hmax⟩ := fpNextPkt_size env hq
  have hlen := fpNextPkt_len env p
  have hnew := fpNextPkt_isPkt h env
  have hmono : p.numbered <+: (fpSendNext env p).numbered := List.prefix_append _ _
  have hacked : (fpSendNext env p).ackedNum = p.ackedNum := by
    simp [FillpPeer.ackedNum, fpSendNext, fpSendto]
  have hle := h.le
  refine ⟨?_, ?_, ?_, ?_, ?_, ?_, ?_, ?_⟩
  · have hcount : (fpSendNext env p).numbered.length = p.numbered.length + 1 := by
      simp [fpSendNext, fpSendto]
    rw [hcount, SerialNumber.ofNat_succ, ← h.num]
    rfl
  · simp [fpSendNext, fpSendto, hle]
  · intro j q hj
    rw [hacked]
    change (p.inflight ++ [fpNextPkt env p])[j]? = some q at hj
    rcases Nat.lt_or_ge j p.inflight.length with hlt | hge
    · rw [List.getElem?_append_left hlt] at hj
      exact (h.pkts j q hj).mono hmono
    · rw [List.getElem?_append_right hge] at hj
      have hj0 : j - p.inflight.length = 0 := by
        by_contra hne
        rw [List.getElem?_eq_none (by simp; omega)] at hj
        cases hj
      rw [hj0] at hj
      have hqp : q = fpNextPkt env p := by simpa using hj.symm
      have hidx : p.ackedNum + j = p.numbered.length := by
        simp only [FillpPeer.ackedNum]
        omega
      rw [hqp, hidx]
      exact hnew
  · change p.inflightBytes + (fpNextPkt env p).len =
      ((p.inflight ++ [fpNextPkt env p]).map FpPkt.len).sum
    rw [List.map_append, List.sum_append, ← h.bytes]
    simp
  · change p.inflightBytes + (fpNextPkt env p).len < fpSendCache + fpPktDataMax
    omega
  · intro d hd
    change d ∈ p.numbered ++ [(fpNextPkt env p).data] at hd
    rcases List.mem_append.mp hd with hd | hd
    · exact h.sizes d hd
    · rw [List.mem_singleton] at hd
      rw [hd, ← hlen]
      exact ⟨hpos, hmax⟩
  · change (p.numbered ++ [p.txq.take (fpNextPkt env p).len]).flatten ++
      p.txq.drop (fpNextPkt env p).len = p.accepted
    rw [← h.stream]
    simp [List.append_assoc]
  · intro d hd htype
    change d ∈ p.sent ++ [fpPktFrame (fpNextPkt env p)] at hd
    rcases List.mem_append.mp hd with hd | hd
    · exact (h.frames d hd htype).mono hmono
    · rw [List.mem_singleton] at hd
      exact ⟨_, _, hnew, hd⟩

theorem fpPacketize_sndInv (env : FpEnv) (budget : ℕ) : ∀ {p : FillpPeer}, SndInv p →
    SndInv (fpPacketize env budget p) := by
  induction budget with
  | zero => intro p h; exact h
  | succ budget ih =>
      intro p h
      unfold fpPacketize
      split
      · rename_i hc
        exact ih (fpSendNext_sndInv h env hc.1 hc.2)
      · exact h

theorem fpPump_sndInv {p : FillpPeer} (h : SndInv p) (env : FpEnv) (fill : Option FpFill) :
    SndInv (fpPump env fill p) := by
  unfold fpPump
  refine SndInv.congr ?_ (fpPumpReplyFin_sameSnd _)
  refine SndInv.congr ?_ (fpMaybePack_sameSnd env _)
  refine SndInv.congr ?_ (fpPumpTxComplete_sameSnd _)
  exact fpPacketize_sndInv env _ (fpPumpStall_sndInv (fpPumpFill_sndInv h fill) env)

/-! ## Acknowledgement -/

/-- The ack loop drops the packets that are not ahead of the ack number from
the front and takes their lengths off the byte count. -/
theorem fpAckLoop_eq (a : UInt32) : ∀ (l : List FpPkt) (b : ℕ),
    fpAckLoop a l b =
      (l.dropWhile fun q => !fpNumIsbigger q.pktNum a,
        b - ((l.takeWhile fun q => !fpNumIsbigger q.pktNum a).map FpPkt.len).sum)
  | [], b => by simp [fpAckLoop]
  | q :: rest, b => by
      rw [fpAckLoop]
      by_cases hq : fpNumIsbigger q.pktNum a = true
      · simp [hq]
      · rw [if_neg hq, fpAckLoop_eq a rest]
        simp [hq, Nat.sub_sub]

theorem fpOnPack_sndInv {p : FillpPeer} (h : SndInv p) (buf : Bytes) :
    SndInv (fpOnPack p buf) := by
  unfold fpOnPack
  split
  · exact h
  rename_i k _
  simp only [fpAckLoop_eq]
  set f : FpPkt → Bool := fun q => !fpNumIsbigger q.pktNum k.ackPkt with hf
  have hsplit : p.inflight = p.inflight.takeWhile f ++ p.inflight.dropWhile f :=
    (List.takeWhile_append_dropWhile).symm
  have hlens : p.inflight.length =
      (p.inflight.takeWhile f).length + (p.inflight.dropWhile f).length := by
    conv_lhs => rw [hsplit]
    exact List.length_append
  have hsums : p.inflightBytes = ((p.inflight.takeWhile f).map FpPkt.len).sum +
      ((p.inflight.dropWhile f).map FpPkt.len).sum := by
    rw [h.bytes]
    conv_lhs => rw [hsplit]
    rw [List.map_append, List.sum_append]
  have hle := h.le
  have hwin := h.window
  refine ⟨h.num, ?_, ?_, ?_, ?_, h.sizes, h.stream, h.frames⟩
  · simp only
    omega
  · intro j q hj
    simp only at hj ⊢
    have hget : p.inflight[(p.inflight.takeWhile f).length + j]? = some q := by
      rw [← hj, ← Nat.add_sub_cancel_left (p.inflight.takeWhile f).length j,
        ← List.getElem?_append_right (Nat.le_add_right _ _), List.takeWhile_append_dropWhile,
        Nat.add_sub_cancel_left]
    have hidx := h.pkts _ q hget
    have hacked : p.ackedNum + ((p.inflight.takeWhile f).length + j) =
        p.numbered.length - (p.inflight.dropWhile f).length + j := by
      simp only [FillpPeer.ackedNum]
      omega
    rw [hacked] at hidx
    exact hidx
  · simp only
    omega
  · simp only
    omega

theorem fpDataPlane_sndInv {p : FillpPeer} (h : SndInv p) (env : FpEnv) (buf : Bytes) :
    SndInv (fpDataPlane env p buf) := by
  unfold fpDataPlane
  split
  · split
    · exact h.congr (fpOnData_sameSnd env p buf)
    · exact h
  · split
    · exact fpOnNack_sndInv h env buf
    · exact h
  · split
    · exact fpOnPack_sndInv h buf
    · exact h
  · split
    · exact h.congr (fpOnFin_sameSnd env p)
    · exact h
  · exact h

end HwPhoneLink.Fillp
