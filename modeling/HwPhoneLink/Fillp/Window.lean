import HwPhoneLink.Fillp.PeerRun

/-!
# The window of a sender

What `inflight` holds in a run: the packets after the last one acknowledged, in
order, with the counters the source gives them. The sequence number of a packet
counts the payload bytes up to its end; the list is a function of the packets
numbered so far and of the largest acknowledgement, so that neither the order nor
the repetition of PACKs matters.
-/

namespace HwPhoneLink.Fillp

open BigEndian Transitions

/-! ## Sequence numbers -/

/-- The payload bytes of the first `n` packets, in 32 bits. -/
def seqOf (pk : List Bytes) (n : ℕ) : UInt32 :=
  UInt32.ofNat ((pk.take n).map List.length).sum

theorem seqOf_append {pk : List Bytes} {n : ℕ} (hn : n ≤ pk.length) (d : Bytes) :
    seqOf (pk ++ [d]) n = seqOf pk n := by
  rw [seqOf, List.take_append_of_le_length hn, seqOf]

theorem seqOf_append_last (pk : List Bytes) (d : Bytes) :
    seqOf (pk ++ [d]) (pk.length + 1) = seqOf pk pk.length + UInt32.ofNat d.length := by
  have hall : (pk ++ [d]).take (pk.length + 1) = pk ++ [d] := by
    apply List.take_of_length_le
    simp
  rw [seqOf, hall, seqOf, List.take_length, List.map_append, List.sum_append]
  simp

/-- The counters in the packets and in the peer are those of the stream. -/
structure SeqInv (p : FillpPeer) : Prop where
  last : p.sendSeqNum = seqOf p.numbered p.numbered.length
  pkts : ∀ j q, p.inflight[j]? = some q → q.seqNum = seqOf p.numbered (p.ackedNum + j + 1)

/-- The packets in flight are the same but for their clock. -/
theorem SeqInv.congr {p p' : FillpPeer} (h : SeqInv p) (hnum : p'.numbered = p.numbered)
    (hlen : p'.inflight.length = p.inflight.length)
    (hin : ∀ (j : ℕ) (q' : FpPkt), p'.inflight[j]? = some q' →
      ∃ q : FpPkt, p.inflight[j]? = some q ∧ q'.seqNum = q.seqNum)
    (hseq : p'.sendSeqNum = p.sendSeqNum) : SeqInv p' := by
  have hacked : p'.ackedNum = p.ackedNum := by
    rw [FillpPeer.ackedNum, hnum, hlen, FillpPeer.ackedNum]
  constructor
  · rw [hseq, hnum]
    exact h.last
  · intro j q' hq'
    obtain ⟨q, hq, hsame⟩ := hin j q' hq'
    rw [hsame, hnum, hacked]
    exact h.pkts j q hq

theorem SeqInv.sameSnd {p p' : FillpPeer} (h : SeqInv p) (hs : SameSnd p p')
    (hseq : p'.sendSeqNum = p.sendSeqNum) : SeqInv p' := by
  apply h.congr hs.numbered
  · rw [hs.inflight]
  · intro j q hq
    rw [hs.inflight] at hq
    exact ⟨q, hq, rfl⟩
  · exact hseq

/-! ### Operations that number nothing -/

@[simp] theorem fpMaybePack_sendSeqNum (env : FpEnv) (p : FillpPeer) :
    (fpMaybePack env p).sendSeqNum = p.sendSeqNum := by
  unfold fpMaybePack
  split
  · rfl
  split <;> rfl

@[simp] theorem fpFlushOfo_sendSeqNum (n : ℕ) : ∀ p : FillpPeer,
    (fpFlushOfo n p).sendSeqNum = p.sendSeqNum := by
  induction n with
  | zero => intro p; rfl
  | succ n ih =>
      intro p
      unfold fpFlushOfo
      split
      · rfl
      · rw [ih]
        rfl

@[simp] theorem fpBuffer_sendSeqNum (env : FpEnv) (p : FillpPeer) (h : FpHead)
    (payload : Bytes) : (fpBuffer env p h payload).sendSeqNum = p.sendSeqNum := by
  unfold fpBuffer fpMaybeNack
  split
  · split <;> rfl
  · split <;> rfl

@[simp] theorem fpOnData_sendSeqNum (env : FpEnv) (p : FillpPeer) (buf : Bytes) :
    (fpOnData env p buf).sendSeqNum = p.sendSeqNum := by
  unfold fpOnData
  split
  · rfl
  unfold fpOnPkt
  split
  · split <;> rfl
  split
  · rw [fpMaybePack_sendSeqNum, fpFlushOfo_sendSeqNum]
    rfl
  · exact fpBuffer_sendSeqNum env p _ _

@[simp] theorem fpOnFin_sendSeqNum (env : FpEnv) (p : FillpPeer) :
    (fpOnFin env p).sendSeqNum = p.sendSeqNum := by
  unfold fpOnFin
  simp only
  split <;> rfl

@[simp] theorem fpPumpTxComplete_sendSeqNum (p : FillpPeer) :
    (fpPumpTxComplete p).sendSeqNum = p.sendSeqNum := by
  unfold fpPumpTxComplete
  split <;> rfl

@[simp] theorem fpPumpReplyFin_sendSeqNum (p : FillpPeer) :
    (fpPumpReplyFin p).sendSeqNum = p.sendSeqNum := by
  unfold fpPumpReplyFin
  split <;> rfl

theorem SamePlane.sendSeqNum {p p' : FillpPeer} (h : SamePlane p p') :
    p'.sendSeqNum = p.sendSeqNum := by
  rw [h.fields]

/-! ### Operations of the sender -/

theorem fillpPeerSend_seqInv {p : FillpPeer} (h : SeqInv p) (data : Bytes) :
    SeqInv (fillpPeerSend p data) := by
  unfold fillpPeerSend
  split
  · exact h
  split
  · exact h
  · exact ⟨h.last, h.pkts⟩

theorem foldl_fillpPeerSend_seqInv (chunks : List Bytes) : ∀ {p : FillpPeer}, SeqInv p →
    SeqInv (chunks.foldl fillpPeerSend p) := by
  induction chunks with
  | nil => intro p h; exact h
  | cons c cs ih => intro p h; exact ih (fillpPeerSend_seqInv h c)

theorem fpPumpFill_seqInv {p : FillpPeer} (h : SeqInv p) (fill : Option FpFill) :
    SeqInv (fpPumpFill fill p) := by
  unfold fpPumpFill
  split
  · exact h
  rename_i f
  split
  · have hfold := foldl_fillpPeerSend_seqInv f.chunks h
    simp only
    split
    · exact ⟨hfold.last, hfold.pkts⟩
    · exact hfold
  · exact h

theorem fpPumpStall_seqInv {p : FillpPeer} (h : SeqInv p) (env : FpEnv) :
    SeqInv (fpPumpStall env p) := by
  unfold fpPumpStall
  split
  · exact h
  rename_i oldest rest hin
  split
  · apply h.congr
    · rfl
    · show rest.length + 1 = p.inflight.length
      rw [hin, List.length_cons]
    · intro j q' hq'
      change ({ oldest with tSentMs := env.now } :: rest)[j]? = some q' at hq'
      rw [hin]
      cases j with
      | zero =>
          cases hq'
          exact ⟨oldest, rfl, rfl⟩
      | succ j => exact ⟨q', hq', rfl⟩
    · rfl
  · exact h

theorem fpOnNack_seqInv {p : FillpPeer} (h : SeqInv p) (env : FpEnv) (buf : Bytes) :
    SeqInv (fpOnNack env p buf) := by
  unfold fpOnNack
  split
  · exact h
  apply h.congr
  · rfl
  · exact List.length_map _
  · intro j q' hq'
    simp only [List.getElem?_map, Option.map_eq_some_iff] at hq'
    obtain ⟨q, hq, rfl⟩ := hq'
    refine ⟨q, hq, ?_⟩
    split <;> rfl
  · rfl

/-- A new packet ends where the counter stands. -/
theorem fpSendNext_seqInv {p : FillpPeer} (hs : SndInv p) (h : SeqInv p) (env : FpEnv) :
    SeqInv (fpSendNext env p) := by
  have hle := hs.le
  have hacked : (fpSendNext env p).ackedNum = p.ackedNum := by
    simp [FillpPeer.ackedNum, fpSendNext, fpSendto]
  have hnumbered : (fpSendNext env p).numbered = p.numbered ++ [(fpNextPkt env p).data] := rfl
  have hnext : (fpNextPkt env p).seqNum =
      seqOf (p.numbered ++ [(fpNextPkt env p).data]) (p.numbered.length + 1) := by
    rw [seqOf_append_last, ← h.last, ← fpNextPkt_len]
    rfl
  constructor
  · show (fpNextPkt env p).seqNum = _
    rw [hnext, hnumbered, List.length_append, List.length_singleton]
  · intro j q hq
    change (p.inflight ++ [fpNextPkt env p])[j]? = some q at hq
    rw [hacked, hnumbered]
    rcases Nat.lt_trichotomy j p.inflight.length with hlt | heq | hgt
    · rw [List.getElem?_append_left hlt] at hq
      rw [seqOf_append (by unfold FillpPeer.ackedNum; omega)]
      exact h.pkts j q hq
    · rw [heq, List.getElem?_concat_length] at hq
      cases hq
      have hidx : p.ackedNum + j + 1 = p.numbered.length + 1 := by
        unfold FillpPeer.ackedNum
        omega
      rw [hidx, hnext]
    · rw [List.getElem?_eq_none (by simp; omega)] at hq
      cases hq

theorem fpPacketize_seqInv (env : FpEnv) (budget : ℕ) : ∀ {p : FillpPeer}, SndInv p → SeqInv p →
    SeqInv (fpPacketize env budget p) := by
  induction budget with
  | zero => intro p _ h; exact h
  | succ budget ih =>
      intro p hs h
      unfold fpPacketize
      split
      · rename_i hc
        exact ih (fpSendNext_sndInv hs env hc.1 hc.2) (fpSendNext_seqInv hs h env)
      · exact h

theorem fpPump_seqInv {p : FillpPeer} (hs : SndInv p) (h : SeqInv p) (env : FpEnv)
    (fill : Option FpFill) : SeqInv (fpPump env fill p) := by
  have hstall := fpPumpStall_seqInv (fpPumpFill_seqInv h fill) env
  have htx : SeqInv (fpPumpTx env fill p) :=
    fpPacketize_seqInv env _ (fpPumpStall_sndInv (fpPumpFill_sndInv hs fill) env) hstall
  apply htx.sameSnd (fpPump_sameSnd env fill p)
  show (fpPumpReplyFin (fpMaybePack env (fpPumpTxComplete (fpPumpTx env fill p)))).sendSeqNum = _
  simp

/-! ## Acknowledgements -/

/-- The ack number of a PACK. -/
def ackOf (buf : Bytes) : Option ℕ := (fillpDecodePack buf).map fun k => k.ackPkt.toNat

/-- The PACK acknowledges no packet that has not been sent. -/
def AckSent (p : FillpPeer) (buf : Bytes) : Prop := ∀ c, ackOf buf = some c → c ≤ p.sendPktNum.toNat

/-- The largest ack number of some datagrams. -/
def largestAck (bs : List Bytes) : ℕ := (bs.filterMap ackOf).foldr max 0

/-- A PACK takes packets from the front. -/
theorem fpOnPack_drop (p : FillpPeer) (buf : Bytes) :
    ∃ k ≤ p.inflight.length, (fpOnPack p buf).inflight = p.inflight.drop k := by
  unfold fpOnPack
  split
  · exact ⟨0, Nat.zero_le _, rfl⟩
  rename_i k _
  simp only [fpAckLoop_eq]
  set f : FpPkt → Bool := fun q => !fpNumIsbigger q.pktNum k.ackPkt
  have hdropped : (p.inflight.takeWhile f ++ p.inflight.dropWhile f).drop
      (p.inflight.takeWhile f).length = p.inflight.dropWhile f := List.drop_left
  rw [List.takeWhile_append_dropWhile] at hdropped
  refine ⟨(p.inflight.takeWhile f).length, ?_, hdropped.symm⟩
  exact (List.takeWhile_sublist f).length_le

theorem fpOnPack_kept (p : FillpPeer) (buf : Bytes) :
    (fpOnPack p buf).numbered = p.numbered ∧ (fpOnPack p buf).sendSeqNum = p.sendSeqNum ∧
      (fpOnPack p buf).sendPktNum = p.sendPktNum := by
  unfold fpOnPack
  split <;> exact ⟨rfl, rfl, rfl⟩

theorem fpOnPack_seqInv {p : FillpPeer} (hs : SndInv p) (h : SeqInv p) (buf : Bytes) :
    SeqInv (fpOnPack p buf) := by
  obtain ⟨k, hk, hdrop⟩ := fpOnPack_drop p buf
  obtain ⟨hnum, hseq, -⟩ := fpOnPack_kept p buf
  have hle := hs.le
  constructor
  · rw [hseq, hnum]
    exact h.last
  · intro j q hq
    rw [hdrop, List.getElem?_drop] at hq
    have hidx : (fpOnPack p buf).ackedNum + j + 1 = p.ackedNum + (k + j) + 1 := by
      rw [FillpPeer.ackedNum, hdrop, hnum, List.length_drop, FillpPeer.ackedNum]
      omega
    rw [hnum, hidx]
    exact h.pkts (k + j) q hq

/-- **A PACK** that acknowledges nothing unsent: what is left is the list without the
packets up to its number. -/
theorem fpOnPack_inflight {p : FillpPeer} (hs : SndInv p) (hfew : p.numbered.length < 2 ^ 31)
    {buf : Bytes} (hsent : AckSent p buf) :
    (fpOnPack p buf).inflight = p.inflight.drop ((ackOf buf).getD 0 - p.ackedNum) ∧
      (fpOnPack p buf).ackedNum = max p.ackedNum ((ackOf buf).getD 0) := by
  obtain ⟨k, hk, hdrop⟩ := fpOnPack_drop p buf
  obtain ⟨hnum, -, -⟩ := fpOnPack_kept p buf
  have hle := hs.le
  have hmoved : (fpOnPack p buf).ackedNum = p.ackedNum + k := by
    rw [FillpPeer.ackedNum, hdrop, hnum, List.length_drop, FillpPeer.ackedNum]
    omega
  have hacked : (fpOnPack p buf).ackedNum = max p.ackedNum ((ackOf buf).getD 0) := by
    rcases hdec : fillpDecodePack buf with _ | pack
    · have hnone : fpOnPack p buf = p := by rw [fpOnPack, hdec]
      rw [hnone, ackOf, hdec]
      simp
    · have hc : ackOf buf = some pack.ackPkt.toNat := by rw [ackOf, hdec, Option.map_some]
      have hbound := hsent _ hc
      rw [hs.num, UInt32.toNat_ofNat'] at hbound
      rw [hc, Option.getD_some]
      apply fpOnPack_acked hs
      · rw [hdec, Option.map_some, UInt32.ofNat_toNat]
      · omega
      · omega
  refine ⟨?_, hacked⟩
  have hk' : k = (ackOf buf).getD 0 - p.ackedNum := by omega
  rw [hdrop, hk']

/-- **A set of PACKs**: only the largest counts. -/
theorem foldl_fpOnPack_inflight (bs : List Bytes) : ∀ {p : FillpPeer}, SndInv p →
    p.numbered.length < 2 ^ 31 → (∀ d ∈ bs, AckSent p d) →
    (bs.foldl fpOnPack p).inflight = p.inflight.drop (largestAck bs - p.ackedNum) := by
  induction bs with
  | nil =>
      intro p _ _ _
      simp [largestAck]
  | cons d bs ih =>
      intro p hs hfew hsent
      obtain ⟨hin, hacked⟩ := fpOnPack_inflight hs hfew (hsent d List.mem_cons_self)
      obtain ⟨hnum, -, hpkt⟩ := fpOnPack_kept p d
      have hrest : ∀ d' ∈ bs, AckSent (fpOnPack p d) d' := by
        intro d' hd' c hc
        rw [hpkt]
        exact hsent d' (List.mem_cons_of_mem _ hd') c hc
      have hlargest : largestAck (d :: bs) = max ((ackOf d).getD 0) (largestAck bs) := by
        unfold largestAck
        rcases hd : ackOf d with _ | c
        · rw [List.filterMap_cons_none hd]
          simp
        · rw [List.filterMap_cons_some hd]
          rfl
      rw [List.foldl_cons, ih (fpOnPack_sndInv hs d) (by rw [hnum]; exact hfew) hrest, hin, hacked,
        List.drop_drop, hlargest]
      congr 1
      omega

/-! ## Runs with their acknowledgements -/

/-- A peer with the largest ack number of the PACKs it has handled. -/
structure FpSender where
  peer : FillpPeer
  acked : ℕ

/-- The datagram is a PACK, and the peer handles it. -/
def HandlesPack (p : FillpPeer) (buf : Bytes) : Prop :=
  fpTypeOf buf = some .pack ∧ (p.state = .established ∨ p.state = .closing)

instance (p : FillpPeer) (buf : Bytes) : Decidable (HandlesPack p buf) := by
  unfold HandlesPack
  infer_instance

def FpSender.ackAfter (s : FpSender) : FpPeerEv → ℕ
  | .datagram _ buf => if HandlesPack s.peer buf then max s.acked ((ackOf buf).getD 0) else s.acked
  | _ => s.acked

/-- A peer before its first packet. -/
def FpSender.start (p : FillpPeer) : FpSender where
  peer := p
  acked := 0

section Step

variable (hmacSha256 : Bytes → Bytes → Bytes) (e : FillpEngine)

def FpSender.step (s : FpSender) (ev : FpPeerEv) : Option FpSender :=
  (fpPeerStep hmacSha256 e s.peer ev).map fun p => { peer := p, acked := s.ackAfter ev }

end Step

/-- The step handles no PACK beyond what was sent. -/
def AcksSent (s : FpSender) (ev : FpPeerEv) : Prop :=
  ∀ env buf, ev = .datagram env buf → HandlesPack s.peer buf → AckSent s.peer buf

structure SenderInv (s : FpSender) : Prop where
  snd : SndInv s.peer
  seq : SeqInv s.peer
  acked : s.peer.ackedNum = s.acked

theorem FpSender.step_cases {hmacSha256 : Bytes → Bytes → Bytes} {e : FillpEngine}
    {s s' : FpSender} {ev : FpPeerEv} (h : FpSender.step hmacSha256 e s ev = some s') :
    fpPeerStep hmacSha256 e s.peer ev = some s'.peer ∧ s'.acked = s.ackAfter ev := by
  obtain ⟨p, hp, rfl⟩ := Option.map_eq_some_iff.mp h
  exact ⟨hp, rfl⟩

theorem fpPeerStep_numbered {hmacSha256 : Bytes → Bytes → Bytes} {e : FillpEngine}
    {p p' : FillpPeer} {ev : FpPeerEv} (hs : fpPeerStep hmacSha256 e p ev = some p') :
    p.numbered <+: p'.numbered := by
  rcases fpPeerStep_cases hs with ⟨data, -, rfl⟩ | ⟨env, fill, -, -, rfl⟩ | ⟨env, buf, -, rfl⟩ |
    ⟨-, hsame⟩
  · exact (fillpPeerSend_grows p data).numbered
  · exact (fpPump_grows env fill p).numbered
  · exact (fpDataPlane_grows env p buf).1 ▸ List.prefix_refl _
  · exact hsame.sameSnd.numbered ▸ List.prefix_refl _

/-- A datagram for an open peer, seen from the send side. -/
theorem SenderInv.datagram {s : FpSender} (h : SenderInv s) (env : FpEnv) {buf : Bytes}
    (hfew : s.peer.numbered.length < 2 ^ 31) (hok : HandlesPack s.peer buf → AckSent s.peer buf) :
    SenderInv { peer := fpDataPlane env s.peer buf, acked := s.ackAfter (.datagram env buf) } := by
  by_cases hpack : fpTypeOf buf = some .pack
  · by_cases hopen : s.peer.state = .established ∨ s.peer.state = .closing
    · have hhandles : HandlesPack s.peer buf := ⟨hpack, hopen⟩
      have hplane : fpDataPlane env s.peer buf = fpOnPack s.peer buf := by
        simp only [fpDataPlane, hpack, if_pos hopen]
      rw [hplane]
      constructor
      · exact fpOnPack_sndInv h.snd buf
      · exact fpOnPack_seqInv h.snd h.seq buf
      · show (fpOnPack s.peer buf).ackedNum = s.ackAfter (.datagram env buf)
        rw [(fpOnPack_inflight h.snd hfew (hok hhandles)).2, FpSender.ackAfter, if_pos hhandles,
          h.acked]
    · have hplane : fpDataPlane env s.peer buf = s.peer := by
        simp only [fpDataPlane, hpack, if_neg hopen]
      rw [hplane]
      refine ⟨h.snd, h.seq, ?_⟩
      show s.peer.ackedNum = s.ackAfter (.datagram env buf)
      rw [FpSender.ackAfter, if_neg (fun hh => hopen hh.2), h.acked]
  · constructor
    · exact fpDataPlane_sndInv h.snd env buf
    · show SeqInv (fpDataPlane env s.peer buf)
      unfold fpDataPlane
      split
      · split
        · exact h.seq.sameSnd (fpOnData_sameSnd env s.peer buf) (by simp)
        · exact h.seq
      · split
        · exact fpOnNack_seqInv h.seq env buf
        · exact h.seq
      · rename_i htype
        exact absurd htype hpack
      · split
        · exact h.seq.sameSnd (fpOnFin_sameSnd env s.peer) (by simp)
        · exact h.seq
      · exact h.seq
    · show (fpDataPlane env s.peer buf).ackedNum = s.ackAfter (.datagram env buf)
      rw [fpDataPlane_ackedNum env s.peer hpack, FpSender.ackAfter,
        if_neg (fun hh => hpack hh.1), h.acked]

/-- **One step.** -/
theorem SenderInv.step {hmacSha256 : Bytes → Bytes → Bytes} {e : FillpEngine} {s s' : FpSender}
    {ev : FpPeerEv} (h : SenderInv s) (hok : AcksSent s ev)
    (hfew : s'.peer.numbered.length < 2 ^ 31)
    (hs : FpSender.step hmacSha256 e s ev = some s') : SenderInv s' := by
  obtain ⟨hpeer, hacked⟩ := FpSender.step_cases hs
  have hle := (fpPeerStep_numbered hpeer).length_le
  obtain ⟨p', a'⟩ := s'
  simp only at hpeer hacked hfew hle
  subst hacked
  rcases fpPeerStep_cases hpeer with ⟨data, rfl, rfl⟩ | ⟨env, fill, rfl, -, rfl⟩ |
    ⟨env, buf, rfl, rfl⟩ | ⟨htype, hsame⟩
  · constructor
    · exact fillpPeerSend_sndInv h.snd data
    · exact fillpPeerSend_seqInv h.seq data
    · exact (fillpPeerSend_grows s.peer data).acked.trans h.acked
  · constructor
    · exact fpPump_sndInv h.snd env fill
    · exact fpPump_seqInv h.snd h.seq env fill
    · exact (fpPump_grows env fill s.peer).acked.trans h.acked
  · exact h.datagram env (Nat.lt_of_le_of_lt hle hfew) (hok env buf rfl)
  · have hkept : s.ackAfter ev = s.acked := by
      cases ev with
      | datagram env buf => exact if_neg fun hh => htype env buf rfl hh.1
      | _ => rfl
    constructor
    · exact h.snd.congr hsame.sameSnd
    · exact h.seq.sameSnd hsame.sameSnd hsame.sendSeqNum
    · exact hsame.sameSnd.ackedNum.trans (h.acked.trans hkept.symm)

theorem SenderInv.start {p : FillpPeer} (h : StartingPeer p) (hseq : p.sendSeqNum = 0) :
    SenderInv (FpSender.start p) := by
  constructor
  · exact h.sndInv
  · constructor
    · show p.sendSeqNum = seqOf p.numbered p.numbered.length
      rw [hseq, h.numbered]
      rfl
    · intro j q hq
      change p.inflight[j]? = some q at hq
      rw [h.inflight] at hq
      cases hq
  · show p.ackedNum = 0
    rw [FillpPeer.ackedNum, h.numbered]
    exact Nat.zero_sub _

/-! ## The window -/

/-- What the packets in flight are, in terms of what has been numbered and acknowledged. -/
structure SenderWindow (s : FpSender) : Prop where
  acked_le : s.acked ≤ s.peer.numbered.length
  last : s.peer.sendPktNum = UInt32.ofNat s.peer.numbered.length
  numbers : s.peer.inflight.map FpPkt.pktNum =
    (List.range' (s.acked + 1) (s.peer.numbered.length - s.acked)).map UInt32.ofNat
  bytes : s.peer.inflightBytes = (s.peer.inflight.map FpPkt.len).sum
  below : s.peer.inflightBytes < fpSendCache + fpPktDataMax
  seq : ∀ j q, s.peer.inflight[j]? = some q → q.seqNum = seqOf s.peer.numbered (s.acked + j + 1)
  payload : ∀ j q, s.peer.inflight[j]? = some q →
    s.peer.numbered[s.acked + j]? = some q.data ∧ q.len = q.data.length ∧
      1 ≤ q.len ∧ q.len ≤ fpPktDataMax
  packs : ∀ bs bs' : List Bytes, (∀ d ∈ bs ++ bs', AckSent s.peer d) →
    largestAck bs = largestAck bs' →
      (bs.foldl fpOnPack s.peer).inflight = (bs'.foldl fpOnPack s.peer).inflight

theorem SenderInv.window {s : FpSender} (h : SenderInv s)
    (hfew : s.peer.numbered.length < 2 ^ 31) : SenderWindow s := by
  have hle := h.snd.le
  have hacked := h.acked
  have hlen : s.peer.inflight.length = s.peer.numbered.length - s.acked := by
    unfold FillpPeer.ackedNum at hacked
    omega
  have hpkts : ∀ j q, s.peer.inflight[j]? = some q → IsPkt s.peer.numbered (s.acked + j) q := by
    rw [← hacked]
    exact h.snd.pkts
  constructor
  · unfold FillpPeer.ackedNum at hacked
    omega
  · exact h.snd.num
  · apply List.ext_getElem?
    intro j
    rw [List.getElem?_map, List.getElem?_map, ← hlen]
    by_cases hj : j < s.peer.inflight.length
    · have hget := List.getElem?_eq_getElem hj
      rw [hget, List.getElem?_range' hj, Option.map_some, Option.map_some, (hpkts j _ hget).num]
      congr 2
      omega
    · have hout := Nat.le_of_not_lt hj
      rw [List.getElem?_eq_none hout, List.getElem?_eq_none (by simpa using hout)]
      rfl
  · exact h.snd.bytes
  · exact h.snd.window
  · rw [← hacked]
    exact h.seq.pkts
  · intro j q hq
    have hpkt := hpkts j q hq
    obtain ⟨hpos, hmax⟩ := h.snd.sizes q.data (List.mem_of_getElem? hpkt.data)
    rw [hpkt.len]
    exact ⟨hpkt.data, rfl, hpos, hmax⟩
  · intro bs bs' hsent hlargest
    rw [foldl_fpOnPack_inflight bs h.snd hfew
        (fun d hd => hsent d (List.mem_append_left _ hd)),
      foldl_fpOnPack_inflight bs' h.snd hfew
        (fun d hd => hsent d (List.mem_append_right _ hd)), hlargest]

/-- **The window of a sender.** In every run of a peer that numbers fewer than `2 ^ 31`
packets and handles no PACK beyond what it has sent. -/
theorem sender_window {hmacSha256 : Bytes → Bytes → Bytes} {e : FillpEngine} {p : FillpPeer}
    (hp : StartingPeer p) (hseq : p.sendSeqNum = 0) {es : List FpPeerEv} {t : FpSender}
    (hacks : Meets (FpSender.step hmacSha256 e) AcksSent (FpSender.start p) es)
    (hrun : run (FpSender.step hmacSha256 e) (FpSender.start p) es = some t)
    (hfew : t.peer.numbered.length < 2 ^ 31) : SenderWindow t := by
  have hinv : SenderInv t := by
    refine run_inv_meets_below (μ := fun s => s.peer.numbered.length) SenderInv ?_ ?_
      (SenderInv.start hp hseq) hacks hrun hfew
    · intro s ev s' hs
      exact (fpPeerStep_numbered (FpSender.step_cases hs).1).length_le
    · intro s ev s' h hok hlt hs
      exact h.step hok hlt hs
  exact hinv.window hfew

def ackedTest (s : FpSender) : FpPeerEv → Bool
  | .datagram _ buf => (ackOf buf).all fun c => decide (c ≤ s.peer.sendPktNum.toNat)
  | _ => true

theorem acksSent_of_test (s : FpSender) (ev : FpPeerEv) (h : ackedTest s ev = true) :
    AcksSent s ev := by
  rintro env buf rfl - c hc
  rw [ackedTest, hc, Option.all_some, decide_eq_true_eq] at h
  exact h

/-- Two packets are sent, the first one is acknowledged, and once more. -/
def windowRun : List FpPeerEv :=
  let pack := (fillpEncodePack (fillpHlen + fillpPackLen) 2 1 2 0).getD []
  [.send [104, 105], .tick runEnv none, .send [106], .tick runEnv none,
    .datagram runEnv pack, .datagram runEnv pack]

/-- The second packet is left. -/
theorem sender_window_two_packets :
    ∃ t, run (FpSender.step strayHmac (pairEngine .left)) (FpSender.start (pairStart.peer .left))
        windowRun = some t ∧
      t.acked = 1 ∧ t.peer.inflight.map FpPkt.pktNum = [2] ∧ SenderWindow t := by
  have houtcome : (run (FpSender.step strayHmac (pairEngine .left))
      (FpSender.start (pairStart.peer .left)) windowRun).map (fun t =>
        (t.acked, t.peer.inflight.map FpPkt.pktNum, t.peer.numbered.length)) =
      some (1, [2], 2) := by decide +kernel
  obtain ⟨t, hrun, hvalues⟩ := Option.map_eq_some_iff.mp houtcome
  simp only [Prod.mk.injEq] at hvalues
  obtain ⟨hacked, hnums, hcount⟩ := hvalues
  refine ⟨t, hrun, hacked, hnums, ?_⟩
  apply sender_window (pairStart_init.starting .left) rfl
    (meets_of_test acksSent_of_test windowRun (by decide +kernel)) hrun
  rw [hcount]
  decide

end HwPhoneLink.Fillp
