import HwPhoneLink.Fillp.Link

/-!
# Recovery after loss

A round of a link without loss: the clock advances by the stall timeout, both
peers pump once without queueing data, and every datagram sent from then on is
delivered, in any order, until none is in the network (`FpLink.Round`).

A round either acknowledges or delivers the oldest packet in flight, or numbers
the first packet of the queue, so `FpLink.backlog` goes down. Within a round
the argument is carried by `DrainInv`: until the receiver has the oldest packet
and the sender knows, the packet or an acknowledgement of it is in the network.
A full out-of-order table does not matter, since the oldest packet is never
buffered.
-/

namespace HwPhoneLink.Fillp

open BigEndian Transitions

/-! ## Replies -/

/-- A NACK for exactly the packet after some number. -/
def IsGapNack (d : Bytes) : Prop :=
  ∃ n, fillpDecodeNack d = some n ∧ n.endPkt = n.beginPkt + 2

/-- What a peer sends when a DATA datagram arrives: nothing, a PACK for all it
has, or a NACK if the last one is old enough. -/
inductive Reply (now : ℕ) (p p' : FillpPeer) : Prop
  | quiet (sent : p'.sent = p.sent) (pack : p'.tLastPackMs = p.tLastPackMs)
      (nack : p'.tLastNackMs = p.tLastNackMs)
  | pack (d : Bytes) (sent : p'.sent = p.sent ++ [d]) (type : fpTypeOf d = some .pack)
      (ack : (fillpDecodePack d).map FpPack.ackPkt = some p'.recvPktNum)
      (pack : p'.tLastPackMs = now) (nack : p'.tLastNackMs = p.tLastNackMs)
  | nack (d : Bytes) (sent : p'.sent = p.sent ++ [d]) (type : fpTypeOf d = some .nack)
      (gap : IsGapNack d) (old : fpNackIntervalMs ≤ now - p.tLastNackMs)
      (pack : p'.tLastPackMs = p.tLastPackMs) (nack : p'.tLastNackMs = now)

/-- The PACK acknowledges the receiver's number. -/
theorem fpSendPack_sent (env : FpEnv) (p : FillpPeer) :
    ∃ d, (fpSendPack env p).sent = p.sent ++ [d] ∧ fpTypeOf d = some .pack ∧
      (fillpDecodePack d).map FpPack.ackPkt = some p.recvPktNum := by
  refine ⟨_, rfl, fpTypeOf_pack _ _ _ _, ?_⟩
  have henc : fillpEncodePack (fillpHlen + fillpPackLen) p.recvSeqNum p.recvPktNum p.recvSeqNum
      (UInt32.ofNat p.ofoBytes) = some ((fillpEncodePack (fillpHlen + fillpPackLen) p.recvSeqNum
        p.recvPktNum p.recvSeqNum (UInt32.ofNat p.ofoBytes)).getD []) := by
    simp [fillpEncodePack]
  rw [fillpDecodePack_encode henc]
  rfl

theorem fpMaybePack_eq (env : FpEnv) (p : FillpPeer) :
    fpMaybePack env p = p ∨ fpMaybePack env p = fpSendPack env p := by
  unfold fpMaybePack
  split
  · exact Or.inl rfl
  split
  · exact Or.inl rfl
  · exact Or.inr rfl

theorem fpSendPack_reply (env : FpEnv) (p : FillpPeer) : Reply env.now p (fpSendPack env p) := by
  obtain ⟨d, hsent, htype, hack⟩ := fpSendPack_sent env p
  exact .pack d hsent htype hack rfl rfl

theorem fpMaybePack_reply (env : FpEnv) (p : FillpPeer) :
    Reply env.now p (fpMaybePack env p) := by
  rcases fpMaybePack_eq env p with heq | heq <;> rw [heq]
  · exact .quiet rfl rfl rfl
  · exact fpSendPack_reply env p

theorem fpMaybeNack_reply (env : FpEnv) (p : FillpPeer) :
    Reply env.now p (fpMaybeNack env p) := by
  unfold fpMaybeNack
  split
  · exact .quiet rfl rfl rfl
  · rename_i hold
    refine .nack _ rfl (fpTypeOf_nack _ _ _ _) ?_ (Nat.not_lt.mp hold) rfl rfl
    have henc : fillpEncodeNack (fillpHlen + fillpNackLen) .nack p.recvPktNum (p.recvPktNum + 2)
        p.recvSeqNum (env.rand1.toUInt64 <<< 32 ||| env.rand2.toUInt64) =
        some ((fillpEncodeNack (fillpHlen + fillpNackLen) .nack p.recvPktNum (p.recvPktNum + 2)
          p.recvSeqNum (env.rand1.toUInt64 <<< 32 ||| env.rand2.toUInt64)).getD []) := by
      simp [fillpEncodeNack]
    exact ⟨_, fillpDecodeNack_encode henc, rfl⟩

/-- Nothing sent, no clock touched. -/
structure Silent (p p' : FillpPeer) : Prop where
  sent : p'.sent = p.sent
  pack : p'.tLastPackMs = p.tLastPackMs
  nack : p'.tLastNackMs = p.tLastNackMs

theorem Silent.reply {now : ℕ} {p p' p'' : FillpPeer} (hs : Silent p p')
    (h : Reply now p' p'') : Reply now p p'' := by
  cases h with
  | quiet sent pack nack =>
      exact .quiet (sent.trans hs.sent) (pack.trans hs.pack) (nack.trans hs.nack)
  | pack d sent type ack pack nack =>
      exact .pack d (hs.sent ▸ sent) type ack pack (nack.trans hs.nack)
  | nack d sent type gap old pack nack =>
      exact .nack d (hs.sent ▸ sent) type gap (hs.nack ▸ old) (pack.trans hs.pack) nack

theorem fpFlushOfo_silent (n : ℕ) : ∀ p : FillpPeer, Silent p (fpFlushOfo n p) := by
  induction n with
  | zero => intro p; exact ⟨rfl, rfl, rfl⟩
  | succ n ih =>
      intro p
      unfold fpFlushOfo
      split
      · exact ⟨rfl, rfl, rfl⟩
      · rename_i next _
        have hrest := ih (fpFlushOne p next)
        exact ⟨hrest.sent, hrest.pack, hrest.nack⟩

/-- **Every DATA datagram gets one of the three replies.** -/
theorem fpOnData_reply (env : FpEnv) (p : FillpPeer) (buf : Bytes) :
    Reply env.now p (fpOnData env p buf) := by
  unfold fpOnData
  split
  · exact .quiet rfl rfl rfl
  rename_i h payload _
  unfold fpOnPkt
  split
  · split
    · exact fpSendPack_reply env p
    · exact .quiet rfl rfl rfl
  split
  · have hflush := fpFlushOfo_silent p.ofo.entries.length (fpAccept p h.pktNum h.seqNum payload)
    have hsilent : Silent p (fpFlushOfo p.ofo.entries.length
        (fpAccept p h.pktNum h.seqNum payload)) := ⟨hflush.sent, hflush.pack, hflush.nack⟩
    exact hsilent.reply (fpMaybePack_reply env _)
  · unfold fpBuffer
    refine Silent.reply ?_ (fpMaybeNack_reply env _)
    split <;> exact ⟨rfl, rfl, rfl⟩

/-! ## Delivering one datagram -/

/-- How many deliveries a datagram can still cause, itself included. A NACK
causes a DATA packet, a DATA packet a PACK; the NACK that a DATA packet causes
is paid by `nackBudget`. -/
def datagramWeight (d : Bytes) : ℕ :=
  match fpTypeOf d with
  | some .data => 2
  | some .nack => 3
  | _ => 1

/-- The peer may still answer one gap with a NACK at this clock reading. -/
def nackBudget (now : ℕ) (p : FillpPeer) : ℕ :=
  if fpNackIntervalMs ≤ now - p.tLastNackMs then 2 else 0

/-- What delivery of `d` to a peer does, beside keeping the invariants. The
datagrams it sends are `ds`. -/
structure DeliverSpec (now : ℕ) (p p' : FillpPeer) (d : Bytes) (ds : List Bytes) : Prop where
  sent : p'.sent = p.sent ++ ds
  numbered : p'.numbered = p.numbered
  txq : p'.txq = p.txq
  acked : p.ackedNum ≤ p'.ackedNum
  data : ∀ e ∈ ds, fpTypeOf e = some .data →
    ∃ i q, p.ackedNum ≤ i ∧ IsPkt p.numbered i q ∧ e = fpPktFrame q
  packs : ∀ e ∈ ds, fpTypeOf e = some .pack →
    (fillpDecodePack e).map FpPack.ackPkt = some p'.recvPktNum
  nacks : ∀ e ∈ ds, fpTypeOf e = some .nack → IsGapNack e
  tLastPack : p'.tLastPackMs = p.tLastPackMs ∨ ∃ e ∈ ds, fpTypeOf e = some .pack
  weight : (ds.map datagramWeight).sum + nackBudget now p' < datagramWeight d + nackBudget now p

theorem datagramWeight_pos (d : Bytes) : 0 < datagramWeight d := by
  unfold datagramWeight
  split <;> decide

theorem DeliverSpec.refl (now : ℕ) (p : FillpPeer) (d : Bytes) : DeliverSpec now p p d [] := by
  refine ⟨by simp, rfl, rfl, Nat.le_refl _, ?_, ?_, ?_, Or.inl rfl, ?_⟩
  · simp
  · simp
  · simp
  · have := datagramWeight_pos d
    simp only [List.map_nil, List.sum_nil]
    omega

theorem fpOnData_deliver (env : FpEnv) (p : FillpPeer) {d : Bytes}
    (hd : fpTypeOf d = some .data) :
    ∃ ds, DeliverSpec env.now p (fpOnData env p d) d ds := by
  have hsame := fpOnData_sameSnd env p d
  have hweight : datagramWeight d = 2 := by simp [datagramWeight, hd]
  have hacked : p.ackedNum ≤ (fpOnData env p d).ackedNum := Nat.le_of_eq hsame.ackedNum.symm
  cases fpOnData_reply env p d with
  | quiet sent pack nack =>
      refine ⟨[], by simpa using sent, hsame.numbered, hsame.txq, hacked, by simp, by simp,
        by simp, Or.inl pack, ?_⟩
      have hbudget : nackBudget env.now (fpOnData env p d) = nackBudget env.now p := by
        rw [nackBudget, nack, nackBudget]
      simp [hbudget, hweight]
  | pack e sent type ack pack nack =>
      refine ⟨[e], sent, hsame.numbered, hsame.txq, hacked, ?_, ?_, ?_, Or.inr ⟨e, by simp, type⟩,
        ?_⟩
      · simp [type]
      · simpa using fun _ => ack
      · simp [type]
      · have hbudget : nackBudget env.now (fpOnData env p d) = nackBudget env.now p := by
          rw [nackBudget, nack, nackBudget]
        have he : datagramWeight e = 1 := by simp [datagramWeight, type]
        simp [hbudget, hweight, he]
  | nack e sent type gap old pack nack =>
      refine ⟨[e], sent, hsame.numbered, hsame.txq, hacked, ?_, ?_, ?_, Or.inl pack, ?_⟩
      · simp [type]
      · simp [type]
      · simpa using fun _ => gap
      · have hbefore : nackBudget env.now p = 2 := if_pos old
        have hafter : nackBudget env.now (fpOnData env p d) = 0 := by
          rw [nackBudget, nack, Nat.sub_self]
          rfl
        have he : datagramWeight e = 3 := by simp [datagramWeight, type]
        simp [hbefore, hafter, hweight, he]

/-- Only the packet after `beginPkt` lies inside a gap NACK. -/
theorem fpNackHits_gap {n : FpNack} (hn : n.endPkt = n.beginPkt + 2) {q : FpPkt}
    (hq : fpNackHits n q = true) : q.pktNum = n.beginPkt + 1 := by
  rw [fpNackHits, Bool.and_eq_true, hn] at hq
  exact SerialNumber.eq_succ_of_ahead hq.1 hq.2

theorem SndInv.nodup_pktNum {p : FillpPeer} (h : SndInv p) :
    (p.inflight.map FpPkt.pktNum).Nodup := by
  rw [List.nodup_iff_getElem?_ne_getElem?]
  intro i j hij hj
  rw [List.length_map] at hj
  have hshort := h.inflight_lt
  rw [List.getElem?_map, List.getElem?_map, List.getElem?_eq_getElem (by omega),
    List.getElem?_eq_getElem hj, Option.map_some, Option.map_some, ne_eq, Option.some.injEq,
    (h.pkts i _ (List.getElem?_eq_getElem (by omega))).num,
    (h.pkts j _ (List.getElem?_eq_getElem hj)).num]
  intro heq
  have := SerialNumber.ofNat_inj (by omega) (by omega) heq
  omega

theorem SndInv.hits_le_one {p : FillpPeer} (h : SndInv p) {n : FpNack}
    (hn : n.endPkt = n.beginPkt + 2) : (p.inflight.filter (fpNackHits n)).length ≤ 1 := by
  have hnodup : ((p.inflight.filter (fpNackHits n)).map FpPkt.pktNum).Nodup :=
    h.nodup_pktNum.sublist (List.filter_sublist.map _)
  have hall : (p.inflight.filter (fpNackHits n)).map FpPkt.pktNum =
      List.replicate (p.inflight.filter (fpNackHits n)).length (n.beginPkt + 1) := by
    refine List.eq_replicate_iff.mpr ⟨by simp, ?_⟩
    intro a ha
    obtain ⟨q, hq, rfl⟩ := List.mem_map.mp ha
    exact fpNackHits_gap hn (List.mem_filter.mp hq).2
  rw [hall] at hnodup
  exact List.nodup_replicate.mp hnodup

theorem fpOnNack_deliver {p : FillpPeer} (h : SndInv p) (env : FpEnv) {d : Bytes}
    (hd : fpTypeOf d = some .nack) (hgap : IsGapNack d) :
    ∃ ds, DeliverSpec env.now p (fpOnNack env p d) d ds := by
  obtain ⟨n, hn, hend⟩ := hgap
  have hweight : datagramWeight d = 3 := by simp [datagramWeight, hd]
  have heq : fpOnNack env p d = { p with
      sent := p.sent ++ (p.inflight.filter (fpNackHits n)).map fpPktFrame
      inflight := p.inflight.map fun pkt =>
        if fpNackHits n pkt then { pkt with tSentMs := env.now } else pkt } := by
    simp only [fpOnNack, hn]
  rw [heq]
  refine ⟨(p.inflight.filter (fpNackHits n)).map fpPktFrame, rfl, rfl, rfl, ?_, ?_, ?_, ?_,
    Or.inl rfl, ?_⟩
  · simp [FillpPeer.ackedNum]
  · intro e he _
    obtain ⟨q, hq, rfl⟩ := List.mem_map.mp he
    obtain ⟨j, hj⟩ := List.mem_iff_getElem?.mp (List.mem_of_mem_filter hq)
    exact ⟨_, q, Nat.le_add_right _ _, h.pkts j q hj, rfl⟩
  · intro e he htype
    obtain ⟨q, _, rfl⟩ := List.mem_map.mp he
    simp at htype
  · intro e he htype
    obtain ⟨q, _, rfl⟩ := List.mem_map.mp he
    simp at htype
  · have hone := h.hits_le_one hend
    have hsum : (((p.inflight.filter (fpNackHits n)).map fpPktFrame).map datagramWeight).sum =
        2 * (p.inflight.filter (fpNackHits n)).length := by
      have hconst : datagramWeight ∘ fpPktFrame = fun _ => 2 := by
        funext q
        simp [datagramWeight]
      rw [List.map_map, hconst]
      simp [Nat.mul_comm]
    rw [hsum, hweight]
    simp only [nackBudget]
    omega

theorem fpOnPack_deliver (env : FpEnv) (p : FillpPeer) {d : Bytes}
    (hd : fpTypeOf d = some .pack) : DeliverSpec env.now p (fpOnPack p d) d [] := by
  have hweight : datagramWeight d = 1 := by simp [datagramWeight, hd]
  unfold fpOnPack
  split
  · exact .refl env.now p d
  · rename_i k _
    refine ⟨by simp, rfl, rfl, ?_, by simp, by simp, by simp, Or.inl rfl, ?_⟩
    · have hle : (fpAckLoop k.ackPkt p.inflight p.inflightBytes).1.length ≤
          p.inflight.length := by
        rw [fpAckLoop_eq]
        exact (List.dropWhile_sublist _).length_le
      simp only [FillpPeer.ackedNum]
      omega
    · simp only [List.map_nil, List.sum_nil, hweight, nackBudget]
      omega

/-- **Every datagram but a FIN meets the delivery spec.** -/
theorem fpDataPlane_deliver {p : FillpPeer} (h : SndInv p) (hp : p.state = .established)
    (env : FpEnv) {d : Bytes} (hfin : fpTypeOf d ≠ some .fin)
    (hgap : fpTypeOf d = some .nack → IsGapNack d) :
    ∃ ds, DeliverSpec env.now p (fpDataPlane env p d) d ds := by
  unfold fpDataPlane
  split
  · rename_i htype
    rw [if_pos (Or.inl hp)]
    exact fpOnData_deliver env p htype
  · rename_i htype
    rw [if_pos hp]
    exact fpOnNack_deliver h env htype (hgap htype)
  · rename_i htype
    rw [if_pos (Or.inl hp)]
    exact ⟨[], fpOnPack_deliver env p htype⟩
  · rename_i htype
    exact absurd htype hfin
  · exact ⟨[], .refl env.now p d⟩

/-! ## Pumping without new data -/

/-- The fill function hands over no byte. -/
def NoData (fill : Option FpFill) : Prop := ∀ f, fill = some f → ∀ c ∈ f.chunks, c = []

/-- What a pump, or a stage of it, does to a peer. The datagrams it sends are
`ds`. -/
structure PumpSpec (p p' : FillpPeer) (ds : List Bytes) : Prop where
  sent : p'.sent = p.sent ++ ds
  grows : SndGrows p p'
  queue : p'.numbered.length + p'.txq.length ≤ p.numbered.length + p.txq.length
  recvPktNum : p'.recvPktNum = p.recvPktNum
  data : ∀ e ∈ ds, fpTypeOf e = some .data →
    ∃ i q, p.ackedNum ≤ i ∧ IsPkt p'.numbered i q ∧ e = fpPktFrame q
  packs : ∀ e ∈ ds, fpTypeOf e = some .pack →
    (fillpDecodePack e).map FpPack.ackPkt = some p.recvPktNum
  nacks : ∀ e ∈ ds, fpTypeOf e ≠ some .nack
  tLastPack : p'.tLastPackMs = p.tLastPackMs ∨ ∃ e ∈ ds, fpTypeOf e = some .pack

theorem PumpSpec.refl (p : FillpPeer) : PumpSpec p p [] :=
  ⟨by simp, .refl p, Nat.le_refl _, rfl, by simp, by simp, by simp, Or.inl rfl⟩

theorem PumpSpec.trans {p p' p'' : FillpPeer} {ds ds' : List Bytes} (h : PumpSpec p p' ds)
    (h' : PumpSpec p' p'' ds') : PumpSpec p p'' (ds ++ ds') := by
  refine ⟨by rw [h'.sent, h.sent, List.append_assoc], h.grows.trans h'.grows,
    Nat.le_trans h'.queue h.queue, h'.recvPktNum.trans h.recvPktNum, ?_, ?_, ?_, ?_⟩
  · intro e he htype
    rcases List.mem_append.mp he with he | he
    · obtain ⟨i, q, hi, hq, rfl⟩ := h.data e he htype
      exact ⟨i, q, hi, hq.mono h'.grows.numbered, rfl⟩
    · obtain ⟨i, q, hi, hq, rfl⟩ := h'.data e he htype
      exact ⟨i, q, h.grows.acked ▸ hi, hq, rfl⟩
  · intro e he htype
    rcases List.mem_append.mp he with he | he
    · exact h.packs e he htype
    · rw [← h.recvPktNum]
      exact h'.packs e he htype
  · intro e he
    rcases List.mem_append.mp he with he | he
    · exact h.nacks e he
    · exact h'.nacks e he
  · rcases h.tLastPack with ht | ⟨e, he, htype⟩
    · rcases h'.tLastPack with ht' | ⟨e, he, htype⟩
      · exact Or.inl (ht'.trans ht)
      · exact Or.inr ⟨e, List.mem_append_right _ he, htype⟩
    · exact Or.inr ⟨e, List.mem_append_left _ he, htype⟩

theorem foldl_fillpPeerSend_nil (chunks : List Bytes) (h : ∀ c ∈ chunks, c = []) :
    ∀ p : FillpPeer, chunks.foldl fillpPeerSend p = p := by
  induction chunks with
  | nil => intro p; rfl
  | cons c cs ih =>
      intro p
      have hc : fillpPeerSend p c = p := by simp [fillpPeerSend, h c (by simp)]
      rw [List.foldl_cons, hc]
      exact ih (fun c' hc' => h c' (List.mem_cons_of_mem _ hc')) p

theorem fpPumpFill_noData {fill : Option FpFill} (h : NoData fill) (p : FillpPeer) :
    fpPumpFill fill p = p ∨ fpPumpFill fill p = { p with fillDone := true } := by
  unfold fpPumpFill
  split
  · exact Or.inl rfl
  · rename_i f
    split
    · simp only [foldl_fillpPeerSend_nil f.chunks (h f rfl)]
      split
      · exact Or.inr rfl
      · exact Or.inl rfl
    · exact Or.inl rfl

theorem fpPumpStall_spec {p : FillpPeer} (h : SndInv p) (env : FpEnv) :
    ∃ ds, PumpSpec p (fpPumpStall env p) ds ∧
      ∀ oldest rest, p.inflight = oldest :: rest →
        fpStallTimeoutMs ≤ env.now - oldest.tSentMs → fpPktFrame oldest ∈ ds := by
  have hgrows := fpPumpStall_grows env p
  revert hgrows
  unfold fpPumpStall
  cases hin : p.inflight with
  | nil =>
      intro _
      exact ⟨[], .refl p, fun oldest rest he => by cases he⟩
  | cons oldest rest =>
      simp only
      split
      · intro hgrows
        refine ⟨[fpPktFrame oldest], ⟨rfl, hgrows, Nat.le_refl _, rfl, ?_, by simp, by simp,
          Or.inl rfl⟩, ?_⟩
        · intro e he _
          have hpkt := h.pkts 0 oldest (by simp [hin])
          exact ⟨_, oldest, Nat.le_refl _, hpkt, List.mem_singleton.mp he⟩
        · intro o r he _
          cases he
          exact List.mem_singleton_self _
      · rename_i hlt
        intro _
        refine ⟨[], .refl p, ?_⟩
        intro o r he hold
        cases he
        exact absurd hold hlt

theorem fpSendNext_spec {p : FillpPeer} (h : SndInv p) (env : FpEnv) (hq : 0 < p.txq.length) :
    PumpSpec p (fpSendNext env p) [fpPktFrame (fpNextPkt env p)] := by
  have hpos := (fpNextPkt_size env hq).1
  refine ⟨rfl, ⟨List.prefix_append _ _, by simp [FillpPeer.ackedNum, fpSendNext, fpSendto]⟩, ?_,
    rfl, ?_, by simp, by simp, Or.inl rfl⟩
  · have hcount : (fpSendNext env p).numbered.length = p.numbered.length + 1 := by
      simp [fpSendNext, fpSendto]
    have hqueue : (fpSendNext env p).txq.length = p.txq.length - (fpNextPkt env p).len := by
      simp [fpSendNext, fpSendto]
    omega
  · intro e he _
    refine ⟨p.numbered.length, _, ?_, fpNextPkt_isPkt h env, List.mem_singleton.mp he⟩
    exact Nat.sub_le _ _

theorem fpPacketize_spec (env : FpEnv) (budget : ℕ) : ∀ {p : FillpPeer}, SndInv p →
    ∃ ds, PumpSpec p (fpPacketize env budget p) ds := by
  induction budget with
  | zero => intro p _; exact ⟨[], .refl p⟩
  | succ budget ih =>
      intro p h
      unfold fpPacketize
      split
      · rename_i hc
        obtain ⟨ds, hds⟩ := ih (fpSendNext_sndInv h env hc.1 hc.2)
        exact ⟨_, (fpSendNext_spec h env hc.1).trans hds⟩
      · exact ⟨[], .refl p⟩

theorem fpMaybePack_spec (env : FpEnv) (p : FillpPeer) :
    ∃ ds, PumpSpec p (fpMaybePack env p) ds := by
  rcases fpMaybePack_eq env p with heq | heq <;> rw [heq]
  · exact ⟨[], .refl p⟩
  · obtain ⟨d, hsent, htype, hack⟩ := fpSendPack_sent env p
    refine ⟨[d], hsent, (fpSendPack_sameSnd env p).grows, Nat.le_refl _, rfl, ?_, ?_, ?_,
      Or.inr ⟨d, by simp, htype⟩⟩
    · simp [htype]
    · simpa using fun _ => hack
    · simp [htype]

theorem fpPumpTxComplete_spec (p : FillpPeer) : PumpSpec p (fpPumpTxComplete p) [] := by
  unfold fpPumpTxComplete
  split
  · exact ⟨by simp, ⟨List.prefix_refl _, rfl⟩, Nat.le_refl _, rfl, by simp, by simp, by simp,
      Or.inl rfl⟩
  · exact .refl p

/-- **A pump without new data** meets the pump spec, resends an overdue oldest
packet, and numbers a packet if the queue is not empty and nothing is in
flight. -/
theorem fpPump_spec {p : FillpPeer} (h : SndInv p) (hfin : p.pendingFin = false) (env : FpEnv)
    {fill : Option FpFill} (hfill : NoData fill) :
    ∃ ds, PumpSpec p (fpPump env fill p) ds ∧
      (∀ oldest rest, p.inflight = oldest :: rest →
        fpStallTimeoutMs ≤ env.now - oldest.tSentMs → fpPktFrame oldest ∈ ds) ∧
      (p.inflight = [] → 0 < p.txq.length →
        p.numbered.length < (fpPump env fill p).numbered.length) := by
  have h₁ := fpPumpFill_sndInv h fill
  have hsame : PumpSpec p (fpPumpFill fill p) [] ∧
      (fpPumpFill fill p).inflight = p.inflight ∧ (fpPumpFill fill p).txq = p.txq ∧
      (fpPumpFill fill p).numbered = p.numbered := by
    rcases fpPumpFill_noData hfill p with heq | heq <;> rw [heq]
    · exact ⟨.refl p, rfl, rfl, rfl⟩
    · exact ⟨⟨by simp, ⟨List.prefix_refl _, rfl⟩, Nat.le_refl _, rfl, by simp, by simp, by simp,
        Or.inl rfl⟩, rfl, rfl, rfl⟩
  obtain ⟨hfillSpec, hinflight, htxq, hnumbered⟩ := hsame
  rw [fpPump_of_pendingFin env fill hfin]
  generalize fpPumpFill fill p = p₁ at *
  obtain ⟨ds₂, hstall, hdue⟩ := fpPumpStall_spec h₁ env
  obtain ⟨ds₃, hpack⟩ := fpPacketize_spec env fpSendBudget (fpPumpStall_sndInv h₁ env)
  have htail := fpPumpTxComplete_spec (fpPacketize env fpSendBudget (fpPumpStall env p₁))
  obtain ⟨ds₅, hmaybe⟩ := fpMaybePack_spec env
    (fpPumpTxComplete (fpPacketize env fpSendBudget (fpPumpStall env p₁)))
  refine ⟨_, (((hfillSpec.trans hstall).trans hpack).trans htail).trans hmaybe, ?_, ?_⟩
  · intro oldest rest hin hold
    have := hdue oldest rest (hinflight.trans hin) hold
    simp [this]
  · intro hin hq
    have hin₁ : p₁.inflight = [] := hinflight.trans hin
    have hidle : fpPumpStall env p₁ = p₁ := by simp [fpPumpStall, hin₁]
    have hroom : p₁.inflightBytes < fpSendCache := by
      rw [h₁.bytes, hin₁]
      decide
    have hgrow : p.numbered.length < (fpPacketize env fpSendBudget p₁).numbered.length := by
      rw [fpSendBudget, fpPacketize, if_pos ⟨htxq ▸ hq, hroom⟩]
      have hle := (fpPacketize_grows env 31 (fpSendNext env p₁)).numbered.length_le
      have hone : (fpSendNext env p₁).numbered.length = p₁.numbered.length + 1 := by
        simp [fpSendNext, fpSendto]
      rw [← hnumbered]
      omega
    rw [hidle] at htail hmaybe ⊢
    exact Nat.lt_of_lt_of_le hgrow
      (Nat.le_trans htail.grows.numbered.length_le hmaybe.grows.numbered.length_le)

/-! ## Stamps are past -/

/-- No stamp of the peer lies in the future. -/
structure Timely (now : ℕ) (p : FillpPeer) : Prop where
  inflight : ∀ q ∈ p.inflight, q.tSentMs ≤ now
  pack : p.tLastPackMs ≤ now

theorem Timely.of_stamps {now : ℕ} {p p' : FillpPeer} (h : Timely now p)
    (hin : ∀ q ∈ p'.inflight, q ∈ p.inflight ∨ q.tSentMs = now)
    (hpack : p'.tLastPackMs = p.tLastPackMs ∨ p'.tLastPackMs = now) : Timely now p' := by
  constructor
  · intro q hq
    rcases hin q hq with hq | hq
    · exact h.inflight q hq
    · exact Nat.le_of_eq hq
  · rcases hpack with hp | hp
    · exact hp ▸ h.pack
    · exact Nat.le_of_eq hp

theorem Reply.tLastPack {now : ℕ} {p p' : FillpPeer} (h : Reply now p p') :
    p'.tLastPackMs = p.tLastPackMs ∨ p'.tLastPackMs = now := by
  cases h with
  | quiet _ pack _ => exact Or.inl pack
  | pack _ _ _ _ pack _ => exact Or.inr pack
  | nack _ _ _ _ _ pack _ => exact Or.inl pack

theorem Timely.reply {now : ℕ} {p p' : FillpPeer} (h : Timely now p) (hs : SameSnd p p')
    (hr : Reply now p p') : Timely now p' :=
  h.of_stamps (fun _ hq => Or.inl (hs.inflight ▸ hq)) hr.tLastPack

theorem fillpPeerSend_timely {now : ℕ} {p : FillpPeer} (h : Timely now p) (data : Bytes) :
    Timely now (fillpPeerSend p data) := by
  unfold fillpPeerSend
  split
  · exact h
  split
  · exact h
  · exact ⟨h.inflight, h.pack⟩

theorem foldl_fillpPeerSend_timely {now : ℕ} (chunks : List Bytes) : ∀ {p : FillpPeer},
    Timely now p → Timely now (chunks.foldl fillpPeerSend p) := by
  induction chunks with
  | nil => intro p h; exact h
  | cons c cs ih => intro p h; exact ih (fillpPeerSend_timely h c)

theorem fpPumpFill_timely {now : ℕ} {p : FillpPeer} (h : Timely now p) (fill : Option FpFill) :
    Timely now (fpPumpFill fill p) := by
  unfold fpPumpFill
  split
  · exact h
  rename_i f
  split
  · have hfold := foldl_fillpPeerSend_timely f.chunks h
    simp only
    split
    · exact ⟨hfold.inflight, hfold.pack⟩
    · exact hfold
  · exact h

theorem fpPumpStall_timely {env : FpEnv} {p : FillpPeer} (h : Timely env.now p) :
    Timely env.now (fpPumpStall env p) := by
  unfold fpPumpStall
  split
  · exact h
  · rename_i oldest rest hin
    split
    · refine h.of_stamps ?_ (Or.inl rfl)
      intro q hq
      rcases List.mem_cons.mp hq with rfl | hq
      · exact Or.inr rfl
      · exact Or.inl (hin ▸ List.mem_cons_of_mem _ hq)
    · exact h

theorem fpPacketize_timely {env : FpEnv} (budget : ℕ) : ∀ {p : FillpPeer}, Timely env.now p →
    Timely env.now (fpPacketize env budget p) := by
  induction budget with
  | zero => intro p h; exact h
  | succ budget ih =>
      intro p h
      unfold fpPacketize
      split
      · refine ih (h.of_stamps ?_ (Or.inl rfl))
        intro q hq
        rcases List.mem_append.mp hq with hq | hq
        · exact Or.inl hq
        · rw [List.mem_singleton] at hq
          exact Or.inr (hq ▸ rfl)
      · exact h

theorem fpPump_timely (env : FpEnv) {p : FillpPeer} (h : Timely env.now p)
    (fill : Option FpFill) : Timely env.now (fpPump env fill p) := by
  have hpackets := fpPacketize_timely fpSendBudget (fpPumpStall_timely (fpPumpFill_timely h fill))
  have hdone : ∀ {q : FillpPeer}, Timely env.now q → Timely env.now (fpPumpTxComplete q) := by
    intro q hq
    unfold fpPumpTxComplete
    split <;> exact ⟨hq.inflight, hq.pack⟩
  have hfin : ∀ {q : FillpPeer}, Timely env.now q → Timely env.now (fpPumpReplyFin q) := by
    intro q hq
    unfold fpPumpReplyFin
    split <;> exact ⟨hq.inflight, hq.pack⟩
  exact hfin ((hdone hpackets).reply (fpMaybePack_sameSnd env _) (fpMaybePack_reply env _))

theorem fpDataPlane_timely (env : FpEnv) {p : FillpPeer} (h : Timely env.now p) (d : Bytes) :
    Timely env.now (fpDataPlane env p d) := by
  unfold fpDataPlane
  split
  · split
    · exact h.reply (fpOnData_sameSnd env p d) (fpOnData_reply env p d)
    · exact h
  · split
    · unfold fpOnNack
      split
      · exact h
      · refine h.of_stamps ?_ (Or.inl rfl)
        intro q hq
        obtain ⟨q₀, hq₀, rfl⟩ := List.mem_map.mp hq
        split
        · exact Or.inr rfl
        · exact Or.inl hq₀
    · exact h
  · split
    · unfold fpOnPack
      split
      · exact h
      · refine h.of_stamps ?_ (Or.inl rfl)
        intro q hq
        simp only [fpAckLoop_eq] at hq
        exact Or.inl ((List.dropWhile_sublist _).mem hq)
    · exact h
  · split
    · refine h.of_stamps ?_ (Or.inl ?_)
      · intro q hq
        exact Or.inl ((fpOnFin_sameSnd env p).inflight ▸ hq)
      · unfold fpOnFin
        simp only
        split <;> rfl
    · exact h
  · exact h

def FpLink.Timely (s : FpLink) : Prop := ∀ x, Fillp.Timely s.clock (s.peer x)

theorem FpLink.Timely.setPeer {s : FpLink} (h : s.Timely) {x : Side} {p : FillpPeer}
    (hp : Fillp.Timely s.clock p) (y : Side) : Fillp.Timely s.clock ((s.setPeer x p).peer y) := by
  by_cases hxy : y = x
  · subst hxy
    simpa only [FpLink.setPeer, Function.update_self] using hp
  · simpa only [FpLink.setPeer, Function.update_of_ne hxy] using h y

theorem FpLink.Timely.step {s s' : FpLink} {e : FpLinkEv} (h : s.Timely)
    (hs : s.step e = some s') : s'.Timely := by
  cases e with
  | advance dt =>
      cases hs
      intro x
      exact ⟨fun q hq => Nat.le_trans ((h x).inflight q hq) (Nat.le_add_right _ _),
        Nat.le_trans (h x).pack (Nat.le_add_right _ _)⟩
  | send x chunk => cases hs; exact h.setPeer (fillpPeerSend_timely (h x) chunk)
  | pump x fill => cases hs; exact h.setPeer (fpPump_timely (s.env 0 0) (h x) fill)
  | deliver x d r₁ r₂ =>
      unfold FpLink.step at hs
      simp only at hs
      split at hs
      · cases hs
        exact h.setPeer (fpDataPlane_timely (s.env r₁ r₂) (h x) d)
      · cases hs

theorem FpLink.Init.timely {s : FpLink} (h : s.Init) : s.Timely := by
  intro x
  constructor
  · intro q hq
    rw [(h.fresh x).inflight] at hq
    cases hq
  · rw [(h.fresh x).tLastPackMs]
    exact Nat.zero_le _

/-! ## Rounds -/

/-- The datagrams on their way to each side. -/
abbrev FpPool := Side → List Bytes

/-- What was sent to each side between two moments of a run. -/
def FpLink.newSent (s s' : FpLink) : FpPool := fun x =>
  (s'.peer x.other).sent.drop (s.peer x.other).sent.length

/-- The pool after a delivery to `y`: the datagram is gone, replies follow. -/
def FpLink.poolAfter (s s' : FpLink) (pool : FpPool) (y : Side) (rest : List Bytes) : FpPool :=
  fun z => Function.update pool y rest z ++ s.newSent s' z

/-- Every datagram in the pool is delivered once, and so is every reply. -/
inductive FpLink.Drain : FpLink → FpPool → FpLink → Prop
  | done {s : FpLink} {pool : FpPool} (hempty : ∀ x, pool x = []) : Drain s pool s
  | deliver {s s' t : FpLink} {pool : FpPool} (x : Side) (pre : List Bytes) (d : Bytes)
      (post : List Bytes) (rand1 rand2 : UInt32) (hpool : pool x = pre ++ d :: post)
      (hstep : s.step (.deliver x d rand1 rand2) = some s')
      (hrest : Drain s' (s.poolAfter s' pool x (pre ++ post)) t) :
      Drain s pool t

/-- One round: the clock advances by the stall timeout, both peers pump once
without new data, and everything sent is delivered. -/
def FpLink.Round (s t : FpLink) : Prop :=
  ∃ fillLeft fillRight s₁, NoData fillLeft ∧ NoData fillRight ∧
    run FpLink.step s [.advance fpStallTimeoutMs, .pump .left fillLeft, .pump .right fillRight] =
      some s₁ ∧
    FpLink.Drain s₁ (s.newSent s₁) t

inductive FpLink.Rounds : ℕ → FpLink → FpLink → Prop
  | zero (s : FpLink) : Rounds 0 s s
  | succ {n : ℕ} {s t u : FpLink} (hround : s.Round t) (hrest : Rounds n t u) :
      Rounds (n + 1) s u

/-! ## Inside a round -/

/-- The round started in `s₀`, the pumps ended in `s₁`, and `pool` is still to
be delivered in `s`. -/
structure DrainInv (s₀ s₁ s : FpLink) (pool : FpPool) : Prop where
  link : LinkInv s
  timely : s.Timely
  given : s.given = s₀.given
  sent : ∀ x, ∀ d ∈ pool x, d ∈ (s.peer x.other).sent
  numbered : ∀ x, (s.peer x).numbered = (s₁.peer x).numbered
  txq : ∀ x, (s.peer x).txq = (s₁.peer x).txq
  base : ∀ x, (s₀.peer x).ackedNum ≤ (s₀.peer x.other).delivered.length
  acked : ∀ x, (s₀.peer x).ackedNum ≤ (s.peer x).ackedNum
  delivered : ∀ x, (s₀.peer x).delivered.length ≤ (s.peer x).delivered.length
  window : ∀ x, (s.peer x).numbered.length < (s₀.peer x).ackedNum + 2 ^ 20
  data : ∀ x, ∀ d ∈ pool x.other, fpTypeOf d = some .data →
    ∃ i q, (s₀.peer x).ackedNum ≤ i ∧ IsPkt (s.peer x).numbered i q ∧ d = fpPktFrame q
  packs : ∀ x, ∀ d ∈ pool x, fpTypeOf d = some .pack →
    ∃ c, (s₀.peer x.other).delivered.length ≤ c ∧ c ≤ (s.peer x.other).delivered.length ∧
      (fillpDecodePack d).map FpPack.ackPkt = some (UInt32.ofNat c)
  nacks : ∀ x, ∀ d ∈ pool x, fpTypeOf d = some .nack → IsGapNack d
  -- a side that may not re-ack yet has acked in this round
  repack : ∀ x, (s.peer x).tLastPackMs + fpStallTimeoutMs ≤ s.clock ∨
    (∃ d ∈ pool x.other, fpTypeOf d = some .pack) ∨
    (s₀.peer x).delivered.length ≤ (s.peer x.other).ackedNum
  -- the oldest packet, or an acknowledgement of it, is on its way
  progress : ∀ x, (s₀.peer x).inflight ≠ [] →
    (s₀.peer x.other).delivered.length < (s.peer x.other).delivered.length ∨
    (s₀.peer x).ackedNum < (s.peer x).ackedNum ∨
    (∃ q, fpPktFrame q ∈ pool x.other ∧ IsPkt (s.peer x).numbered (s₀.peer x).ackedNum q) ∨
    ((s₀.peer x).ackedNum < (s₀.peer x.other).delivered.length ∧
      ∃ d ∈ pool x, fpTypeOf d = some .pack)

theorem DrainInv.freshFor {s₀ s₁ s : FpLink} {pool : FpPool} (h : DrainInv s₀ s₁ s pool)
    {y : Side} {d : Bytes} (hd : d ∈ pool y) : FreshFor s y d := by
  constructor
  · intro htype
    obtain ⟨i, q, hi, hq, rfl⟩ := h.data y.other d (by rwa [Side.other_other]) htype
    have hle := (h.link.rcv y.other).le
    have hwin := h.window y.other
    rw [Side.other_other] at hle
    exact ⟨i, q, hq, rfl, by omega⟩
  · intro htype
    obtain ⟨c, hc, hle, hdec⟩ := h.packs y d hd htype
    have hwin := h.window y
    have hbase := h.base y
    exact ⟨c, hle, hdec, by omega⟩

/-- What delivery of a DATA packet does to the receiver. -/
theorem LinkInv.deliver_data {s : FpLink} (h : LinkInv s) {y : Side} {i : ℕ} {q : FpPkt}
    (hq : IsPkt (s.peer y.other).numbered i q)
    (hfresh : (s.peer y).delivered.length ≤ i + 2 ^ 31) (env : FpEnv) :
    (i ≤ (s.peer y).delivered.length →
      i < (fpDataPlane env (s.peer y) (fpPktFrame q)).delivered.length) ∧
    (i < (s.peer y).delivered.length → (s.peer y).tLastPackMs + fpStallTimeoutMs ≤ env.now →
      (fpDataPlane env (s.peer y) (fpPktFrame q)).tLastPackMs = env.now) := by
  have heq : fpDataPlane env (s.peer y) (fpPktFrame q) =
      fpOnData env (s.peer y) (fpPktFrame q) := by simp [fpDataPlane, h.state y]
  have hin := h.rcv y.other
  rw [Side.other_other] at hin
  have hsize := (h.snd y.other).sizes q.data (List.mem_of_getElem? hq.data)
  have hlen : q.len ≤ fpPktDataMax := hq.len ▸ hsize.2
  have hwin := h.window y.other
  rw [Side.other_other] at hwin
  rw [heq]
  refine ⟨(fpOnData_rcv hin hq hlen (by omega) hfresh env).2.2, ?_⟩
  intro hdup hold
  rw [fpOnData, fpDataOf_pktFrame hq.len hlen]
  simp only
  rcases fpOnPkt_cases hin hq (by omega) hfresh env
    ⟨1, 0, UInt16.ofNat q.len, q.pktNum, q.seqNum⟩ rfl q.data with
    ⟨_, hcase⟩ | ⟨hi, _⟩ | ⟨hi, _⟩
  · unfold fpStallTimeoutMs at hold
    rw [hcase, if_pos (by unfold fpNackIntervalMs; omega)]
    rfl
  · omega
  · omega

/-- A property of the two sides, seen from either. -/
theorem Side.forall_of {P : Side → Prop} (y : Side) (hself : P y) (hother : P y.other) :
    ∀ x, P x := by
  intro x
  rcases Side.eq_or_eq_other y x with rfl | rfl
  · exact hself
  · exact hother

/-- The deliveries that a pool can still cause. -/
def FpLink.drainWeight (s : FpLink) (pool : FpPool) : ℕ :=
  (((pool .left).map datagramWeight).sum + nackBudget s.clock (s.peer .left)) +
    (((pool .right).map datagramWeight).sum + nackBudget s.clock (s.peer .right))

theorem FpLink.drainWeight_eq (s : FpLink) (pool : FpPool) (y : Side) :
    s.drainWeight pool =
      (((pool y).map datagramWeight).sum + nackBudget s.clock (s.peer y)) +
        (((pool y.other).map datagramWeight).sum + nackBudget s.clock (s.peer y.other)) := by
  cases y
  · rfl
  · exact Nat.add_comm _ _

/-- The oldest packet arrives: the receiver gets on, or it has had the packet and is due to
acknowledge it again. -/
theorem DrainInv.oldest {s₀ s₁ s : FpLink} {pool : FpPool} (h : DrainInv s₀ s₁ s pool) {y : Side}
    {q : FpPkt} (hpkt : IsPkt (s.peer y.other).numbered (s₀.peer y.other).ackedNum q)
    (r₁ r₂ : UInt32)
    (hmono : (s.peer y).delivered.length ≤
      (fpDataPlane (s.env r₁ r₂) (s.peer y) (fpPktFrame q)).delivered.length) :
    (s₀.peer y).delivered.length <
        (fpDataPlane (s.env r₁ r₂) (s.peer y) (fpPktFrame q)).delivered.length ∨
      ((s₀.peer y.other).ackedNum < (s₀.peer y).delivered.length ∧
        ((s.peer y).tLastPackMs + fpStallTimeoutMs ≤ s.clock →
          (fpDataPlane (s.env r₁ r₂) (s.peer y) (fpPktFrame q)).tLastPackMs = s.clock)) := by
  have hbase := h.base y.other
  have hdel := h.delivered y
  have hwin := h.window y.other
  have hrcv := (h.link.rcv y.other).le
  rw [Side.other_other] at hbase hrcv
  obtain ⟨hnext, hdup⟩ := h.link.deliver_data hpkt (by omega) (s.env r₁ r₂)
  rcases Nat.lt_or_ge (s₀.peer y).delivered.length
    (fpDataPlane (s.env r₁ r₂) (s.peer y) (fpPktFrame q)).delivered.length with hgt | hge
  · exact Or.inl hgt
  have hless : (s₀.peer y.other).ackedNum < (s₀.peer y).delivered.length := by
    by_contra hnot
    have := hnext (by omega)
    omega
  exact Or.inr ⟨hless, hdup (by omega)⟩

/-- **Step lemma of a round.** A delivery keeps the round invariant, and the
pool gets lighter. -/
theorem DrainInv.step {s₀ s₁ s s' : FpLink} {pool : FpPool} (h : DrainInv s₀ s₁ s pool)
    {y : Side} {pre post : List Bytes} {d : Bytes} {r₁ r₂ : UInt32}
    (hpool : pool y = pre ++ d :: post) (hstep : s.step (.deliver y d r₁ r₂) = some s') :
    DrainInv s₀ s₁ s' (s.poolAfter s' pool y (pre ++ post)) ∧
      s'.drainWeight (s.poolAfter s' pool y (pre ++ post)) < s.drainWeight pool := by
  have hd : d ∈ pool y := by simp [hpool]
  have hsent := h.sent y d hd
  have hfresh := h.freshFor hd
  have hlink : LinkInv s' := h.link.step hstep fun x d' a b he => by
    cases he
    exact hfresh
  have htimely := h.timely.step hstep
  obtain ⟨ds, hspec⟩ := fpDataPlane_deliver (h.link.snd y) (h.link.state y) (s.env r₁ r₂)
    (h.link.noFin y.other d hsent) (h.nacks y d hd)
  have hpeer := h.link.peerStep_deliver hsent hfresh (s.env r₁ r₂)
  have hs' : s' = s.setPeer y (fpDataPlane (s.env r₁ r₂) (s.peer y) d) := by
    simpa [FpLink.step, hsent] using hstep.symm
  have hself : s'.peer y = fpDataPlane (s.env r₁ r₂) (s.peer y) d := by
    rw [hs']
    exact Function.update_self ..
  have hoth : s'.peer y.other = s.peer y.other := by
    rw [hs']
    exact Function.update_of_ne (Side.other_ne y) ..
  have hclock : s'.clock = s.clock := by rw [hs']; rfl
  have hgiven : s'.given = s.given := by rw [hs']; rfl
  -- the two pools
  have hpy : s.poolAfter s' pool y (pre ++ post) y = pre ++ post := by
    simp [FpLink.poolAfter, FpLink.newSent, hoth]
  have hpo : s.poolAfter s' pool y (pre ++ post) y.other = pool y.other ++ ds := by
    have hnew : s.newSent s' y.other = ds := by
      simp [FpLink.newSent, hself, hspec.sent]
    rw [FpLink.poolAfter, hnew, Function.update_of_ne (Side.other_ne y)]
  have hmem : ∀ e, e ∈ pool y → e = d ∨ e ∈ pre ++ post := by
    intro e he
    rw [hpool] at he
    simp only [List.mem_append, List.mem_cons] at he ⊢
    tauto
  have hsub : ∀ e, e ∈ pre ++ post → e ∈ pool y := by
    intro e he
    rw [hpool]
    simp only [List.mem_append, List.mem_cons] at he ⊢
    tauto
  -- delivering a PACK of the pool acknowledges what was delivered before the round
  have hack : fpTypeOf d = some .pack →
      (s₀.peer y.other).delivered.length ≤ (s'.peer y).ackedNum := by
    intro htype
    obtain ⟨c, hc, hle, hdec⟩ := h.packs y d hd htype
    have hwin := h.window y
    have hbase := h.base y
    have hrcv := (h.link.rcv y).le
    have hmax := fpOnPack_acked (h.link.snd y) hdec (by omega) (by omega)
    have heq : s'.peer y = fpOnPack (s.peer y) d := by
      rw [hself]
      simp [fpDataPlane, htype, h.link.state y]
    rw [heq, hmax]
    omega
  generalize s.poolAfter s' pool y (pre ++ post) = pool' at *
  rw [← hself] at hspec hpeer
  refine ⟨⟨hlink, htimely, hgiven.trans h.given, ?_, ?_, ?_, h.base, ?_, ?_, ?_, ?_, ?_, ?_, ?_,
    ?_⟩, ?_⟩
  · refine Side.forall_of y ?_ ?_
    · rw [hpy, hoth]
      exact fun e he => h.sent y e (hsub e he)
    · rw [hpo, Side.other_other, hspec.sent]
      intro e he
      rcases List.mem_append.mp he with he | he
      · have := h.sent y.other e he
        rw [Side.other_other] at this
        exact List.mem_append_left _ this
      · exact List.mem_append_right _ he
  · refine Side.forall_of y ?_ ?_
    · rw [hspec.numbered]; exact h.numbered y
    · rw [hoth]; exact h.numbered _
  · refine Side.forall_of y ?_ ?_
    · rw [hspec.txq]; exact h.txq y
    · rw [hoth]; exact h.txq _
  · refine Side.forall_of y ?_ ?_
    · exact Nat.le_trans (h.acked y) hspec.acked
    · rw [hoth]; exact h.acked _
  · refine Side.forall_of y ?_ ?_
    · exact Nat.le_trans (h.delivered y) hpeer.delivered
    · rw [hoth]; exact h.delivered _
  · refine Side.forall_of y ?_ ?_
    · rw [hspec.numbered]; exact h.window y
    · rw [hoth]; exact h.window _
  · refine Side.forall_of y ?_ ?_
    · rw [hpo, hspec.numbered]
      intro e he htype
      rcases List.mem_append.mp he with he | he
      · exact h.data y e he htype
      · obtain ⟨i, q, hi, hq, rfl⟩ := hspec.data e he htype
        exact ⟨i, q, Nat.le_trans (h.acked y) hi, hq, rfl⟩
    · rw [Side.other_other, hpy, hoth]
      intro e he htype
      exact h.data y.other e (by rw [Side.other_other]; exact hsub e he) htype
  · refine Side.forall_of y ?_ ?_
    · rw [hpy, hoth]
      exact fun e he htype => h.packs y e (hsub e he) htype
    · rw [hpo, Side.other_other]
      intro e he htype
      rcases List.mem_append.mp he with he | he
      · obtain ⟨c, hc, hle, hdec⟩ := h.packs y.other e he htype
        rw [Side.other_other] at hc hle
        exact ⟨c, hc, Nat.le_trans hle hpeer.delivered, hdec⟩
      · have hrcv := hlink.rcv y.other
        rw [Side.other_other] at hrcv
        refine ⟨(s'.peer y).delivered.length, ?_, Nat.le_refl _, ?_⟩
        · exact Nat.le_trans (h.delivered y) hpeer.delivered
        · rw [hspec.packs e he htype, hrcv.num]
  · refine Side.forall_of y ?_ ?_
    · rw [hpy]
      exact fun e he htype => h.nacks y e (hsub e he) htype
    · rw [hpo]
      intro e he htype
      rcases List.mem_append.mp he with he | he
      · exact h.nacks y.other e he htype
      · exact hspec.nacks e he htype
  · refine Side.forall_of y ?_ ?_
    · rw [hclock, hpo, hoth]
      rcases hspec.tLastPack with ht | ⟨e, he, htype⟩
      · rcases h.repack y with hr | ⟨e, he, htype⟩ | hr
        · exact Or.inl (by rw [ht]; exact hr)
        · exact Or.inr (Or.inl ⟨e, List.mem_append_left _ he, htype⟩)
        · exact Or.inr (Or.inr hr)
      · exact Or.inr (Or.inl ⟨e, List.mem_append_right _ he, htype⟩)
    · rw [hclock, Side.other_other, hpy, hoth]
      have hr := h.repack y.other
      rw [Side.other_other] at hr
      rcases hr with hr | ⟨e, he, htype⟩ | hr
      · exact Or.inl hr
      · rcases hmem e he with rfl | he
        · exact Or.inr (Or.inr (hack htype))
        · exact Or.inr (Or.inl ⟨e, he, htype⟩)
      · exact Or.inr (Or.inr (Nat.le_trans hr hspec.acked))
  · refine Side.forall_of y ?_ ?_
    · intro hlive
      rw [hoth, hpo, hpy, hspec.numbered]
      rcases h.progress y hlive with hp | hp | ⟨q, hq, hpkt⟩ | ⟨hlt, e, he, htype⟩
      · exact Or.inl hp
      · exact Or.inr (Or.inl (Nat.lt_of_lt_of_le hp hspec.acked))
      · exact Or.inr (Or.inr (Or.inl ⟨q, List.mem_append_left _ hq, hpkt⟩))
      · rcases hmem e he with rfl | he
        · exact Or.inr (Or.inl (Nat.lt_of_lt_of_le hlt (hack htype)))
        · exact Or.inr (Or.inr (Or.inr ⟨hlt, e, he, htype⟩))
    · intro hlive
      have hp := h.progress y.other hlive
      rw [Side.other_other] at hp ⊢
      rw [hoth, hpo, hpy]
      rcases hp with hp | hp | ⟨q, hq, hpkt⟩ | ⟨hlt, e, he, htype⟩
      · exact Or.inl (Nat.lt_of_lt_of_le hp hpeer.delivered)
      · exact Or.inr (Or.inl hp)
      · rcases hmem _ hq with rfl | hq
        · -- the oldest packet arrives now
          have hold := h.oldest hpkt r₁ r₂ (hself ▸ hpeer.delivered)
          rw [← hself] at hold
          rcases hold with hgt | ⟨hless, hdup⟩
          · exact Or.inl hgt
          rcases h.repack y with hr | ⟨e, he, htype⟩ | hr
          · have hre := hdup hr
            rcases hspec.tLastPack with ht | ⟨e, he, htype⟩
            · unfold fpStallTimeoutMs at hr
              omega
            · exact Or.inr (Or.inr (Or.inr ⟨hless, e, List.mem_append_right _ he, htype⟩))
          · exact Or.inr (Or.inr (Or.inr ⟨hless, e, List.mem_append_left _ he, htype⟩))
          · exact Or.inr (Or.inl (Nat.lt_of_lt_of_le hless hr))
        · exact Or.inr (Or.inr (Or.inl ⟨q, hq, hpkt⟩))
      · exact Or.inr (Or.inr (Or.inr ⟨hlt, e, List.mem_append_left _ he, htype⟩))
  · have hw := hspec.weight
    have hnow : (s.env r₁ r₂).now = s.clock := rfl
    rw [FpLink.drainWeight_eq s' pool' y, FpLink.drainWeight_eq s pool y, hpy, hpo, hoth, hclock,
      hpool]
    rw [hnow] at hw
    simp only [List.map_append, List.map_cons, List.sum_append, List.sum_cons]
    omega

/-! ## One round -/

/-- The link after the clock advanced and both peers pumped. -/
structure Pumped (s₀ s₁ : FpLink) : Prop where
  clock : s₁.clock = s₀.clock + fpStallTimeoutMs
  given : s₁.given = s₀.given
  link : LinkInv s₁
  timely : s₁.Timely
  pump : ∀ x, ∃ env fill, env.now = s₀.clock + fpStallTimeoutMs ∧ NoData fill ∧
    s₁.peer x = fpPump env fill (s₀.peer x)

theorem fpFillGiven_noData {fill : Option FpFill} (h : NoData fill) (p : FillpPeer) :
    fpFillGiven fill p = [] := by
  unfold fpFillGiven
  split
  · rfl
  · rename_i f
    split
    · exact List.flatten_eq_nil_iff.mpr (h f rfl)
    · rfl

theorem LinkInv.pumped {s₀ s₁ : FpLink} (h : LinkInv s₀) (ht : s₀.Timely)
    {fillLeft fillRight : Option FpFill} (hl : NoData fillLeft) (hr : NoData fillRight)
    (hrun : run FpLink.step s₀
      [.advance fpStallTimeoutMs, .pump .left fillLeft, .pump .right fillRight] = some s₁) :
    Pumped s₀ s₁ := by
  have hlink : LinkInv s₁ ∧ s₁.Timely := by
    refine run_inv (fun s => LinkInv s ∧ s.Timely)
      (fun _ e => ∀ x d r₁ r₂, e ≠ .deliver x d r₁ r₂) ?_ ⟨h, ht⟩ ?_ hrun
    · intro s e s' hs hno hstep
      exact ⟨hs.1.step hstep fun x d r₁ r₂ he => absurd he (hno x d r₁ r₂), hs.2.step hstep⟩
    · simp [Meets]
  cases hrun
  refine ⟨rfl, ?_, hlink.1, hlink.2, ?_⟩
  · funext x
    cases x
    · simp [FpLink.setPeer, fpFillGiven_noData hl, fpFillGiven_noData hr]
    · simp [FpLink.setPeer, fpFillGiven_noData hl, fpFillGiven_noData hr]
  · intro x
    cases x
    · exact ⟨_, fillLeft, rfl, hl, rfl⟩
    · exact ⟨_, fillRight, rfl, hr, rfl⟩

/-- The first packet a round still has to get across. -/
theorem Pumped.oldest {s₀ s₁ : FpLink} (h : LinkInv s₀) (ht : s₀.Timely) {x : Side}
    {ds : List Bytes} (hgrow : SndGrows (s₀.peer x) (s₁.peer x))
    (hdue : ∀ oldest rest, (s₀.peer x).inflight = oldest :: rest →
      fpStallTimeoutMs ≤ s₀.clock + fpStallTimeoutMs - oldest.tSentMs → fpPktFrame oldest ∈ ds)
    (hlive : (s₀.peer x).inflight ≠ []) :
    ∃ q, fpPktFrame q ∈ ds ∧ IsPkt (s₁.peer x).numbered (s₀.peer x).ackedNum q := by
  obtain ⟨oldest, rest, hin⟩ := List.exists_cons_of_ne_nil hlive
  have hstamp := (ht x).inflight oldest (by simp [hin])
  have hpkt := (h.snd x).pkts 0 oldest (by simp [hin])
  exact ⟨oldest, hdue oldest rest hin (by omega), hpkt.mono hgrow.numbered⟩

theorem DrainInv.start {s₀ s₁ : FpLink} (h : LinkInv s₀) (ht : s₀.Timely)
    (hp : Pumped s₀ s₁) : DrainInv s₀ s₁ s₁ (s₀.newSent s₁) := by
  have hspec : ∀ x, PumpSpec (s₀.peer x) (s₁.peer x) (s₀.newSent s₁ x.other) ∧
      ((s₀.peer x).inflight ≠ [] → ∃ q, fpPktFrame q ∈ s₀.newSent s₁ x.other ∧
        IsPkt (s₁.peer x).numbered (s₀.peer x).ackedNum q) := by
    intro x
    obtain ⟨env, fill, hnow, hfill, hpeer⟩ := hp.pump x
    obtain ⟨ds, hds, hdue, -⟩ := fpPump_spec (h.snd x) (h.pendingFin x) env hfill
    rw [← hpeer] at hds
    have hnew : s₀.newSent s₁ x.other = ds := by
      simp [FpLink.newSent, hds.sent]
    rw [hnew]
    exact ⟨hds, Pumped.oldest h ht hds.grows (hnow ▸ hdue)⟩
  have hdel : ∀ x, (s₁.peer x).delivered = (s₀.peer x).delivered := by
    intro x
    obtain ⟨env, fill, -, -, hpeer⟩ := hp.pump x
    have hin := h.rcv x.other
    rw [Side.other_other] at hin
    rw [hpeer]
    exact (fpPump_rcv hin env fill).2
  refine ⟨hp.link, hp.timely, hp.given, ?_, fun _ => rfl, fun _ => rfl, h.acked, ?_, ?_, ?_, ?_, ?_,
    ?_, ?_, ?_⟩
  · intro x d hd
    exact List.mem_of_mem_drop hd
  · intro x
    exact Nat.le_of_eq (hspec x).1.grows.acked.symm
  · intro x
    rw [hdel x]
  · intro x
    have hacked := (hspec x).1.grows.acked
    have hshort := (hp.link.snd x).inflight_lt
    unfold FillpPeer.ackedNum at hacked ⊢
    omega
  · intro x d hd htype
    exact (hspec x).1.data d hd htype
  · intro x d hd htype
    have hack := (hspec x.other).1.packs d (by rwa [Side.other_other]) htype
    have hrcv := (h.rcv x).num
    exact ⟨_, Nat.le_refl _, Nat.le_of_eq (by rw [hdel]), by rw [hack, hrcv]⟩
  · intro x d hd htype
    exact absurd htype ((hspec x.other).1.nacks d (by rwa [Side.other_other]))
  · intro x
    rcases (hspec x).1.tLastPack with hsame | hpack
    · have hpast := (ht x).pack
      rw [hsame, hp.clock]
      exact Or.inl (by omega)
    · exact Or.inr (Or.inl hpack)
  · intro x hlive
    exact Or.inr (Or.inr (Or.inl ((hspec x).2 hlive)))

/-- What side `x` has not got across: three for each queued byte, one for each
packet in flight and one for each packet not delivered. -/
def FpLink.backlog (s : FpLink) (x : Side) : ℕ :=
  3 * (s.peer x).txq.length + (s.peer x).inflight.length +
    ((s.peer x).numbered.length - (s.peer x.other).delivered.length)

/-- Draining ends with an empty pool and keeps the round invariant. -/
theorem DrainInv.drain {s₀ s₁ s t : FpLink} {pool : FpPool} (hdrain : FpLink.Drain s pool t)
    (h : DrainInv s₀ s₁ s pool) : DrainInv s₀ s₁ t (fun _ => []) := by
  induction hdrain with
  | done hempty =>
      rename_i pool
      have hpool : pool = fun _ => [] := funext hempty
      exact hpool ▸ h
  | deliver x pre d post r₁ r₂ hpool hstep _ ih => exact ih (h.step hpool hstep).1

/-- **Every drain ends.** From any point of a round the deliveries can be
completed, and whatever order they come in, each makes the pool lighter. -/
theorem DrainInv.exists_drain {s₀ s₁ : FpLink} (n : ℕ) : ∀ {s : FpLink} {pool : FpPool},
    DrainInv s₀ s₁ s pool → s.drainWeight pool ≤ n → ∃ t, FpLink.Drain s pool t := by
  have hdeliver : ∀ {s : FpLink} {pool : FpPool}, DrainInv s₀ s₁ s pool →
      (∀ x, pool x = []) ∨ ∃ x pre d post s', pool x = pre ++ d :: post ∧
        s.step (.deliver x d 0 0) = some s' := by
    intro s pool h
    by_cases hempty : ∀ x, pool x = []
    · exact Or.inl hempty
    · rw [not_forall] at hempty
      obtain ⟨x, hx⟩ := hempty
      obtain ⟨d, rest, hd⟩ := List.exists_cons_of_ne_nil hx
      have hsent := h.sent x d (by simp [hd])
      exact Or.inr ⟨x, [], d, rest, _, hd, by rw [FpLink.step]; exact if_pos hsent⟩
  induction n with
  | zero =>
      intro s pool h hn
      rcases hdeliver h with hempty | ⟨x, pre, d, post, s', hpool, hstep⟩
      · exact ⟨s, .done hempty⟩
      · have := (h.step hpool hstep).2
        omega
  | succ n ih =>
      intro s pool h hn
      rcases hdeliver h with hempty | ⟨x, pre, d, post, s', hpool, hstep⟩
      · exact ⟨s, .done hempty⟩
      · obtain ⟨hinv, hlt⟩ := h.step hpool hstep
        obtain ⟨t, ht⟩ := ih hinv (by omega)
        exact ⟨t, .deliver x pre d post 0 0 hpool hstep ht⟩

/-- **A round makes progress.** -/
theorem LinkInv.round {s t : FpLink} (h : LinkInv s) (ht : s.Timely) (hround : s.Round t) :
    LinkInv t ∧ t.Timely ∧ t.given = s.given ∧ ∀ x, t.backlog x ≤ s.backlog x - 1 := by
  obtain ⟨fl, fr, s₁, hl, hr, hrun, hdrain⟩ := hround
  have hp := h.pumped ht hl hr hrun
  have hinv := (DrainInv.start h ht hp).drain hdrain
  refine ⟨hinv.link, hinv.timely, hinv.given, ?_⟩
  intro x
  obtain ⟨env, fill, hnow, hfill, hpeer⟩ := hp.pump x
  obtain ⟨ds, hds, -, hfresh⟩ := fpPump_spec (h.snd x) (h.pendingFin x) env hfill
  rw [← hpeer] at hds hfresh
  have hnum := hinv.numbered x
  have htxq := hinv.txq x
  have hacked := hinv.acked x
  have hdel := hinv.delivered x.other
  have hqueue := hds.queue
  have hgrow := hds.grows.numbered.length_le
  have hle₀ := (h.snd x).le
  have hle := (hinv.link.snd x).le
  have hrcv₀ := (h.rcv x).le
  have hrcv := (hinv.link.rcv x).le
  have hbase := hinv.base x
  simp only [FpLink.backlog, htxq]
  rw [hnum] at hle hrcv ⊢
  by_cases hlive : (s.peer x).inflight = []
  · have hzero : (s.peer x).inflight.length = 0 := by rw [hlive]; rfl
    rcases Nat.eq_zero_or_pos (s.peer x).txq.length with hq | hq
    · unfold FillpPeer.ackedNum at hacked hbase
      rw [hnum] at hacked
      omega
    · have := hfresh hlive hq
      unfold FillpPeer.ackedNum at hacked hbase
      rw [hnum] at hacked
      omega
  · have hpos : 0 < (s.peer x).inflight.length := List.length_pos_of_ne_nil hlive
    rcases hinv.progress x hlive with hp' | hp' | ⟨q, hq, _⟩ | ⟨_, e, he, _⟩
    · unfold FillpPeer.ackedNum at hacked hbase
      rw [hnum] at hacked
      omega
    · unfold FillpPeer.ackedNum at hacked hbase hp'
      rw [hnum] at hacked hp'
      omega
    · cases hq
    · cases he

theorem LinkInv.exists_round {s : FpLink} (h : LinkInv s) (ht : s.Timely) :
    ∃ t, s.Round t := by
  have hl : NoData none := fun f hf => by cases hf
  obtain ⟨s₁, hrun⟩ : ∃ s₁, run FpLink.step s
      [.advance fpStallTimeoutMs, .pump .left none, .pump .right none] = some s₁ := ⟨_, rfl⟩
  obtain ⟨t, hdrain⟩ := (DrainInv.start h ht (h.pumped ht hl hl hrun)).exists_drain _
    (Nat.le_refl _)
  exact ⟨t, none, none, s₁, hl, hl, hrun, hdrain⟩

/-! ## Many rounds -/

theorem LinkInv.rounds {n : ℕ} {s t : FpLink} (hrounds : FpLink.Rounds n s t) (h : LinkInv s)
    (ht : s.Timely) :
    LinkInv t ∧ t.given = s.given ∧ ∀ x, t.backlog x ≤ s.backlog x - n := by
  induction hrounds with
  | zero s => exact ⟨h, rfl, fun x => Nat.le_refl _⟩
  | succ hround _ ih =>
      obtain ⟨h', ht', hgiven, hless⟩ := h.round ht hround
      obtain ⟨hinv, hgiven', hrest⟩ := ih h' ht'
      refine ⟨hinv, hgiven'.trans hgiven, fun x => ?_⟩
      have h₁ := hless x
      have h₂ := hrest x
      omega

theorem LinkInv.exists_rounds (n : ℕ) : ∀ {s : FpLink}, LinkInv s → s.Timely →
    ∃ t, FpLink.Rounds n s t := by
  induction n with
  | zero => intro s _ _; exact ⟨s, .zero s⟩
  | succ n ih =>
      intro s h ht
      obtain ⟨u, hround⟩ := h.exists_round ht
      obtain ⟨h', ht', -, -⟩ := h.round ht hround
      obtain ⟨t, hrest⟩ := ih h' ht'
      exact ⟨t, .succ hround hrest⟩

/-- A link without backlog has delivered everything. -/
theorem LinkInv.of_backlog_eq_zero {s : FpLink} (h : LinkInv s) {x : Side}
    (hx : s.backlog x = 0) :
    (s.peer x).txq = [] ∧ (s.peer x).inflight = [] ∧
      (s.peer x.other).delivered.flatten = s.given x := by
  unfold FpLink.backlog at hx
  have htxq : (s.peer x).txq = [] := List.length_eq_zero_iff.mp (by omega)
  have hin : (s.peer x).inflight = [] := List.length_eq_zero_iff.mp (by omega)
  have hall : (s.peer x.other).delivered = (s.peer x).numbered :=
    (h.rcv x).pre.eq_of_length_le (by omega)
  refine ⟨htxq, hin, ?_⟩
  rw [hall, ← h.given x, ← (h.snd x).stream, htxq, List.append_nil]

/-- **No stuck state.** From every state that a run with fewer than 2^31
packets reaches, some number of rounds exists and can be completed, after
which, however the rounds went, each side has emptied its queue, has nothing in
flight, and the other side has delivered every byte it was given. -/
theorem FpLink.recovers {s₀ s : FpLink} {es : List FpLinkEv} (hs : s₀.Init)
    (hrun : run FpLink.step s₀ es = some s) (hcount : s.numberedMax < 2 ^ 31) :
    ∃ n, (∃ t, FpLink.Rounds n s t) ∧ ∀ t, FpLink.Rounds n s t → ∀ x,
      (t.peer x).txq = [] ∧ (t.peer x).inflight = [] ∧
        (t.peer x.other).delivered.flatten = s.given x := by
  have h := (LinkInv.init hs).of_run hrun hcount
  have htimely : s.Timely := run_inv_all FpLink.Timely (fun _ _ _ hu he => hu.step he) hs.timely hrun
  refine ⟨max (s.backlog .left) (s.backlog .right), h.exists_rounds _ htimely, ?_⟩
  intro t hrounds x
  obtain ⟨hinv, hgiven, hless⟩ := h.rounds hrounds htimely
  have hzero : t.backlog x = 0 := by
    have := hless x
    cases x <;> omega
  rw [← hgiven]
  exact hinv.of_backlog_eq_zero hzero

/-- Recovery after the only DATA packet of a stream was lost. -/
theorem FpLink.recovers_lost_packet :
    ∃ s, run FpLink.step fpLinkStart [.advance 10, .send .left [104, 105], .pump .left none] =
        some s ∧ (s.peer .left).inflight.length = 1 ∧
      ∃ n, (∃ t, FpLink.Rounds n s t) ∧ ∀ t, FpLink.Rounds n s t → ∀ x,
        (t.peer x).txq = [] ∧ (t.peer x).inflight = [] ∧
          (t.peer x.other).delivered.flatten = s.given x := by
  obtain ⟨s, hrun, hs⟩ := Option.map_eq_some_iff.mp (show
    (run FpLink.step fpLinkStart
        [.advance 10, .send .left [104, 105], .pump .left none]).map
      (fun s => (s.numberedMax, (s.peer .left).inflight.length)) = some (1, 1) by
    decide +kernel)
  rw [Prod.mk.injEq] at hs
  exact ⟨s, hrun, hs.2, FpLink.recovers fpLinkStart_init hrun (by omega)⟩

end HwPhoneLink.Fillp
