import HwPhoneLink.Fillp.OutOfOrder
import HwPhoneLink.Fillp.Window

/-!
# Asking for the missing packet

A receiver with last in-order packet `r` asks for what lies between `r` and `r + 2`.
Under the wraparound comparison that is the packet `r + 1` and no other, whatever else
the sender has in flight, and it goes out again as it went out first.
-/

namespace HwPhoneLink.Fillp

open BigEndian Transitions

/-! ## What is in flight has been sent -/

/-- Every packet in flight has gone out, as it stands but for its clock. -/
def InflightSent (p : FillpPeer) : Prop := ∀ x ∈ p.inflight, fpPktFrame x ∈ p.sent

theorem InflightSent.congr {p p' : FillpPeer} (h : InflightSent p)
    (hin : ∀ x' ∈ p'.inflight, ∃ x ∈ p.inflight, fpPktFrame x' = fpPktFrame x)
    (hsent : p.sent <+: p'.sent) : InflightSent p' := by
  intro x' hx'
  obtain ⟨x, hx, hframe⟩ := hin x' hx'
  rw [hframe]
  exact hsent.subset (h x hx)

theorem InflightSent.sameSnd {p p' : FillpPeer} (h : InflightSent p) (hs : SameSnd p p') :
    InflightSent p' := by
  apply h.congr
  · intro x hx
    rw [hs.inflight] at hx
    exact ⟨x, hx, rfl⟩
  · exact hs.sent_grows

theorem fillpPeerSend_inflightSent {p : FillpPeer} (h : InflightSent p) (data : Bytes) :
    InflightSent (fillpPeerSend p data) := by
  unfold fillpPeerSend
  split
  · exact h
  split
  · exact h
  · exact h

theorem foldl_fillpPeerSend_inflightSent (chunks : List Bytes) : ∀ {p : FillpPeer},
    InflightSent p → InflightSent (chunks.foldl fillpPeerSend p) := by
  induction chunks with
  | nil => intro p h; exact h
  | cons c cs ih => intro p h; exact ih (fillpPeerSend_inflightSent h c)

theorem fpPumpFill_inflightSent {p : FillpPeer} (h : InflightSent p) (fill : Option FpFill) :
    InflightSent (fpPumpFill fill p) := by
  unfold fpPumpFill
  split
  · exact h
  rename_i f
  split
  · have hfold := foldl_fillpPeerSend_inflightSent f.chunks h
    simp only
    split
    · exact hfold
    · exact hfold
  · exact h

theorem fpPumpStall_inflightSent {p : FillpPeer} (h : InflightSent p) (env : FpEnv) :
    InflightSent (fpPumpStall env p) := by
  unfold fpPumpStall
  split
  · exact h
  rename_i oldest rest hin
  split
  · apply h.congr
    · intro x hx
      change x ∈ { oldest with tSentMs := env.now } :: rest at hx
      rw [hin]
      rcases List.mem_cons.mp hx with rfl | hx
      · exact ⟨oldest, List.mem_cons_self, rfl⟩
      · exact ⟨x, List.mem_cons_of_mem _ hx, rfl⟩
    · exact List.prefix_append _ _
  · exact h

theorem fpPacketize_inflightSent (env : FpEnv) (budget : ℕ) : ∀ {p : FillpPeer},
    InflightSent p → InflightSent (fpPacketize env budget p) := by
  induction budget with
  | zero => intro p h; exact h
  | succ budget ih =>
      intro p h
      unfold fpPacketize
      split
      · apply ih
        intro x hx
        change x ∈ p.inflight ++ [fpNextPkt env p] at hx
        show fpPktFrame x ∈ p.sent ++ [fpPktFrame (fpNextPkt env p)]
        rcases List.mem_append.mp hx with hx | hx
        · exact List.mem_append_left _ (h x hx)
        · rw [List.mem_singleton] at hx
          rw [hx]
          exact List.mem_append_right _ (List.mem_singleton_self _)
      · exact h

theorem fpPump_inflightSent {p : FillpPeer} (h : InflightSent p) (env : FpEnv)
    (fill : Option FpFill) : InflightSent (fpPump env fill p) := by
  have htx : InflightSent (fpPumpTx env fill p) :=
    fpPacketize_inflightSent env _ (fpPumpStall_inflightSent (fpPumpFill_inflightSent h fill) env)
  exact htx.sameSnd (fpPump_sameSnd env fill p)

theorem fpOnNack_inflightSent {p : FillpPeer} (h : InflightSent p) (env : FpEnv) (buf : Bytes) :
    InflightSent (fpOnNack env p buf) := by
  unfold fpOnNack
  split
  · exact h
  apply h.congr
  · intro x' hx'
    obtain ⟨x, hx, rfl⟩ := List.mem_map.mp hx'
    refine ⟨x, hx, ?_⟩
    split <;> rfl
  · exact List.prefix_append _ _

theorem fpOnPack_inflightSent {p : FillpPeer} (h : InflightSent p) (buf : Bytes) :
    InflightSent (fpOnPack p buf) := by
  obtain ⟨k, -, hdrop⟩ := fpOnPack_drop p buf
  apply h.congr
  · intro x hx
    rw [hdrop] at hx
    exact ⟨x, List.mem_of_mem_drop hx, rfl⟩
  · unfold fpOnPack
    split <;> exact List.prefix_refl _

theorem fpDataPlane_inflightSent {p : FillpPeer} (h : InflightSent p) (env : FpEnv)
    (buf : Bytes) : InflightSent (fpDataPlane env p buf) := by
  unfold fpDataPlane
  split
  · split
    · exact h.sameSnd (fpOnData_sameSnd env p buf)
    · exact h
  · split
    · exact fpOnNack_inflightSent h env buf
    · exact h
  · split
    · exact fpOnPack_inflightSent h buf
    · exact h
  · split
    · exact h.sameSnd (fpOnFin_sameSnd env p)
    · exact h
  · exact h

theorem fpPeerStep_inflightSent {hmacSha256 : Bytes → Bytes → Bytes} {e : FillpEngine}
    {p p' : FillpPeer} {ev : FpPeerEv} (h : InflightSent p)
    (hs : fpPeerStep hmacSha256 e p ev = some p') : InflightSent p' := by
  rcases fpPeerStep_cases hs with ⟨data, -, rfl⟩ | ⟨env, fill, -, -, rfl⟩ | ⟨env, buf, -, rfl⟩ |
    ⟨-, hsame⟩
  · exact fillpPeerSend_inflightSent h data
  · exact fpPump_inflightSent h env fill
  · exact fpDataPlane_inflightSent h env buf
  · exact h.sameSnd hsame.sameSnd

/-! ## The numbers in flight -/

/-- No two packets in flight have the same number. -/
theorem SndInv.nums_nodup {p : FillpPeer} (h : SndInv p) :
    (p.inflight.map FpPkt.pktNum).Nodup := by
  have hshort := h.inflight_lt
  rw [List.nodup_iff_injective_get]
  rintro ⟨i, hi⟩ ⟨j, hj⟩ heq
  rw [List.length_map] at hi hj
  simp only [List.get_eq_getElem, List.getElem_map] at heq
  rw [(h.pkts i _ (List.getElem?_eq_getElem hi)).num,
    (h.pkts j _ (List.getElem?_eq_getElem hj)).num] at heq
  have hij := SerialNumber.ofNat_inj (by omega) (by omega) heq
  apply Fin.ext
  show i = j
  omega

theorem filter_key_eq_singleton {α β : Type*} [DecidableEq β] (f : α → β) {l : List α} {x : α}
    (hnodup : (l.map f).Nodup) (hx : x ∈ l) : l.filter (fun y => decide (f y = f x)) = [x] := by
  induction l with
  | nil => cases hx
  | cons a l ih =>
      rw [List.map_cons, List.nodup_cons] at hnodup
      obtain ⟨hout, hnodup⟩ := hnodup
      rcases List.mem_cons.mp hx with rfl | hx
      · have hnone : l.filter (fun y => decide (f y = f x)) = [] := by
          apply List.filter_eq_nil_iff.mpr
          intro y hy
          rw [decide_eq_true_eq]
          intro heq
          exact hout (heq ▸ List.mem_map_of_mem hy)
        rw [List.filter_cons_of_pos (by simp), hnone]
      · have hne : f a ≠ f x := by
          intro heq
          exact hout (heq ▸ List.mem_map_of_mem hx)
        rw [List.filter_cons_of_neg (by simpa using hne), ih hnodup hx]

/-! ## The request -/

/-- The NACK of a receiver. -/
def fpNackOf (env : FpEnv) (q : FillpPeer) : Bytes :=
  (fillpEncodeNack (fillpHlen + fillpNackLen) .nack q.recvPktNum (q.recvPktNum + 2)
    q.recvSeqNum (env.rand1.toUInt64 <<< 32 ||| env.rand2.toUInt64)).getD []

theorem fpMaybeNack_due {env : FpEnv} {q : FillpPeer}
    (hdue : fpNackIntervalMs ≤ env.now - q.tLastNackMs) :
    fpMaybeNack env q = fpSendto { q with tLastNackMs := env.now } (fpNackOf env q) := by
  rw [fpMaybeNack, if_neg (Nat.not_lt.mpr hdue)]
  rfl

theorem fpNackOf_decode (env : FpEnv) (q : FillpPeer) :
    fillpDecodeNack (fpNackOf env q) = some ⟨q.recvPktNum, q.recvPktNum + 2, q.recvSeqNum⟩ := by
  rcases henc : fillpEncodeNack (fillpHlen + fillpNackLen) .nack q.recvPktNum (q.recvPktNum + 2)
    q.recvSeqNum (env.rand1.toUInt64 <<< 32 ||| env.rand2.toUInt64) with _ | buf
  · simp [fillpEncodeNack] at henc
  · rw [fpNackOf, henc, Option.getD_some]
    exact fillpDecodeNack_encode henc

/-- The open interval of the request holds one number. -/
theorem fpNackHits_iff (r seq : UInt32) (x : FpPkt) :
    fpNackHits ⟨r, r + 2, seq⟩ x = decide (x.pktNum = r + 1) := by
  apply Bool.eq_iff_iff.mpr
  rw [fpNackHits, Bool.and_eq_true, decide_eq_true_eq]
  constructor
  · rintro ⟨hlo, hhi⟩
    exact SerialNumber.eq_succ_of_ahead hlo hhi
  · intro heq
    have htwo : r + 2 = r + 1 + 1 := (UInt32.add_assoc r 1 1).symm
    rw [heq, htwo]
    exact ⟨SerialNumber.ahead_succ r, SerialNumber.ahead_succ (r + 1)⟩

/-- **The answer**: the packet after the last in-order one of the receiver, if it is in
flight, and nothing else. -/
theorem fpOnNack_answer (env env' : FpEnv) (p q : FillpPeer) :
    fpOnNack env' p (fpNackOf env q) = { p with
      sent := p.sent ++
        (p.inflight.filter fun x => decide (x.pktNum = q.recvPktNum + 1)).map fpPktFrame
      inflight := p.inflight.map fun x =>
        if x.pktNum = q.recvPktNum + 1 then { x with tSentMs := env'.now } else x } := by
  have hhits : fpNackHits ⟨q.recvPktNum, q.recvPktNum + 2, q.recvSeqNum⟩ =
      fun x => decide (x.pktNum = q.recvPktNum + 1) :=
    funext (fpNackHits_iff q.recvPktNum q.recvSeqNum)
  unfold fpOnNack
  rw [fpNackOf_decode]
  simp only [hhits, decide_eq_true_eq]

/-! ## The receiver moves on -/

/-- The loop ends at the packet it started from, or at one that was in the table. -/
theorem fpFlushOfo_num (n : ℕ) : ∀ {q : FillpPeer}, TableAhead 1 q →
    (fpFlushOfo n q).recvPktNum = q.recvPktNum ∨ (fpFlushOfo n q).recvPktNum ∈ q.ofo := by
  induction n with
  | zero => intro q _; exact .inl rfl
  | succ n ih =>
      intro q h
      unfold fpFlushOfo
      split
      · exact .inl rfl
      · rename_i next hnext
        right
        have hkey : next.pktNum = q.recvPktNum + 1 := h.key _ _ hnext
        have hmem : q.recvPktNum + 1 ∈ q.ofo := by
          apply AList.lookup_isSome.mp
          rw [hnext]
          rfl
        rcases ih (h.flushOne hnext) with hsame | hlater
        · rw [hsame]
          show next.pktNum ∈ q.ofo
          rw [hkey]
          exact hmem
        · exact (AList.mem_erase.mp hlater).2

theorem fpMaybePack_num (env : FpEnv) (q : FillpPeer) :
    (fpMaybePack env q).recvPktNum = q.recvPktNum := by
  unfold fpMaybePack
  split
  · rfl
  split <;> rfl

/-- **The packet that is due** moves the receiver on. -/
theorem TableAhead.advances {q : FillpPeer} (h : TableAhead 2 q) {buf : Bytes} {hd : FpHead}
    {payload : Bytes} (hdata : fpDataOf buf = some (hd, payload))
    (hnext : hd.pktNum = q.recvPktNum + 1) (env : FpEnv) :
    fpNumIsbigger (fpOnData env q buf).recvPktNum q.recvPktNum = true := by
  have haccept := h.accept hd.seqNum payload
  have hpkt : (fpOnData env q buf).recvPktNum =
      (fpFlushOfo q.ofo.entries.length
        (fpAccept q (q.recvPktNum + 1) hd.seqNum payload)).recvPktNum := by
    have hbig : fpNumIsbigger (q.recvPktNum + 1) q.recvPktNum = true :=
      SerialNumber.ahead_succ _
    rw [fpOnData, hdata]
    show (fpOnPkt env q hd payload).recvPktNum = _
    rw [fpOnPkt, hnext, hbig, if_neg (by decide), if_pos rfl]
    exact fpMaybePack_num env _
  rw [hpkt]
  rcases fpFlushOfo_num q.ofo.entries.length haccept with hsame | hlater
  · rw [hsame]
    exact SerialNumber.ahead_succ q.recvPktNum
  · obtain ⟨hlo, hhi⟩ := h.ahead _ hlater
    rw [fpNumIsbigger, SerialNumber.ahead_eq_toNat, decide_eq_true_eq]
    exact ⟨Nat.lt_of_lt_of_le Nat.zero_lt_two hlo, hhi⟩

/-! ## The table along a run -/

theorem fpMaybePack_table {q : FillpPeer} (h : TableAhead 2 q) (env : FpEnv) :
    TableAhead 2 (fpMaybePack env q) := by
  unfold fpMaybePack
  split
  · exact h
  split
  · exact h
  · exact h.congr rfl rfl

theorem fpMaybeNack_table {q : FillpPeer} (h : TableAhead 2 q) (env : FpEnv) :
    TableAhead 2 (fpMaybeNack env q) := by
  unfold fpMaybeNack
  split
  · exact h
  · exact h.congr rfl rfl

theorem fpOnData_table {q : FillpPeer} (h : TableAhead 2 q) (env : FpEnv) (buf : Bytes) :
    TableAhead 2 (fpOnData env q buf) := by
  unfold fpOnData
  split
  · exact h
  rename_i hd payload _
  unfold fpOnPkt
  split
  · split
    · exact h.congr rfl rfl
    · exact h
  rename_i hbig
  split
  · rename_i hnext
    rw [hnext]
    exact fpMaybePack_table ((h.accept hd.seqNum payload).flush _ (Nat.le_refl _)) env
  · rename_i hgap
    unfold fpBuffer
    apply fpMaybeNack_table
    split
    · exact h.insert rfl rfl (by simpa using hbig) hgap
    · exact h

theorem fpPump_table {q : FillpPeer} (h : TableAhead 2 q) (env : FpEnv) (fill : Option FpFill) :
    TableAhead 2 (fpPump env fill q) := by
  have hpre : SameRcv q (fpPumpTxComplete <| fpPacketize env fpSendBudget <|
      fpPumpStall env <| fpPumpFill fill q) :=
    (((fpPumpFill_sameRcv fill q).trans (fpPumpStall_sameRcv env _)).trans
      (fpPacketize_sameRcv env _ _)).trans (fpPumpTxComplete_sameRcv _)
  have hpacked := fpMaybePack_table (h.congr hpre.ofo hpre.num) env
  exact hpacked.congr (fpPumpReplyFin_sameRcv _).ofo (fpPumpReplyFin_sameRcv _).num

theorem fpDataPlane_table {q : FillpPeer} (h : TableAhead 2 q) (env : FpEnv) (buf : Bytes) :
    TableAhead 2 (fpDataPlane env q buf) := by
  have hsame : ∀ {q' : FillpPeer}, SameRcv q q' → TableAhead 2 q' :=
    fun hs => h.congr hs.ofo hs.num
  unfold fpDataPlane
  split
  · split
    · exact fpOnData_table h env buf
    · exact h
  · split
    · exact hsame (fpOnNack_sameRcv env q buf)
    · exact h
  · split
    · exact hsame (fpOnPack_sameRcv q buf)
    · exact h
  · split
    · exact hsame (fpOnFin_sameRcv env q)
    · exact h
  · exact h

theorem fpPeerStep_table {hmacSha256 : Bytes → Bytes → Bytes} {e : FillpEngine}
    {q q' : FillpPeer} {ev : FpPeerEv} (h : TableAhead 2 q)
    (hs : fpPeerStep hmacSha256 e q ev = some q') : TableAhead 2 q' := by
  rcases fpPeerStep_cases hs with ⟨data, -, rfl⟩ | ⟨env, fill, -, -, rfl⟩ | ⟨env, buf, -, rfl⟩ |
    ⟨-, hsame⟩
  · have hrcv := fillpPeerSend_sameRcv q data
    exact h.congr hrcv.ofo hrcv.num
  · exact fpPump_table h env fill
  · exact fpDataPlane_table h env buf
  · exact h.congr (by rw [hsame.fields]) (by rw [hsame.fields])

/-! ## The missing packet -/

/-- **A NACK brings the missing packet**, and nothing else. The sender and the receiver
are in any states of their runs; the last in-order number of the receiver is any number. -/
theorem nack_resends_missing {hmacSha256 : Bytes → Bytes → Bytes} {e e' : FillpEngine}
    {p₀ p q₀ q : FillpPeer} {es fs : List FpPeerEv} (hp₀ : StartingPeer p₀)
    (hp : run (fpPeerStep hmacSha256 e) p₀ es = some p) (hq₀ : q₀.ofo = ∅)
    (hq : run (fpPeerStep hmacSha256 e') q₀ fs = some q) (hest : p.state = .established)
    (hopen : q.state = .established ∨ q.state = .closing) {env : FpEnv}
    (hdue : fpNackIntervalMs ≤ env.now - q.tLastNackMs) (envp envq : FpEnv) :
    ∃ nack, (fpMaybeNack env q).sent = q.sent ++ [nack] ∧
      (∀ x ∈ p.inflight, x.pktNum = q.recvPktNum + 1 →
        (fpReceive hmacSha256 envp e p nack).sent = p.sent ++ [fpPktFrame x] ∧
        fpPktFrame x ∈ p.sent ∧
        fpDataOf (fpPktFrame x) =
          some (⟨1, 0, UInt16.ofNat x.len, x.pktNum, x.seqNum⟩, x.data) ∧
        fpNumIsbigger (fpReceive hmacSha256 envq e' (fpMaybeNack env q)
          (fpPktFrame x)).recvPktNum q.recvPktNum = true) ∧
      ((∀ x ∈ p.inflight, x.pktNum ≠ q.recvPktNum + 1) →
        fpReceive hmacSha256 envp e p nack = p) := by
  have hsnd : SndInv p := fpPeerRun_sndInv hp₀ hp
  have hsent : InflightSent p := by
    refine run_inv_all InflightSent (fun _ _ _ h hs => fpPeerStep_inflightSent h hs) ?_ hp
    intro x hx
    rw [hp₀.inflight] at hx
    cases hx
  have htable : TableAhead 2 q :=
    run_inv_all (TableAhead 2) (fun _ _ _ h hs => fpPeerStep_table h hs)
      (TableAhead.of_empty hq₀ 2) hq
  have hanswer : fpReceive hmacSha256 envp e p (fpNackOf env q) =
      fpOnNack envp p (fpNackOf env q) := by
    have htype : fpTypeOf (fpNackOf env q) = some .nack := fpTypeOf_nack _ _ _ _
    simp only [fpReceive, fpDataPlane, htype, if_pos hest]
  refine ⟨fpNackOf env q, ?_, ?_, ?_⟩
  · rw [fpMaybeNack_due hdue]
    rfl
  · intro x hx hnum
    obtain ⟨i, hi⟩ := List.mem_iff_getElem?.mp hx
    have hpkt := hsnd.pkts i x hi
    have hsize := (hsnd.sizes x.data (List.mem_of_getElem? hpkt.data)).2
    have hdata := fpDataOf_pktFrame hpkt.len (hpkt.len ▸ hsize)
    have honly := filter_key_eq_singleton FpPkt.pktNum hsnd.nums_nodup hx
    refine ⟨?_, hsent x hx, hdata, ?_⟩
    · rw [hanswer, fpOnNack_answer]
      show p.sent ++ _ = _
      rw [← hnum, honly]
      rfl
    · have hstate : (fpMaybeNack env q).state = .established ∨
          (fpMaybeNack env q).state = .closing := by
        rw [fpMaybeNack_due hdue]
        exact hopen
      have hplane : fpReceive hmacSha256 envq e' (fpMaybeNack env q) (fpPktFrame x) =
          fpOnData envq (fpMaybeNack env q) (fpPktFrame x) := by
        simp only [fpReceive, fpDataPlane, fpTypeOf_pktFrame, if_pos hstate]
      rw [hplane, fpMaybeNack_due hdue]
      have hasked : TableAhead 2 (fpSendto { q with tLastNackMs := env.now } (fpNackOf env q)) :=
        htable.congr rfl rfl
      exact hasked.advances hdata hnum envq
  · intro hnone
    have hempty : p.inflight.filter (fun x => decide (x.pktNum = q.recvPktNum + 1)) = [] := by
      apply List.filter_eq_nil_iff.mpr
      intro x hx
      simpa using hnone x hx
    have hkept : (p.inflight.map fun x =>
        if x.pktNum = q.recvPktNum + 1 then { x with tSentMs := envp.now } else x) =
        p.inflight := by
      refine (List.map_congr_left ?_).trans (List.map_id _)
      intro x hx
      exact if_neg (hnone x hx)
    rw [hanswer, fpOnNack_answer, hempty, hkept, List.map_nil, List.append_nil]

/-- Packet 1 is in flight, and a receiver that has nothing asks for it. -/
theorem nack_resends_missing_first :
    ∃ p x nack, run (fpPeerStep strayHmac (pairEngine .left)) (pairStart.peer .left)
        [.send [104, 105], .tick runEnv none] = some p ∧
      x ∈ p.inflight ∧
      (fpReceive strayHmac runEnv (pairEngine .left) p nack).sent = p.sent ++ [fpPktFrame x] ∧
      fpNumIsbigger (fpReceive strayHmac runEnv (pairEngine .right)
        (fpMaybeNack runEnv (pairStart.peer .right)) (fpPktFrame x)).recvPktNum 0 = true := by
  have houtcome : (run (fpPeerStep strayHmac (pairEngine .left)) (pairStart.peer .left)
      [.send [104, 105], .tick runEnv none]).map (fun p => (p.state, p.inflight)) =
      some (.established, [⟨1, 2, 2, 100, [104, 105]⟩]) := by decide +kernel
  obtain ⟨p, hp, hvalues⟩ := Option.map_eq_some_iff.mp houtcome
  rw [Prod.mk.injEq] at hvalues
  obtain ⟨hest, hin⟩ := hvalues
  have hq : run (fpPeerStep strayHmac (pairEngine .right)) (pairStart.peer .right) [] =
      some (pairStart.peer .right) := rfl
  have hdue : fpNackIntervalMs ≤ runEnv.now - (pairStart.peer .right).tLastNackMs := by decide
  obtain ⟨nack, -, hresent, -⟩ := nack_resends_missing (pairStart_init.starting .left) hp rfl hq
    hest (.inl rfl) hdue runEnv runEnv
  have hmem : (⟨1, 2, 2, 100, [104, 105]⟩ : FpPkt) ∈ p.inflight := by
    rw [hin]
    exact List.mem_singleton_self _
  obtain ⟨hsent, -, -, hadvance⟩ := hresent _ hmem rfl
  exact ⟨p, _, nack, hp, hmem, hsent, hadvance⟩

end HwPhoneLink.Fillp
