import HwPhoneLink.Fillp.Receiver
import HwPhoneLink.Lib.Table
import HwPhoneLink.Lib.Transitions

/-!
# The out-of-order table

`fp_on_data` buffers what is ahead of the next packet and flushes what has come
in order, and counts the buffered bytes in `ofo_bytes`. The counter is right as
long as no buffered packet is buffered again: `g_hash_table_replace` frees the
old copy, but its bytes stay counted (`ofo_accounted_iff`).
-/

namespace HwPhoneLink.Fillp

open BigEndian Transitions Table

/-- The length of a buffered packet. -/
def ofoLen (e : Sigma fun _ : UInt32 => FpPkt) : ℕ := e.2.len

/-- The bytes that the table holds. -/
def FillpPeer.ofoTotal (p : FillpPeer) : ℕ := total ofoLen p.ofo

/-- The counter is the content of the table, and the table lies ahead. -/
structure OfoAccounted (p : FillpPeer) : Prop where
  bytes : p.ofoBytes = p.ofoTotal
  cap : p.ofoBytes ≤ fpOfoMaxBytes
  empty : p.ofo = ∅ → p.ofoBytes = 0
  ahead : ∀ k ∈ p.ofo, fpNumIsbigger k (p.recvPktNum + 1) = true

/-- One DATA datagram on an established peer. -/
def fpDataStep (p : FillpPeer) (d : FpEnv × Bytes) : Option FillpPeer := some (fpOnData d.1 p d.2)

/-- The datagram is buffered where a packet with bytes is buffered already. -/
def Rebuffers (p : FillpPeer) (d : FpEnv × Bytes) : Prop :=
  ∃ h payload old, fpDataOf d.2 = some (h, payload) ∧
    fpNumIsbigger h.pktNum p.recvPktNum = true ∧ h.pktNum ≠ p.recvPktNum + 1 ∧
    p.ofoBytes + h.dataLen.toNat ≤ fpOfoMaxBytes ∧
    p.ofo.lookup h.pktNum = some old ∧ 0 < old.len

/-! ## The numbers in the table

Whatever datagrams arrive, an entry stands under the number of its packet, and ahead of
the packet that is due. The distance is 2 between datagrams and 1 inside the flush loop,
when the packet that is due may be in the table.
-/

structure TableAhead (gap : ℕ) (p : FillpPeer) : Prop where
  key : ∀ k q, p.ofo.lookup k = some q → q.pktNum = k
  ahead : ∀ k ∈ p.ofo, gap ≤ (k - p.recvPktNum).toNat ∧ (k - p.recvPktNum).toNat < 2 ^ 31

theorem TableAhead.congr {gap : ℕ} {p p' : FillpPeer} (h : TableAhead gap p)
    (hofo : p'.ofo = p.ofo) (hnum : p'.recvPktNum = p.recvPktNum) : TableAhead gap p' := by
  constructor
  · rw [hofo]
    exact h.key
  · rw [hofo, hnum]
    exact h.ahead

theorem TableAhead.of_empty {p : FillpPeer} (h : p.ofo = ∅) (gap : ℕ) : TableAhead gap p := by
  constructor
  · intro k q hq
    rw [h, AList.lookup_empty] at hq
    cases hq
  · intro k hk
    rw [h] at hk
    cases hk

/-- The next packet is delivered: what was two ahead may now be next. -/
theorem TableAhead.accept {p : FillpPeer} (h : TableAhead 2 p) (seqNum : UInt32)
    (data : Bytes) : TableAhead 1 (fpAccept p (p.recvPktNum + 1) seqNum data) := by
  constructor
  · exact h.key
  · intro k hk
    obtain ⟨hlo, hhi⟩ := h.ahead k hk
    show 1 ≤ (k - (p.recvPktNum + 1)).toNat ∧ (k - (p.recvPktNum + 1)).toNat < 2 ^ 31
    rw [SerialNumber.sub_succ_toNat (Nat.le_of_succ_le hlo)]
    omega

theorem TableAhead.flushOne {p : FillpPeer} (h : TableAhead 1 p) {next : FpPkt}
    (hnext : p.ofo.lookup (p.recvPktNum + 1) = some next) : TableAhead 1 (fpFlushOne p next) := by
  have hkey : next.pktNum = p.recvPktNum + 1 := h.key _ _ hnext
  constructor
  · intro k q hq
    change (p.ofo.erase (p.recvPktNum + 1)).lookup k = some q at hq
    by_cases hk : k = p.recvPktNum + 1
    · rw [hk, AList.lookup_erase] at hq
      cases hq
    · rw [AList.lookup_erase_ne hk] at hq
      exact h.key k q hq
  · intro k hk
    change k ∈ p.ofo.erase (p.recvPktNum + 1) at hk
    obtain ⟨hne, hmem⟩ := AList.mem_erase.mp hk
    obtain ⟨hlo, hhi⟩ := h.ahead k hmem
    show 1 ≤ (k - next.pktNum).toNat ∧ (k - next.pktNum).toNat < 2 ^ 31
    rw [ne_eq, SerialNumber.eq_succ_iff] at hne
    rw [hkey, SerialNumber.sub_succ_toNat hlo]
    omega

/-- The loop ends with the next packet missing. -/
theorem TableAhead.flush (n : ℕ) : ∀ {p : FillpPeer}, TableAhead 1 p → p.ofo.entries.length ≤ n →
    TableAhead 2 (fpFlushOfo n p) := by
  induction n with
  | zero =>
      intro p _ hn
      have hentries : p.ofo.entries = [] := List.length_eq_zero_iff.mp (Nat.le_zero.mp hn)
      exact TableAhead.of_empty (AList.ext hentries) 2
  | succ n ih =>
      intro p h hn
      unfold fpFlushOfo
      split
      · rename_i hnone
        refine ⟨h.key, ?_⟩
        intro k hk
        obtain ⟨hlo, hhi⟩ := h.ahead k hk
        have hne : k ≠ p.recvPktNum + 1 := by
          rintro rfl
          exact AList.lookup_eq_none.mp hnone hk
        rw [ne_eq, SerialNumber.eq_succ_iff] at hne
        omega
      · rename_i next hnext
        have hentries := fpFlushOne_entries hnext
        exact ih (h.flushOne hnext) (by omega)

/-- What `fp_on_data` buffers. -/
def fpBuffered (h : FpHead) (payload : Bytes) : FpPkt where
  pktNum := h.pktNum
  seqNum := h.seqNum
  len := h.dataLen.toNat
  tSentMs := 0
  data := payload

theorem TableAhead.insert {p p' : FillpPeer} (h : TableAhead 2 p) {hd : FpHead} {payload : Bytes}
    (hofo : p'.ofo = p.ofo.insert hd.pktNum (fpBuffered hd payload))
    (hnum : p'.recvPktNum = p.recvPktNum)
    (hahead : fpNumIsbigger hd.pktNum p.recvPktNum = true)
    (hgap : hd.pktNum ≠ p.recvPktNum + 1) : TableAhead 2 p' := by
  constructor
  · intro k q hq
    rw [hofo] at hq
    by_cases hk : k = hd.pktNum
    · subst hk
      rw [AList.lookup_insert] at hq
      cases hq
      rfl
    · rw [AList.lookup_insert_ne hk] at hq
      exact h.key k q hq
  · intro k hk
    rw [hofo] at hk
    rw [hnum]
    rcases (AList.mem_insert p.ofo).mp hk with rfl | hmem
    · rw [fpNumIsbigger, SerialNumber.ahead_eq_toNat, decide_eq_true_eq] at hahead
      rw [ne_eq, SerialNumber.eq_succ_iff] at hgap
      omega
    · exact h.ahead k hmem

/-! ## The invariant -/

/-- The invariant with a distance: 2 between datagrams, 1 inside the flush loop,
when the next packet may be in the table. -/
structure OfoInv (gap : ℕ) (p : FillpPeer) : Prop where
  bytes : p.ofoBytes = p.ofoTotal
  cap : p.ofoBytes ≤ fpOfoMaxBytes
  key : ∀ k q, p.ofo.lookup k = some q → q.pktNum = k
  ahead : ∀ k ∈ p.ofo, gap ≤ (k - p.recvPktNum).toNat ∧ (k - p.recvPktNum).toNat < 2 ^ 31

theorem OfoInv.table {gap : ℕ} {p : FillpPeer} (h : OfoInv gap p) : TableAhead gap p :=
  ⟨h.key, h.ahead⟩

theorem OfoInv.accounted {p : FillpPeer} (h : OfoInv 2 p) : OfoAccounted p := by
  constructor
  · exact h.bytes
  · exact h.cap
  · intro hempty
    rw [h.bytes, FillpPeer.ofoTotal, hempty, total_empty]
  · intro k hk
    obtain ⟨hlo, hhi⟩ := h.ahead k hk
    have hnext := SerialNumber.sub_succ_toNat (Nat.le_of_succ_le hlo)
    rw [fpNumIsbigger, SerialNumber.ahead_eq_toNat, decide_eq_true_eq, hnext]
    omega

/-- What the invariant looks at. -/
theorem OfoInv.congr {gap : ℕ} {p p' : FillpPeer} (h : OfoInv gap p) (hofo : p'.ofo = p.ofo)
    (hbytes : p'.ofoBytes = p.ofoBytes) (hnum : p'.recvPktNum = p.recvPktNum) :
    OfoInv gap p' := by
  have htable := h.table.congr hofo hnum
  constructor
  · rw [hbytes, FillpPeer.ofoTotal, hofo]
    exact h.bytes
  · rw [hbytes]
    exact h.cap
  · exact htable.key
  · exact htable.ahead

theorem fpSendPack_ofo {gap : ℕ} {p : FillpPeer} (h : OfoInv gap p) (env : FpEnv) :
    OfoInv gap (fpSendPack env p) :=
  h.congr rfl rfl rfl

theorem fpMaybePack_ofo {gap : ℕ} {p : FillpPeer} (h : OfoInv gap p) (env : FpEnv) :
    OfoInv gap (fpMaybePack env p) := by
  unfold fpMaybePack
  split
  · exact h
  split
  · exact h
  · exact fpSendPack_ofo h env

theorem fpMaybeNack_ofo {gap : ℕ} {p : FillpPeer} (h : OfoInv gap p) (env : FpEnv) :
    OfoInv gap (fpMaybeNack env p) := by
  unfold fpMaybeNack
  split
  · exact h
  · exact h.congr rfl rfl rfl

/-! ## In order -/

theorem fpAccept_ofo {p : FillpPeer} (h : OfoInv 2 p) (seqNum : UInt32) (data : Bytes) :
    OfoInv 1 (fpAccept p (p.recvPktNum + 1) seqNum data) := by
  have htable := h.table.accept seqNum data
  exact ⟨h.bytes, h.cap, htable.key, htable.ahead⟩

theorem fpFlushOne_ofo {p : FillpPeer} (h : OfoInv 1 p) {next : FpPkt}
    (hnext : p.ofo.lookup (p.recvPktNum + 1) = some next) : OfoInv 1 (fpFlushOne p next) := by
  have hflush := h.table.flushOne hnext
  have htotal : p.ofoTotal = next.len + total ofoLen (p.ofo.erase (p.recvPktNum + 1)) :=
    total_erase ofoLen hnext
  have hbytes : p.ofoBytes - next.len = total ofoLen (p.ofo.erase (p.recvPktNum + 1)) := by
    rw [h.bytes, htotal]
    omega
  constructor
  · exact hbytes
  · exact Nat.le_trans (Nat.sub_le _ _) h.cap
  · exact hflush.key
  · exact hflush.ahead

/-- The loop keeps the count. -/
theorem fpFlushOfo_ofo (n : ℕ) : ∀ {p : FillpPeer}, OfoInv 1 p → p.ofo.entries.length ≤ n →
    OfoInv 2 (fpFlushOfo n p) := by
  induction n with
  | zero =>
      intro p h hn
      have htable := h.table.flush 0 hn
      exact ⟨h.bytes, h.cap, htable.key, htable.ahead⟩
  | succ n ih =>
      intro p h hn
      have htable := h.table.flush (n + 1) hn
      unfold fpFlushOfo at htable ⊢
      split
      · rename_i hnone
        simp only [hnone] at htable
        exact ⟨h.bytes, h.cap, htable.key, htable.ahead⟩
      · rename_i next hnext
        have hentries := fpFlushOne_entries hnext
        exact ih (fpFlushOne_ofo h hnext) (by omega)

/-! ## Behind a gap -/

theorem fpBuffer_ofo {p : FillpPeer} (hinv : OfoInv 2 p) (env : FpEnv) (h : FpHead)
    (payload : Bytes) (hahead : fpNumIsbigger h.pktNum p.recvPktNum = true)
    (hgap : h.pktNum ≠ p.recvPktNum + 1)
    (hfirst : p.ofoBytes + h.dataLen.toNat ≤ fpOfoMaxBytes →
      ∀ old, p.ofo.lookup h.pktNum = some old → old.len = 0) :
    OfoInv 2 (fpBuffer env p h payload) := by
  unfold fpBuffer
  refine fpMaybeNack_ofo ?_ env
  split
  · rename_i hroom
    have htable : TableAhead 2 { p with
        ofo := p.ofo.insert h.pktNum (fpBuffered h payload)
        ofoBytes := p.ofoBytes + h.dataLen.toNat } := hinv.table.insert rfl rfl hahead hgap
    constructor
    · show p.ofoBytes + h.dataLen.toNat =
        total ofoLen (p.ofo.insert h.pktNum (fpBuffered h payload))
      rw [total_insert, hinv.bytes]
      show p.ofoTotal + h.dataLen.toNat = h.dataLen.toNat + total ofoLen (p.ofo.erase h.pktNum)
      rcases hold : p.ofo.lookup h.pktNum with _ | old
      · rw [total_erase_of_none ofoLen hold, Nat.add_comm]
        rfl
      · have htotal : p.ofoTotal = old.len + total ofoLen (p.ofo.erase h.pktNum) :=
          total_erase ofoLen hold
        rw [htotal, hfirst hroom old hold]
        omega
    · exact hroom
    · exact htable.key
    · exact htable.ahead
  · exact hinv

/-- **One datagram** keeps the invariant, unless it is buffered a second time. -/
theorem fpOnData_ofo {p : FillpPeer} (hinv : OfoInv 2 p) {d : FpEnv × Bytes}
    (hok : ¬ Rebuffers p d) : OfoInv 2 (fpOnData d.1 p d.2) := by
  unfold fpOnData
  split
  · exact hinv
  rename_i h payload hdata
  unfold fpOnPkt
  split
  · split
    · exact fpSendPack_ofo hinv d.1
    · exact hinv
  rename_i hbig
  have hahead : fpNumIsbigger h.pktNum p.recvPktNum = true := by simpa using hbig
  split
  · rename_i hnext
    rw [hnext]
    exact fpMaybePack_ofo (fpFlushOfo_ofo _ (fpAccept_ofo hinv h.seqNum payload)
      (Nat.le_refl _)) d.1
  · rename_i hgap
    refine fpBuffer_ofo hinv d.1 h payload hahead hgap ?_
    intro hroom old hold
    by_contra hlen
    exact hok ⟨h, payload, old, hdata, hahead, hgap, hroom, hold, Nat.pos_of_ne_zero hlen⟩

/-! ## The counter runs away -/

/-- A packet that is buffered again is counted twice. -/
theorem Rebuffers.miscounts {p : FillpPeer} {d : FpEnv × Bytes} (hbytes : p.ofoBytes = p.ofoTotal)
    (h : Rebuffers p d) : (fpOnData d.1 p d.2).ofoBytes ≠ (fpOnData d.1 p d.2).ofoTotal := by
  obtain ⟨hd, payload, old, hdata, hahead, hgap, hroom, hold, hlen⟩ := h
  have hpkt : fpOnData d.1 p d.2 = fpBuffer d.1 p hd payload := by
    rw [fpOnData, hdata]
    simp [fpOnPkt, hahead, hgap]
  have hcount : (fpBuffer d.1 p hd payload).ofoBytes = p.ofoBytes + hd.dataLen.toNat := by
    unfold fpBuffer fpMaybeNack
    rw [if_pos hroom]
    split <;> rfl
  have htable : (fpBuffer d.1 p hd payload).ofoTotal =
      total ofoLen (p.ofo.insert hd.pktNum (fpBuffered hd payload)) := by
    unfold fpBuffer fpMaybeNack
    rw [if_pos hroom]
    split <;> rfl
  have htotal : p.ofoTotal = old.len + total ofoLen (p.ofo.erase hd.pktNum) :=
    total_erase ofoLen hold
  have hnew : ofoLen ⟨hd.pktNum, fpBuffered hd payload⟩ = hd.dataLen.toNat := rfl
  rw [hpkt, hcount, htable, total_insert, hnew, hbytes, htotal]
  omega

/-! ## Whole sequences -/

/-- **The out-of-order table is accounted for** along a sequence of DATA
datagrams if and only if none of them is buffered where a packet with bytes is
buffered already. -/
theorem ofo_accounted_iff {p : FillpPeer} (hempty : p.ofo = ∅) (hzero : p.ofoBytes = 0)
    (ds : List (FpEnv × Bytes)) :
    (∀ pre, pre <+: ds → ∀ t, run fpDataStep p pre = some t → OfoAccounted t) ↔
      Meets fpDataStep (fun q d => ¬ Rebuffers q d) p ds := by
  refine good_iff_meets (OfoInv 2) ?_ ?_ ?_ ?_
  · intro q hq
    exact hq.accounted
  · intro q d q' hq hok hstep
    cases hstep
    exact fpOnData_ofo hq hok
  · intro q d hq hagain
    refine ⟨fpOnData d.1 q d.2, rfl, ?_⟩
    intro hgood
    exact (not_not.mp hagain).miscounts hq.bytes hgood.bytes
  · constructor
    · rw [hzero, FillpPeer.ofoTotal, hempty, total_empty]
    · rw [hzero]
      exact Nat.zero_le _
    · intro k q hq
      rw [hempty, AList.lookup_empty] at hq
      cases hq
    · intro k hk
      rw [hempty] at hk
      cases hk

/-! ## Three packets -/

def ofoEnv : FpEnv where
  now := 100
  nowUs := 100000
  rand1 := 0
  rand2 := 0

/-- A peer that has just been established. -/
def ofoPeer : FillpPeer := fpPeerEstablished ofoEnv (fpPeerNew ofoEnv false)

/-- A DATA datagram of one byte. -/
def ofoData (num : UInt32) : FpEnv × Bytes :=
  (ofoEnv, fpPktFrame { pktNum := num, seqNum := num, len := 1, tSentMs := 0, data := [7] })

/-- The number of the datagram is not in the table. -/
def ofoIsNew (p : FillpPeer) (d : FpEnv × Bytes) : Bool :=
  (fpDataOf d.2).all fun x => (p.ofo.lookup x.1.pktNum).isNone

theorem ofoIsNew_not_rebuffers (p : FillpPeer) (d : FpEnv × Bytes) (h : ofoIsNew p d = true) :
    ¬ Rebuffers p d := by
  rintro ⟨hd, payload, old, hdata, -, -, -, hold, -⟩
  rw [ofoIsNew, hdata, Option.all_some, hold] at h
  cases h

/-- Packets 3, 2, 1 and 3 again: the repeated one comes when it has been delivered. -/
theorem ofo_accounted_late_duplicate :
    ∃ t, run fpDataStep ofoPeer [ofoData 3, ofoData 2, ofoData 1, ofoData 3] = some t ∧
      OfoAccounted t := by
  have hall : ∀ pre, pre <+: [ofoData 3, ofoData 2, ofoData 1, ofoData 3] →
      ∀ t, run fpDataStep ofoPeer pre = some t → OfoAccounted t :=
    (ofo_accounted_iff rfl rfl _).mpr (meets_of_test ofoIsNew_not_rebuffers _ (by decide))
  refine ⟨_, rfl, ?_⟩
  exact hall _ (List.prefix_refl _) _ rfl

/-- Packet 2 twice, then packet 1: the table is empty and one byte stays counted. -/
theorem not_ofo_accounted_duplicate :
    ¬ ∀ pre, pre <+: [ofoData 2, ofoData 2, ofoData 1] →
      ∀ t, run fpDataStep ofoPeer pre = some t → OfoAccounted t := by
  intro hall
  have hlast := hall _ (List.prefix_refl _) _ rfl
  have hzero := hlast.empty (AList.ext rfl)
  exact absurd hzero (by decide)

end HwPhoneLink.Fillp
