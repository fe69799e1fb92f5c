import HwPhoneLink.DFile.Decoders

/-!
# The outputs of a rejected frame

The header of the decoders promises that the outputs are untouched on failure. The setting
and the data decoder keep this; the others clear the returned array first and write header
fields before their last check. Exactly when an output is changed is stated over all calls.
-/

namespace HwPhoneLink.DFile

open BigEndian Path

/-! ## The decoders without a loop over entries -/

def idlistWritten (frame : Bytes) (expectType : DFileFrameType) (o : IdlistOut) : IdlistOut :=
  let o := { o with ids := store o.ids none, n := store o.n 0 }
  match framePayload frame expectType with
  | none => o
  | some (h, p) =>
      if p.length % 2 ≠ 0 then o
      else { o with transId := store o.transId h.transId, flag := store o.flag h.flag }

theorem dfileDecodeIdlistInto_spec (frame : Bytes) (expectType : DFileFrameType) (o : IdlistOut)
    (hids : o.ids ≠ none) (hn : o.n ≠ none) :
    (dfileDecodeIdlistInto frame expectType o).Returns (dfileDecodeIdlist frame expectType)
      (idlistWritten frame expectType o) (fun m =>
        ⟨store o.transId m.transId, store o.flag m.flag, store o.ids (arrayOf m.ids),
          store o.n m.ids.length⟩) ∧
      ∀ u ∈ (dfileDecodeIdlistInto frame expectType o).used, u.1 + u.2 ≤ frame.length := by
  have hptr : ¬ (o.ids = none ∨ o.n = none) := by
    rintro (h | h)
    · exact hids h
    · exact hn h
  cases hp : framePayload frame expectType with
  | none =>
      simp only [Decoded.Returns, dfileDecodeIdlist, dfileDecodeIdlistInto, if_neg hptr, hp, Option.bind_none,
        idlistWritten, true_and]
      exact headerUsed_inside frame
  | some hpay =>
      obtain ⟨h, p⟩ := hpay
      simp only [Decoded.Returns, dfileDecodeIdlist, dfileDecodeIdlistInto, if_neg hptr, hp, Option.bind_some,
        idlistWritten]
      by_cases hodd : p.length % 2 ≠ 0
      · simp only [if_pos hodd, true_and]
        exact headerUsed_inside frame
      by_cases hmax : p.length / 2 > dfileMaxFileNum
      · simp only [if_neg hodd, if_pos hmax, true_and]
        exact headerUsed_inside frame
      obtain ⟨hwords, hok⟩ := Reader.u16s_of_le (p.length / 2) (r := Reader.init p) rfl
        (by rw [Reader.init_pos]; omega)
      have hids : ((Reader.init p).u16s (p.length / 2)).1 = wordsAt p 0 (p.length / 2) := hwords
      simp only [if_neg hodd, if_neg hmax, hok, hids, Bool.true_eq_false, if_false, store_store,
        wordsAt_length, and_self, true_and]
      exact readerUsed_inside hp _

def rstWritten (frame : Bytes) (o : RstOut) : RstOut :=
  let o := { o with ids := store o.ids none, n := store o.n 0 }
  match framePayload frame .rst with
  | none => o
  | some (h, p) =>
      if p.length < 2 ∨ p.length % 2 ≠ 0 then o
      else { o with transId := store o.transId h.transId, code := store o.code (u16At p 0) }

theorem dfileDecodeRstInto_spec (frame : Bytes) (o : RstOut) (hcode : o.code ≠ none)
    (hids : o.ids ≠ none) (hn : o.n ≠ none) :
    (dfileDecodeRstInto frame o).Returns (dfileDecodeRst frame) (rstWritten frame o) (fun m =>
      ⟨store o.transId m.transId, store o.code m.code, store o.ids (arrayOf m.ids),
        store o.n m.ids.length⟩) ∧
      ∀ u ∈ (dfileDecodeRstInto frame o).used, u.1 + u.2 ≤ frame.length := by
  have hptr : ¬ (o.code = none ∨ o.ids = none ∨ o.n = none) := by
    rintro (h | h | h)
    · exact hcode h
    · exact hids h
    · exact hn h
  cases hp : framePayload frame .rst with
  | none =>
      simp only [Decoded.Returns, dfileDecodeRst, dfileDecodeRstInto, if_neg hptr, hp, Option.bind_none,
        rstWritten, true_and]
      exact headerUsed_inside frame
  | some hpay =>
      obtain ⟨h, p⟩ := hpay
      simp only [Decoded.Returns, dfileDecodeRst, dfileDecodeRstInto, if_neg hptr, hp, Option.bind_some, rstWritten]
      by_cases hshape : p.length < 2 ∨ p.length % 2 ≠ 0
      · simp only [if_pos hshape, true_and]
        exact headerUsed_inside frame
      obtain ⟨r, hr, hok, hpos⟩ := Reader.u16_step (r := Reader.init p) (k := 0) ⟨rfl, rfl⟩
        (by omega)
      by_cases hmax : (p.length - 2) / 2 > dfileMaxFileNum
      · simp only [if_neg hshape, hr, if_pos hmax, true_and]
        exact readerUsed_inside hp r
      obtain ⟨hwords, hok'⟩ := Reader.u16s_of_le ((p.length - 2) / 2) hok (by omega)
      have hids : (r.u16s ((p.length - 2) / 2)).1 = wordsAt p 2 ((p.length - 2) / 2) := by
        rw [hwords, hpos]
        rfl
      simp only [if_neg hshape, hr, if_neg hmax, hok', hids, Bool.true_eq_false, if_false,
        store_store, wordsAt_length, and_self, true_and]
      exact readerUsed_inside hp _

theorem dfileDecodeDataInto_spec (frame : Bytes) (o : DataOut) :
    (dfileDecodeDataInto frame o).Returns (dfileDecodeData frame) o (fun m =>
      ⟨store o.transId m.transId, store o.flag m.flag, store o.fileId m.fileId,
        store o.blockSeq m.blockSeq, store o.payload m.payload,
        store o.payloadLen m.payload.length⟩) ∧
      ∀ u ∈ (dfileDecodeDataInto frame o).used, u.1 + u.2 ≤ frame.length := by
  cases hp : framePayload frame .fileData with
  | none =>
      simp only [Decoded.Returns, dfileDecodeData, dfileDecodeDataInto, hp, Option.bind_none, true_and]
      exact headerUsed_inside frame
  | some hpay =>
      obtain ⟨h, p⟩ := hpay
      simp only [Decoded.Returns, dfileDecodeData, dfileDecodeDataInto, hp, Option.bind_some]
      by_cases hshort : p.length < 6
      · simp only [if_pos hshort, true_and]
        exact headerUsed_inside frame
      obtain ⟨r1, h1, s1⟩ := Reader.u16_step (r := Reader.init p) (k := 0) ⟨rfl, rfl⟩ (by omega)
      obtain ⟨r2, h2, hok, hpos⟩ := Reader.u32_step s1 (by omega)
      obtain ⟨hsize, hlen, -⟩ := framePayload_length hp
      simp only [if_neg hshort, h1, h2, hok, hpos, Bool.true_eq_false, if_false, List.length_drop,
        and_self, true_and]
      intro u hu
      rcases List.mem_append.mp hu with hu | hu
      · exact readerUsed_inside hp r2 u hu
      · rw [List.mem_singleton.mp hu]
        dsimp only
        omega

theorem dfileDecodeSettingInto_spec (frame : Bytes) (old : DFileSetting) :
    (dfileDecodeSettingInto frame (some old)).Returns (dfileDecodeSetting frame) (some old) some ∧
      ∀ u ∈ (dfileDecodeSettingInto frame (some old)).used, u.1 + u.2 ≤ frame.length := by
  cases hp : framePayload frame .setting with
  | none =>
      simp only [Decoded.Returns, dfileDecodeSetting, dfileDecodeSettingInto, hp, Option.bind_none, true_and]
      exact headerUsed_inside frame
  | some hpay =>
      obtain ⟨h, p⟩ := hpay
      simp only [Decoded.Returns, dfileDecodeSetting, dfileDecodeSettingInto, hp, Option.bind_some]
      by_cases hlen : p.length ≠ dfileSettingPayloadLen
      · simp only [if_pos hlen, true_and]
        exact headerUsed_inside frame
      obtain ⟨r, hr⟩ := readSetting_eq (not_not.mp hlen) old
      simp only [if_neg hlen, hr]
      exact ⟨⟨trivial, rfl⟩, readerUsed_inside hp r⟩

/-- The structure may be missing as well. -/
theorem dfileDecodeSettingInto_kept (frame : Bytes) (s : Option DFileSetting) :
    ((dfileDecodeSettingInto frame s).ok = false → (dfileDecodeSettingInto frame s).out = s) ∧
      ∀ u ∈ (dfileDecodeSettingInto frame s).used, u.1 + u.2 ≤ frame.length := by
  cases s with
  | none =>
      cases hp : framePayload frame .setting <;>
        exact ⟨fun _ => by simp [dfileDecodeSettingInto, hp],
          by simpa [dfileDecodeSettingInto, hp] using headerUsed_inside frame⟩
  | some old =>
      obtain ⟨hres, hused⟩ := dfileDecodeSettingInto_spec frame old
      refine ⟨?_, hused⟩
      intro hok
      cases hdec : dfileDecodeSetting frame with
      | none =>
          rw [hdec] at hres
          exact hres.2
      | some m =>
          rw [hdec] at hres
          exact absurd hok (by simp [hres.1])

/-! ### ACKs -/

/-- The loop over entries that all lie in the payload. -/
theorem ackLoop_eq {v2 : Bool} {p : Bytes} (k : ℕ) : ∀ {i : ℕ} (entries : List DFileAckEntry)
    (used : List (ℕ × ℕ)), 0 < i → ackOffset v2 (i + k) ≤ p.length →
    (∀ u ∈ used, u.1 + u.2 ≤ dfileFrameHeaderLen + p.length) →
    ∃ used', ackLoop v2 p k i entries used =
        (true, entries ++ (List.range k).map fun j => ackEntryAt v2 p (i + j), used') ∧
      ∀ u ∈ used', u.1 + u.2 ≤ dfileFrameHeaderLen + p.length := by
  induction k with
  | zero =>
      intro i entries used _ _ hused
      refine ⟨used, ?_, hused⟩
      simp [ackLoop]
  | succ k ih =>
      intro i entries used hi hoff hused
      have hstep : ackOffset v2 i + 6 ≤ ackOffset v2 (i + (k + 1)) := by
        cases v2 <;> simp [ackOffset] <;> omega
      have hentry : (⟨u16At p (ackOffset v2 i), u32At p (ackOffset v2 i + 2), 0, 0⟩ :
          DFileAckEntry) = ackEntryAt v2 p i := by
        have hne : i ≠ 0 := by omega
        simp [ackEntryAt, hne, ackOffset]
      have hnext : ackOffset v2 (i + 1 + k) ≤ p.length := by
        rwa [Nat.add_right_comm, Nat.add_assoc]
      obtain ⟨used', hloop, hused'⟩ := ih (entries ++ [ackEntryAt v2 p i])
        (used ++ [(dfileFrameHeaderLen + ackOffset v2 i, 6)]) (Nat.succ_pos i) hnext (by
          intro u hu
          rcases List.mem_append.mp hu with hu | hu
          · exact hused u hu
          · rw [List.mem_singleton.mp hu]
            dsimp only
            omega)
      refine ⟨used', ?_, hused'⟩
      have hshift : (fun j => ackEntryAt v2 p (i + j)) ∘ Nat.succ =
          fun j => ackEntryAt v2 p (i + 1 + j) := by
        funext j
        rw [Function.comp_apply, Nat.succ_eq_add_one]
        congr 1
        omega
      rw [ackLoop, if_neg (by omega), hentry, hloop, List.range_succ_eq_map, List.map_cons, List.map_map,
        hshift, List.append_assoc]
      rfl

theorem ackEntries_eq {v2 : Bool} {p : Bytes} {n : ℕ} (hlen : p.length = dfileAckLen v2 n) :
    ∃ used, ackEntries v2 p n = (true, (List.range n).map (ackEntryAt v2 p), used) ∧
      ∀ u ∈ used, u.1 + u.2 ≤ dfileFrameHeaderLen + p.length := by
  cases n with
  | zero => exact ⟨[], rfl, by simp⟩
  | succ n =>
      have hoff : ackOffset v2 (1 + n) ≤ p.length := by
        rw [hlen]
        cases v2 <;> simp [ackOffset, dfileAckLen] <;> omega
      obtain ⟨used, hloop, hused⟩ := ackLoop_eq n [ackEntryAt v2 p 0]
        [(dfileFrameHeaderLen, if v2 then 10 else 6)] Nat.one_pos hoff (by
          intro u hu
          rw [List.mem_singleton.mp hu, hlen]
          cases v2 <;> simp [dfileAckLen]
          all_goals omega)
      refine ⟨used, ?_, hused⟩
      have hshift : ackEntryAt v2 p ∘ Nat.succ = fun j => ackEntryAt v2 p (1 + j) := by
        funext j
        rw [Function.comp_apply, Nat.succ_eq_one_add]
      rw [ackEntries, hloop, List.range_succ_eq_map, List.map_cons, List.map_map, hshift]
      rfl

def ackWritten (frame : Bytes) (o : AckOut) : AckOut :=
  let o := { o with entries := store o.entries none, n := store o.n 0 }
  match framePayload frame .fileDataAck with
  | none => o
  | some (h, _) => { o with transId := store o.transId h.transId, flag := store o.flag h.flag }

theorem dfileDecodeAckInto_spec (frame : Bytes) (o : AckOut) (hentries : o.entries ≠ none)
    (hn : o.n ≠ none) :
    (dfileDecodeAckInto frame o).Returns (dfileDecodeAck frame) (ackWritten frame o) (fun m =>
      ⟨store o.transId m.transId, store o.flag m.flag, store o.v2 m.v2,
        store o.entries (arrayOf m.entries), store o.n m.entries.length⟩) ∧
      ∀ u ∈ (dfileDecodeAckInto frame o).used, u.1 + u.2 ≤ frame.length := by
  have hptr : ¬ (o.entries = none ∨ o.n = none) := by
    rintro (h | h)
    · exact hentries h
    · exact hn h
  cases hp : framePayload frame .fileDataAck with
  | none =>
      simp only [Decoded.Returns, dfileDecodeAck, dfileDecodeAckInto, if_neg hptr, hp, Option.bind_none,
        ackWritten, true_and]
      exact headerUsed_inside frame
  | some hpay =>
      obtain ⟨h, p⟩ := hpay
      obtain ⟨hsize, hplen, -⟩ := framePayload_length hp
      simp only [Decoded.Returns, dfileDecodeAck, dfileDecodeAckInto, if_neg hptr, hp, Option.bind_some, ackWritten]
      by_cases hkind : (!decide (h.length.toNat % 37 = 6) && !decide (h.length.toNat % 37 = 12)) =
          true
      · simp only [if_pos hkind, true_and]
        exact headerUsed_inside frame
      by_cases hbound : h.length.toNat ≥ 0x5c1
      · simp only [if_neg hkind, if_pos hbound, true_and]
        exact headerUsed_inside frame
      obtain ⟨hform, -⟩ := dfileAckLen_of_mod hkind hbound
      obtain ⟨used, hloop, hused⟩ := ackEntries_eq (hplen.trans hform)
      simp only [if_neg hkind, if_neg hbound, hloop, Bool.true_eq_false, if_false, store_store,
        List.length_map, List.length_range, and_self, true_and]
      intro u hu
      rcases List.mem_append.mp hu with hu | hu
      · exact headerUsed_inside frame u hu
      · have hin := hused u hu
        omega

/-! ## All decoders -/

/-- A decoder with the caller's pointers. -/
inductive DecoderCall : Type where
  | setting (s : Option DFileSetting)
  | fileHeader (o : FileHeaderOut)
  | idlist (expectType : DFileFrameType) (o : IdlistOut)
  | data (o : DataOut)
  | ack (o : AckOut)
  | rst (o : RstOut)
deriving DecidableEq, Repr

namespace DecoderCall

/-- The call on a frame, with what it leaves behind the pointers. -/
def run (frame : Bytes) : DecoderCall → Option (Decoded DecoderCall)
  | .setting s => some ((dfileDecodeSettingInto frame s).map .setting)
  | .fileHeader o =>
      (dfileDecodeFileHeaderInto (frame.length + 1) frame o).map fun d => d.result.map .fileHeader
  | .idlist expectType o =>
      some ((dfileDecodeIdlistInto frame expectType o).map (.idlist expectType))
  | .data o => some ((dfileDecodeDataInto frame o).map .data)
  | .ack o => some ((dfileDecodeAckInto frame o).map .ack)
  | .rst o => some ((dfileDecodeRstInto frame o).map .rst)

/-- A pointer is missing that the decoder asks for before it writes. -/
def Refused : DecoderCall → Prop
  | .setting s => s = none
  | .fileHeader o => o.entries = none ∨ o.n = none
  | .idlist _ o => o.ids = none ∨ o.n = none
  | .data _ => False
  | .ack o => o.entries = none ∨ o.n = none
  | .rst o => o.code = none ∨ o.ids = none ∨ o.n = none

/-- The frame is one of the decoder's. -/
def WellFormed (frame : Bytes) : DecoderCall → Prop
  | .setting _ => ∃ h p, framePayload frame .setting = some (h, p) ∧
      p.length = dfileSettingPayloadLen
  | .fileHeader _ => ∃ t k es, HeaderText t k es frame
  | .idlist expectType _ => ∃ h p, framePayload frame expectType = some (h, p) ∧
      p.length % 2 = 0 ∧ p.length / 2 ≤ dfileMaxFileNum
  | .data _ => ∃ h p, framePayload frame .fileData = some (h, p) ∧ 6 ≤ p.length
  | .ack _ => ∃ h p v2 n, framePayload frame .fileDataAck = some (h, p) ∧
      n ≤ dfileMaxAckEntries ∧ p.length = dfileAckLen v2 n
  | .rst _ => ∃ h p, framePayload frame .rst = some (h, p) ∧ 2 ≤ p.length ∧ p.length % 2 = 0 ∧
      (p.length - 2) / 2 ≤ dfileMaxFileNum

/-- The outputs hold what the decoder writes before its last check: no array and the count
zero, and the header fields once the checks before them have passed. -/
def Stale (frame : Bytes) : DecoderCall → Prop
  | .setting _ => True
  | .fileHeader o => Holds o.entries none ∧ Holds o.n 0 ∧
      ∀ h p, framePayload frame .fileHeader = some (h, p) → 2 ≤ p.length →
        Holds o.transId h.transId ∧ Holds o.nodeNumber (u16At p 0)
  | .idlist expectType o => Holds o.ids none ∧ Holds o.n 0 ∧
      ∀ h p, framePayload frame expectType = some (h, p) → p.length % 2 = 0 →
        Holds o.transId h.transId ∧ Holds o.flag h.flag
  | .data _ => True
  | .ack o => Holds o.entries none ∧ Holds o.n 0 ∧
      ∀ h p, framePayload frame .fileDataAck = some (h, p) →
        Holds o.transId h.transId ∧ Holds o.flag h.flag
  | .rst o => Holds o.ids none ∧ Holds o.n 0 ∧
      ∀ h p, framePayload frame .rst = some (h, p) → 2 ≤ p.length → p.length % 2 = 0 →
        Holds o.transId h.transId ∧ Holds o.code (u16At p 0)

end DecoderCall

/-! ### What is written before a rejection -/

theorem headerWritten_eq_self {frame : Bytes} {o : FileHeaderOut} :
    headerWritten frame o = o ↔ (DecoderCall.fileHeader o).Stale frame := by
  obtain ⟨t, k, es, n⟩ := o
  cases hp : framePayload frame .fileHeader with
  | none => simp [headerWritten, hp, DecoderCall.Stale, store_eq_self]
  | some hpay =>
      obtain ⟨h, p⟩ := hpay
      by_cases hshort : p.length < 2
      · simp [headerWritten, hp, hshort, DecoderCall.Stale, store_eq_self]
      · have hlen : 2 ≤ p.length := by omega
        simp [headerWritten, hp, hshort, DecoderCall.Stale, store_eq_self, hlen]
        tauto

theorem idlistWritten_eq_self {frame : Bytes} {expectType : DFileFrameType} {o : IdlistOut} :
    idlistWritten frame expectType o = o ↔ (DecoderCall.idlist expectType o).Stale frame := by
  obtain ⟨t, f, ids, n⟩ := o
  cases hp : framePayload frame expectType with
  | none => simp [idlistWritten, hp, DecoderCall.Stale, store_eq_self]
  | some hpay =>
      obtain ⟨h, p⟩ := hpay
      by_cases hodd : p.length % 2 = 0
      · simp [idlistWritten, hp, hodd, DecoderCall.Stale, store_eq_self]
        tauto
      · simp [idlistWritten, hp, hodd, DecoderCall.Stale, store_eq_self]

theorem ackWritten_eq_self {frame : Bytes} {o : AckOut} :
    ackWritten frame o = o ↔ (DecoderCall.ack o).Stale frame := by
  obtain ⟨t, f, v2, es, n⟩ := o
  cases hp : framePayload frame .fileDataAck with
  | none => simp [ackWritten, hp, DecoderCall.Stale, store_eq_self]
  | some hpay =>
      obtain ⟨h, p⟩ := hpay
      simp [ackWritten, hp, DecoderCall.Stale, store_eq_self]
      tauto

theorem rstWritten_eq_self {frame : Bytes} {o : RstOut} :
    rstWritten frame o = o ↔ (DecoderCall.rst o).Stale frame := by
  obtain ⟨t, c, ids, n⟩ := o
  cases hp : framePayload frame .rst with
  | none => simp [rstWritten, hp, DecoderCall.Stale, store_eq_self]
  | some hpay =>
      obtain ⟨h, p⟩ := hpay
      by_cases hshape : p.length < 2 ∨ p.length % 2 ≠ 0
      · have hno : ¬ (2 ≤ p.length ∧ p.length % 2 = 0) := by omega
        simp only [rstWritten, hp, if_pos hshape, DecoderCall.Stale]
        simp [store_eq_self]
        intro _ _ h2 h0
        exact absurd ⟨h2, h0⟩ hno
      · have hyes : 2 ≤ p.length ∧ p.length % 2 = 0 := by omega
        simp only [rstWritten, hp, if_neg hshape, DecoderCall.Stale]
        simp [store_eq_self, hyes.1, hyes.2]
        tauto

/-! ### Which frames are accepted -/

theorem dfileDecodeSetting_wellFormed (frame : Bytes) (s : Option DFileSetting) :
    (dfileDecodeSetting frame).isSome ↔ (DecoderCall.setting s).WellFormed frame := by
  cases hp : framePayload frame .setting with
  | none => simp [dfileDecodeSetting, DecoderCall.WellFormed, hp]
  | some hpay =>
      obtain ⟨h, p⟩ := hpay
      by_cases hlen : p.length = dfileSettingPayloadLen <;>
        simp [dfileDecodeSetting, DecoderCall.WellFormed, hp, hlen]

theorem dfileDecodeFileHeader_wellFormed (frame : Bytes) (o : FileHeaderOut) :
    (dfileDecodeFileHeader frame).isSome ↔ (DecoderCall.fileHeader o).WellFormed frame := by
  rw [Option.isSome_iff_exists]
  constructor
  · rintro ⟨⟨t, k, res⟩, hdec⟩
    obtain ⟨es, htext, -⟩ := dfileDecodeFileHeader_iff.mp hdec
    exact ⟨t, k, es, htext⟩
  · rintro ⟨t, k, es, htext⟩
    exact ⟨_, dfileDecodeFileHeader_iff.mpr ⟨es, htext, rfl⟩⟩

theorem dfileDecodeIdlist_wellFormed (frame : Bytes) (expectType : DFileFrameType)
    (o : IdlistOut) : (dfileDecodeIdlist frame expectType).isSome ↔
      (DecoderCall.idlist expectType o).WellFormed frame := by
  cases hp : framePayload frame expectType with
  | none => simp [dfileDecodeIdlist, DecoderCall.WellFormed, hp]
  | some hpay =>
      obtain ⟨h, p⟩ := hpay
      by_cases hodd : p.length % 2 = 0 <;> by_cases hmax : p.length / 2 ≤ dfileMaxFileNum <;>
        simp [dfileDecodeIdlist, DecoderCall.WellFormed, hp, hodd, hmax]

theorem dfileDecodeData_wellFormed (frame : Bytes) (o : DataOut) :
    (dfileDecodeData frame).isSome ↔ (DecoderCall.data o).WellFormed frame := by
  cases hp : framePayload frame .fileData with
  | none => simp [dfileDecodeData, DecoderCall.WellFormed, hp]
  | some hpay =>
      obtain ⟨h, p⟩ := hpay
      by_cases hlen : 6 ≤ p.length <;>
        simp [dfileDecodeData, DecoderCall.WellFormed, hp, hlen]

theorem dfileDecodeAck_wellFormed (frame : Bytes) (o : AckOut) :
    (dfileDecodeAck frame).isSome ↔ (DecoderCall.ack o).WellFormed frame := by
  rw [Option.isSome_iff_exists]
  constructor
  · rintro ⟨a, hdec⟩
    exact dfileDecodeAck_some hdec
  · rintro ⟨h, p, v2, n, hp, hn, hlen⟩
    obtain ⟨-, hplen, -⟩ := framePayload_length hp
    exact ⟨_, dfileDecodeAck_payload hp (by rw [← hplen, hlen]) hn⟩

theorem dfileDecodeRst_wellFormed (frame : Bytes) (o : RstOut) :
    (dfileDecodeRst frame).isSome ↔ (DecoderCall.rst o).WellFormed frame := by
  rw [Option.isSome_iff_exists]
  constructor
  · rintro ⟨m, hdec⟩
    obtain ⟨h, p, hp, hg⟩ := framePayload_of_bind hdec
    dsimp only at hg
    split at hg
    · cases hg
    split at hg
    · cases hg
    exact ⟨h, p, hp, by omega, by omega, by omega⟩
  · rintro ⟨h, p, hp, hlen, heven, hmax⟩
    rw [dfileDecodeRst, hp, Option.bind_some]
    dsimp only
    rw [if_neg (by omega), if_neg (by omega)]
    exact ⟨_, rfl⟩

/-- A call with its pointers keeps the outputs on FALSE when the frame is well formed, or
what is written before the rejection was there already. -/
theorem kept_iff {α β : Type} {d : Decoded α} {o written : α} {res : Option β} {out : β → α}
    {f : α → DecoderCall} {refused wellFormed stale : Prop} (hf : Function.Injective f)
    (hd : d.Returns res written out) (hrefused : ¬ refused) (hwell : res.isSome ↔ wellFormed)
    (hstale : written = o ↔ stale) :
    ((d.map f).ok = false → (d.map f).out = f o) ↔ refused ∨ wellFormed ∨ stale := by
  show (d.ok = false → f d.out = f o) ↔ _
  rw [hf.eq_iff]
  cases res with
  | none =>
      obtain ⟨hok, hout⟩ := hd
      have hnot : ¬ wellFormed := by
        rw [← hwell]
        simp
      rw [hok, hout, hstale]
      simp [hrefused, hnot]
  | some m =>
      obtain ⟨hok, -⟩ := hd
      have hyes : wellFormed := by
        rw [← hwell]
        rfl
      simp [hok, hyes]

/-- **Rejected frames and the outputs.** A call of any decoder that returns FALSE leaves all
outputs as they were exactly when a required pointer is missing, or the frame is well formed
(and then it returns TRUE), or the outputs already hold what is written before the last
check. A call uses only bytes of the frame. -/
theorem decoder_outputs (frame : Bytes) (c : DecoderCall) :
    ∃ d, c.run frame = some d ∧
      ((d.ok = false → d.out = c) ↔ c.Refused ∨ c.WellFormed frame ∨ c.Stale frame) ∧
      (d.ok = true → ∀ u ∈ d.used, u.1 + u.2 ≤ frame.length) := by
  cases c with
  | setting s =>
      obtain ⟨hkept, hused⟩ := dfileDecodeSettingInto_kept frame s
      refine ⟨_, rfl, ?_, fun _ => hused⟩
      refine iff_of_true ?_ (Or.inr (Or.inr trivial))
      exact fun hok => congrArg DecoderCall.setting (hkept hok)
  | data o =>
      obtain ⟨hres, hused⟩ := dfileDecodeDataInto_spec frame o
      refine ⟨_, rfl, ?_, fun _ => hused⟩
      refine iff_of_true ?_ (Or.inr (Or.inr trivial))
      intro hok
      cases hdec : dfileDecodeData frame with
      | none =>
          rw [hdec] at hres
          exact congrArg DecoderCall.data hres.2
      | some m =>
          rw [hdec] at hres
          exact absurd hok (by simp [Decoded.map, hres.1])
  | fileHeader o =>
      by_cases hptr : o.entries = none ∨ o.n = none
      · refine ⟨⟨false, .fileHeader o, []⟩, ?_, iff_of_true (fun _ => rfl) (Or.inl hptr), by simp⟩
        rw [DecoderCall.run, dfileDecodeFileHeaderInto, if_pos hptr]
        rfl
      obtain ⟨hes, hn⟩ := not_or.mp hptr
      obtain ⟨d, hrun, hres, hused, -⟩ := dfileDecodeFileHeaderInto_spec frame o hes hn
      refine ⟨d.result.map .fileHeader, ?_, ?_, fun _ => hused⟩
      · rw [DecoderCall.run, hrun _ (Nat.lt_succ_self _)]
        rfl
      · exact kept_iff (fun _ _ h => DecoderCall.fileHeader.inj h) hres hptr
          (dfileDecodeFileHeader_wellFormed frame o) headerWritten_eq_self
  | idlist expectType o =>
      by_cases hptr : o.ids = none ∨ o.n = none
      · refine ⟨⟨false, .idlist expectType o, []⟩, ?_, iff_of_true (fun _ => rfl) (Or.inl hptr),
          by simp⟩
        rw [DecoderCall.run, dfileDecodeIdlistInto, if_pos hptr]
        rfl
      obtain ⟨hids, hn⟩ := not_or.mp hptr
      obtain ⟨hres, hused⟩ := dfileDecodeIdlistInto_spec frame expectType o hids hn
      refine ⟨_, rfl, ?_, fun _ => hused⟩
      exact kept_iff (fun _ _ h => (DecoderCall.idlist.inj h).2) hres hptr
        (dfileDecodeIdlist_wellFormed frame expectType o) idlistWritten_eq_self
  | ack o =>
      by_cases hptr : o.entries = none ∨ o.n = none
      · refine ⟨⟨false, .ack o, []⟩, ?_, iff_of_true (fun _ => rfl) (Or.inl hptr), by simp⟩
        rw [DecoderCall.run, dfileDecodeAckInto, if_pos hptr]
        rfl
      obtain ⟨hes, hn⟩ := not_or.mp hptr
      obtain ⟨hres, hused⟩ := dfileDecodeAckInto_spec frame o hes hn
      refine ⟨_, rfl, ?_, fun _ => hused⟩
      exact kept_iff (fun _ _ h => DecoderCall.ack.inj h) hres hptr
        (dfileDecodeAck_wellFormed frame o) ackWritten_eq_self
  | rst o =>
      by_cases hptr : o.code = none ∨ o.ids = none ∨ o.n = none
      · refine ⟨⟨false, .rst o, []⟩, ?_, iff_of_true (fun _ => rfl) (Or.inl hptr), by simp⟩
        rw [DecoderCall.run, dfileDecodeRstInto, if_pos hptr]
        rfl
      obtain ⟨hcode, hrest⟩ := not_or.mp hptr
      obtain ⟨hids, hn⟩ := not_or.mp hrest
      obtain ⟨hres, hused⟩ := dfileDecodeRstInto_spec frame o hcode hids hn
      refine ⟨_, rfl, ?_, fun _ => hused⟩
      exact kept_iff (fun _ _ h => DecoderCall.rst.inj h) hres hptr
        (dfileDecodeRst_wellFormed frame o) rstWritten_eq_self

/-- An empty frame clears the count of the caller. -/
theorem decoder_outputs_cleared :
    ¬ ∀ (frame : Bytes) (c : DecoderCall) (d : Decoded DecoderCall), c.run frame = some d →
      (d.ok = false → d.out = c) ∧ (d.ok = true → ∀ u ∈ d.used, u.1 + u.2 ≤ frame.length) := by
  intro h
  have hkept := (h [] (.idlist .fileHeaderConfirm ⟨none, none, some none, some 5⟩)
    ⟨false, .idlist .fileHeaderConfirm ⟨none, none, some none, some 0⟩, []⟩ rfl).1 rfl
  exact absurd hkept (by decide)

end HwPhoneLink.DFile
