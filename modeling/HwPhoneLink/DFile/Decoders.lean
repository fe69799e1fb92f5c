import HwPhoneLink.Lib.Reader
import HwPhoneLink.DFile.HeaderGrammar

/-!
# The decoders as the caller sees them

The decoders of `dfile_frame.c` with what they write through the caller's pointers and the
bytes they use. An out parameter is `none` for `NULL`, else what it points to; an array that
is returned is `none` for a `NULL` array.
-/

namespace HwPhoneLink.DFile

open BigEndian Path

/-! ## Out parameters -/

/-- A write through a pointer that may be `NULL`. -/
def store {α : Type} (out : Option α) (v : α) : Option α := out.map fun _ => v

/-- A write of `v` changes nothing. -/
def Holds {α : Type} (out : Option α) (v : α) : Prop := ∀ w, out = some w → w = v

theorem store_eq_self {α : Type} {out : Option α} {v : α} : store out v = out ↔ Holds out v := by
  cases out with
  | none => simp [store, Holds]
  | some w =>
      simp only [store, Holds, Option.map_some, Option.some.injEq, forall_eq']
      exact eq_comm

/-- What a decoder returns, leaves behind and used of the frame, as offset and width. -/
structure Decoded (Out : Type) where
  ok : Bool
  out : Out
  used : List (ℕ × ℕ)

def Decoded.map {α β : Type} (f : α → β) (d : Decoded α) : Decoded β := ⟨d.ok, f d.out, d.used⟩

/-- What a call returns and leaves behind: `written` on FALSE, the values of `res` on TRUE. -/
def Decoded.Returns {α β : Type} (d : Decoded α) (res : Option β) (written : α) (out : β → α) :
    Prop :=
  match res with
  | none => d.ok = false ∧ d.out = written
  | some m => d.ok = true ∧ d.out = out m

/-- The header bytes, read when they are all there. -/
def headerUsed (frame : Bytes) : List (ℕ × ℕ) :=
  if frame.length < dfileFrameHeaderLen then [] else [(0, dfileFrameHeaderLen)]

/-- The header and what a reader took of the payload. -/
def readerUsed (frame : Bytes) {p : Bytes} (r : Reader p) : List (ℕ × ℕ) :=
  headerUsed frame ++ r.taken.map fun s => (dfileFrameHeaderLen + s.1, s.2)

/-! ## Settings -/

/-- The reads after the length check, the structure written field by field. -/
def readSetting (old : DFileSetting) (p : Bytes) : Bool × DFileSetting × Reader p :=
  let (mtu, r) := (Reader.init p).u16
  let (connType, r) := r.u16
  let (dfileVersion, r) := r.u32
  let (abmCapability, r) := r.u32
  let (capability, r) := r.u32
  let (dataFrameSize, r) := r.u32
  let (capsCheck, r) := r.u32
  let s := { old with
    mtu := mtu, connType := connType, dfileVersion := dfileVersion
    abmCapability := abmCapability, capability := capability, dataFrameSize := dataFrameSize
    capsCheck := capsCheck }
  match r.take 64 with
  | (none, r) => (false, s, r)
  | (some pv, r) =>
      let s := { s with productVersion := (field 64 pv p).set 63 0 }
      match r.take 4 with
      | (none, r) => (false, s, r)
      | (some b, r) =>
          let s := { s with
            isSupport160m := u8At p b, isSupportMtp := u8At p (b + 1), mtpPort := u8At p (b + 2)
            headerEnc := u8At p (b + 3) }
          let (mtpCapability, r) := r.u32
          let (cipherCapability, r) := r.u32
          (r.ok, { s with mtpCapability := mtpCapability, cipherCapability := cipherCapability }, r)

def dfileDecodeSettingInto (frame : Bytes) (s : Option DFileSetting) :
    Decoded (Option DFileSetting) :=
  match framePayload frame .setting, s with
  | some (_, p), some old =>
      if p.length ≠ dfileSettingPayloadLen then ⟨false, s, headerUsed frame⟩
      else
        let (ok, new, r) := readSetting old p
        ⟨ok, some new, readerUsed frame r⟩
  | _, _ => ⟨false, s, headerUsed frame⟩

/-! ## File headers -/

structure FileHeaderOut where
  transId : Option UInt16
  nodeNumber : Option UInt16
  entries : Option (Option (List DFileHeaderEntry))
  n : Option ℕ
deriving DecidableEq, Repr

/-- The loop: the reader, the entries stored and the cells they were stored in. -/
structure EntryLoop (p : Bytes) where
  r : Reader p
  entries : List DFileHeaderEntry
  stores : List ℕ

/-- A round goes on or leaves the loop. -/
inductive EntryRound (p : Bytes) where
  | next (s : EntryLoop p)
  | stop (s : EntryLoop p)

def entryRound {p : Bytes} (capEntries : ℕ) (s : EntryLoop p) : EntryRound p :=
  if s.r.ok = false then .stop s
  else if s.r.pos = p.length then .stop s
  else if p.length - s.r.pos < 12 then .stop { s with r := s.r.fail }
  else
    let (id, r) := s.r.u16
    let (size, r) := r.u64
    let (nameLen, r) := r.u16
    if id = 0 then
      if p.length - r.pos < 2 then .stop { s with r := r.fail }
      else
        let r := (r.take 2).2
        .stop { s with r := (r.take (p.length - r.pos)).2 }
    else if nameLen.toNat = 0 ∨ nameLen.toNat > dfileMaxFileNameLen then
      .stop { s with r := r.fail }
    else
      match r.take nameLen.toNat with
      | (none, r) => .stop { s with r := r }
      | (some name, r) =>
          if s.entries.length ≥ capEntries then .stop { s with r := r.fail }
          else
            .next
              { r := r
                entries := s.entries ++ [⟨id, size, cString (field nameLen.toNat name p)⟩]
                stores := s.stores ++ [s.entries.length] }

/-- The loop for at most `fuel` rounds; `none` when it has not ended by then. -/
def entryLoop {p : Bytes} (capEntries : ℕ) : ℕ → EntryLoop p → Option (EntryLoop p)
  | 0, _ => none
  | fuel + 1, s =>
      match entryRound capEntries s with
      | .stop s => some s
      | .next s => entryLoop capEntries fuel s

/-- What a call leaves behind, with the cells of the array and those written. -/
structure FileHeaderDecoded where
  result : Decoded FileHeaderOut
  cells : ℕ
  stores : List ℕ

def dfileDecodeFileHeaderInto (fuel : ℕ) (frame : Bytes) (o : FileHeaderOut) :
    Option FileHeaderDecoded :=
  if o.entries = none ∨ o.n = none then some ⟨⟨false, o, []⟩, 0, []⟩
  else
    let o := { o with entries := store o.entries none, n := store o.n 0 }
    match framePayload frame .fileHeader with
    | none => some ⟨⟨false, o, headerUsed frame⟩, 0, []⟩
    | some (h, p) =>
        if p.length < 2 then some ⟨⟨false, o, headerUsed frame⟩, 0, []⟩
        else
          let o := { o with transId := store o.transId h.transId }
          let (node, r) := (Reader.init p).u16
          let o := { o with nodeNumber := store o.nodeNumber node }
          (entryLoop (entryCap node) fuel ⟨r, [], []⟩).map fun s =>
            let o :=
              if s.r.ok = false then o
              else
                { o with
                  entries := store o.entries (some s.entries), n := store o.n s.entries.length }
            ⟨⟨s.r.ok, o, readerUsed frame s.r⟩, entryCap node, s.stores⟩

/-! ## Id lists -/

structure IdlistOut where
  transId : Option UInt16
  flag : Option UInt8
  ids : Option (Option (List UInt16))
  n : Option ℕ
deriving DecidableEq, Repr

/-- An array of `n` cells; none is allocated for no cell. -/
def arrayOf {α : Type} (l : List α) : Option (List α) := if l = [] then none else some l

def dfileDecodeIdlistInto (frame : Bytes) (expectType : DFileFrameType) (o : IdlistOut) :
    Decoded IdlistOut :=
  if o.ids = none ∨ o.n = none then ⟨false, o, []⟩
  else
    let o := { o with ids := store o.ids none, n := store o.n 0 }
    match framePayload frame expectType with
    | none => ⟨false, o, headerUsed frame⟩
    | some (h, p) =>
        if p.length % 2 ≠ 0 then ⟨false, o, headerUsed frame⟩
        else
          let o := { o with transId := store o.transId h.transId, flag := store o.flag h.flag }
          let n := p.length / 2
          if n > dfileMaxFileNum then ⟨false, o, headerUsed frame⟩
          else
            let (ids, r) := (Reader.init p).u16s n
            let o :=
              if r.ok = false then o
              else { o with ids := store o.ids (arrayOf ids), n := store o.n n }
            ⟨r.ok, o, readerUsed frame r⟩

/-! ## Data frames -/

structure DataOut where
  transId : Option UInt16
  flag : Option UInt8
  fileId : Option UInt16
  blockSeq : Option UInt32
  payload : Option Bytes
  payloadLen : Option ℕ
deriving DecidableEq, Repr

/-- The payload pointer is given as the bytes from it to the end of the frame. -/
def dfileDecodeDataInto (frame : Bytes) (o : DataOut) : Decoded DataOut :=
  match framePayload frame .fileData with
  | none => ⟨false, o, headerUsed frame⟩
  | some (h, p) =>
      if p.length < 6 then ⟨false, o, headerUsed frame⟩
      else
        let o := { o with transId := store o.transId h.transId, flag := store o.flag h.flag }
        let (id, r) := (Reader.init p).u16
        let (seq, r) := r.u32
        if r.ok = false then ⟨false, o, readerUsed frame r⟩
        else
          ⟨true,
            { o with
              fileId := store o.fileId id, blockSeq := store o.blockSeq seq
              payload := store o.payload (p.drop r.pos)
              payloadLen := store o.payloadLen (p.length - r.pos) },
            readerUsed frame r ++ [(dfileFrameHeaderLen + r.pos, p.length - r.pos)]⟩

/-! ## ACKs -/

structure AckOut where
  transId : Option UInt16
  flag : Option UInt8
  v2 : Option Bool
  entries : Option (Option (List DFileAckEntry))
  n : Option ℕ
deriving DecidableEq, Repr

/-- Where entry `i` stands, for `i` from 1 on. -/
def ackOffset (v2 : Bool) (i : ℕ) : ℕ := if v2 then 12 + 6 * (i - 1) else 6 * i

/-- The loop over the entries from `i` on: `false` when one would pass the payload. -/
def ackLoop (v2 : Bool) (p : Bytes) :
    ℕ → ℕ → List DFileAckEntry → List (ℕ × ℕ) → Bool × List DFileAckEntry × List (ℕ × ℕ)
  | 0, _, entries, used => (true, entries, used)
  | k + 1, i, entries, used =>
      let off := ackOffset v2 i
      if off + 6 > p.length then (false, entries, used)
      else
        ackLoop v2 p k (i + 1) (entries ++ [⟨u16At p off, u32At p (off + 2), 0, 0⟩])
          (used ++ [(dfileFrameHeaderLen + off, 6)])

/-- All entries, the first with the words that V2 adds. -/
def ackEntries (v2 : Bool) (p : Bytes) : ℕ → Bool × List DFileAckEntry × List (ℕ × ℕ)
  | 0 => (true, [], [])
  | n + 1 =>
      ackLoop v2 p n 1 [ackEntryAt v2 p 0]
        [(dfileFrameHeaderLen, if v2 then 10 else 6)]

def dfileDecodeAckInto (frame : Bytes) (o : AckOut) : Decoded AckOut :=
  if o.entries = none ∨ o.n = none then ⟨false, o, []⟩
  else
    let o := { o with entries := store o.entries none, n := store o.n 0 }
    match framePayload frame .fileDataAck with
    | none => ⟨false, o, headerUsed frame⟩
    | some (h, p) =>
        let o := { o with transId := store o.transId h.transId, flag := store o.flag h.flag }
        let lenField := h.length.toNat
        let isV2 := decide (lenField % 37 = 12)
        let isV1 := decide (lenField % 37 = 6)
        if !isV1 && !isV2 then ⟨false, o, headerUsed frame⟩
        else if lenField ≥ 0x5c1 then ⟨false, o, headerUsed frame⟩
        else
          let n := (lenField - (if isV2 then 12 else 6)) / 37
          let o := { o with v2 := store o.v2 isV2 }
          let (ok, entries, used) := ackEntries isV2 p n
          let o :=
            if ok = false then o
            else { o with entries := store o.entries (arrayOf entries), n := store o.n n }
          ⟨ok, o, headerUsed frame ++ used⟩

/-! ## Resets -/

structure RstOut where
  transId : Option UInt16
  code : Option UInt16
  ids : Option (Option (List UInt16))
  n : Option ℕ
deriving DecidableEq, Repr

def dfileDecodeRstInto (frame : Bytes) (o : RstOut) : Decoded RstOut :=
  if o.code = none ∨ o.ids = none ∨ o.n = none then ⟨false, o, []⟩
  else
    let o := { o with ids := store o.ids none, n := store o.n 0 }
    match framePayload frame .rst with
    | none => ⟨false, o, headerUsed frame⟩
    | some (h, p) =>
        if p.length < 2 ∨ p.length % 2 ≠ 0 then ⟨false, o, headerUsed frame⟩
        else
          let (code, r) := (Reader.init p).u16
          let o := { o with transId := store o.transId h.transId, code := store o.code code }
          let n := (p.length - 2) / 2
          if n > dfileMaxFileNum then ⟨false, o, readerUsed frame r⟩
          else
            let (ids, r) := r.u16s n
            let o :=
              if r.ok = false then o
              else { o with ids := store o.ids (arrayOf ids), n := store o.n n }
            ⟨r.ok, o, readerUsed frame r⟩

/-! ## The bytes used -/

/-- The header of a complete frame, and what is read of its payload, lie in the frame. -/
theorem headerUsed_inside (frame : Bytes) :
    ∀ u ∈ headerUsed frame, u.1 + u.2 ≤ frame.length := by
  intro u hu
  unfold headerUsed at hu
  split at hu
  · simp at hu
  · rename_i hlen
    rw [List.mem_singleton.mp hu]
    omega

theorem readerUsed_inside {frame p : Bytes} {type : DFileFrameType} {h : DFileFrameHeader}
    (hp : framePayload frame type = some (h, p)) (r : Reader p) :
    ∀ u ∈ readerUsed frame r, u.1 + u.2 ≤ frame.length := by
  obtain ⟨hsize, hlen, -⟩ := framePayload_length hp
  intro u hu
  rcases List.mem_append.mp hu with hu | hu
  · exact headerUsed_inside frame u hu
  · obtain ⟨s, hs, rfl⟩ := List.mem_map.mp hu
    have hin := r.inside s hs
    dsimp only
    omega

/-! ## When the outputs are kept -/

theorem readSetting_eq {p : Bytes} (hp : p.length = 100) (old : DFileSetting) :
    ∃ r, readSetting old p = (true, settingAt p, r) := by
  obtain ⟨r1, h1, s1⟩ := Reader.u16_step (r := Reader.init p) (k := 0) ⟨rfl, rfl⟩ (by omega)
  obtain ⟨r2, h2, s2⟩ := Reader.u16_step s1 (by omega)
  obtain ⟨r3, h3, s3⟩ := Reader.u32_step s2 (by omega)
  obtain ⟨r4, h4, s4⟩ := Reader.u32_step s3 (by omega)
  obtain ⟨r5, h5, s5⟩ := Reader.u32_step s4 (by omega)
  obtain ⟨r6, h6, s6⟩ := Reader.u32_step s5 (by omega)
  obtain ⟨r7, h7, s7⟩ := Reader.u32_step s6 (by omega)
  obtain ⟨r8, h8, s8⟩ := Reader.take_step 64 s7 (by omega)
  obtain ⟨r9, h9, s9⟩ := Reader.take_step 4 s8 (by omega)
  obtain ⟨r10, h10, s10⟩ := Reader.u32_step s9 (by omega)
  obtain ⟨r11, h11, hok, -⟩ := Reader.u32_step s10 (by omega)
  have hversion : (field 64 24 p).set 63 0 = field 63 24 p ++ [0] := by
    have hlen : (field 63 24 p).length = 63 := field_length (by omega)
    have hlast : (field 1 87 p).length = 1 := field_length (by omega)
    obtain ⟨b, hb⟩ := List.length_eq_one_iff.mp hlast
    have hsplit : field 64 24 p = field 63 24 p ++ [b] := by
      rw [← hb]
      exact (field_add 63 1 24 p).symm
    rw [hsplit, List.set_append_right _ _ (Nat.le_of_eq hlen), hlen]
    rfl
  refine ⟨r11, ?_⟩
  unfold readSetting
  rw [h1]
  dsimp only
  rw [h2]
  dsimp only
  rw [h3]
  dsimp only
  rw [h4]
  dsimp only
  rw [h5]
  dsimp only
  rw [h6]
  dsimp only
  rw [h7]
  dsimp only
  rw [h8]
  dsimp only
  rw [h9]
  dsimp only
  rw [h10]
  dsimp only
  rw [h11]
  dsimp only
  simp only [Nat.zero_add, Nat.reduceAdd, hversion, hok]
  rfl

/-! ## The entry loop -/

section Loop

variable {p : Bytes}

theorem field_drop (w off k : ℕ) (bs : Bytes) : field w off (bs.drop k) = field w (k + off) bs := by
  rw [field, field, List.drop_drop]

theorem u16At_drop (k off : ℕ) (bs : Bytes) : u16At (bs.drop k) off = u16At bs (k + off) := by
  rw [u16At, field_drop, u16At]

/-- A round that has twelve bytes, the fixed part read. -/
theorem entryRound_read (cap : ℕ) {s : EntryLoop p} {k : ℕ} (hok : s.r.ok = true)
    (hk : s.r.pos = k) (h : k + 12 ≤ p.length) :
    ∃ r3 : Reader p, (r3.ok = true ∧ r3.pos = k + 12) ∧ entryRound cap s =
      if u16At p k = 0 then
        if p.length - r3.pos < 2 then .stop { s with r := r3.fail }
        else .stop { s with r := ((r3.take 2).2.take (p.length - (r3.take 2).2.pos)).2 }
      else if (u16At p (k + 10)).toNat = 0 ∨ (u16At p (k + 10)).toNat > dfileMaxFileNameLen
      then .stop { s with r := r3.fail }
      else
        match r3.take (u16At p (k + 10)).toNat with
        | (none, r) => .stop { s with r := r }
        | (some name, r) =>
            if s.entries.length ≥ cap then .stop { s with r := r.fail }
            else
              .next
                { r := r
                  entries := s.entries ++ [⟨u16At p k, u64At p (k + 2),
                    cString (field (u16At p (k + 10)).toNat name p)⟩]
                  stores := s.stores ++ [s.entries.length] } := by
  obtain ⟨r1, h1, s1⟩ := Reader.u16_step (r := s.r) (k := k) ⟨hok, hk⟩ (by omega)
  obtain ⟨r2, h2, s2⟩ := Reader.u64_step s1 (by omega)
  obtain ⟨r3, h3, s3⟩ := Reader.u16_step s2 (by omega)
  have hflag : ¬ s.r.ok = false := by simp [hok]
  refine ⟨r3, s3, ?_⟩
  rw [entryRound, if_neg hflag, if_neg (by omega), if_neg (by omega), h1]
  dsimp only
  rw [h2]
  dsimp only
  rw [h3]

/-- The same of `decodeEntries` on the rest of a payload. -/
theorem decodeEntries_drop (cap fuel : ℕ) (entries : List DFileHeaderEntry) {k : ℕ}
    (h : k + 12 ≤ p.length) :
    decodeEntries cap (fuel + 1) entries (p.drop k) =
      if u16At p k = 0 then if p.length - k - 12 < 2 then none else some entries
      else if (u16At p (k + 10)).toNat = 0 ∨ (u16At p (k + 10)).toNat > dfileMaxFileNameLen
      then none
      else if p.length - k - 12 < (u16At p (k + 10)).toNat then none
      else if entries.length ≥ cap then none
      else
        decodeEntries cap fuel
          (entries ++ [⟨u16At p k, u64At p (k + 2),
            cString (field (u16At p (k + 10)).toNat (k + 12) p)⟩])
          (p.drop (k + (12 + (u16At p (k + 10)).toNat))) := by
  have hrest : (p.drop k).length = p.length - k := List.length_drop
  have hend : ¬ (p.drop k).length = 0 := by omega
  have hshort : ¬ (p.drop k).length < 12 := by omega
  have hsize : u64At (p.drop k) 2 = u64At p (k + 2) := by rw [u64At, field_drop, u64At]
  rw [decodeEntries, if_neg hend, if_neg hshort, u16At_drop, u16At_drop, hsize, hrest]
  dsimp only
  rw [field_drop, List.drop_drop, Nat.add_zero]

/-- **One round** does what one round of `decodeEntries` does to the rest of the payload:
it ends, with the flag saying how, or it stores one entry in the next cell and goes on. -/
theorem entryRound_spec (cap : ℕ) (s : EntryLoop p) (hok : s.r.ok = true) :
    (∃ r', entryRound cap s = .stop { s with r := r' } ∧
      ∀ fuel, decodeEntries cap (fuel + 1) s.entries (p.drop s.r.pos) =
        if r'.ok then some s.entries else none) ∨
    (∃ r' e, entryRound cap s = .next ⟨r', s.entries ++ [e], s.stores ++ [s.entries.length]⟩ ∧
      r'.ok = true ∧ s.r.pos < r'.pos ∧ s.entries.length < cap ∧
      ∀ fuel, decodeEntries cap (fuel + 1) s.entries (p.drop s.r.pos) =
        decodeEntries cap fuel (s.entries ++ [e]) (p.drop r'.pos)) := by
  have hle := s.r.pos_le
  set k := s.r.pos with hk
  have hrest : (p.drop k).length = p.length - k := List.length_drop
  have hflag : ¬ s.r.ok = false := by simp [hok]
  by_cases hend : k = p.length
  · left
    refine ⟨s.r, ?_, ?_⟩
    · rw [entryRound, if_neg hflag, if_pos hend]
    · intro fuel
      rw [decodeEntries, if_pos (by omega), hok]
      rfl
  by_cases hshort : p.length - k < 12
  · left
    refine ⟨s.r.fail, ?_, ?_⟩
    · rw [entryRound, if_neg hflag, if_neg hend, if_pos hshort]
    · intro fuel
      rw [decodeEntries, if_neg (by omega), if_pos (by omega)]
      rfl
  obtain ⟨r3, s3, hround⟩ := entryRound_read cap hok hk.symm (by omega)
  have hdec := fun fuel => decodeEntries_drop cap fuel s.entries (show k + 12 ≤ p.length by omega)
  set nameLen := (u16At p (k + 10)).toNat with hname
  by_cases hzero : u16At p k = 0
  · rw [if_pos hzero] at hround
    by_cases hpath : p.length - k - 12 < 2
    · left
      refine ⟨r3.fail, ?_, ?_⟩
      · rw [hround, if_pos (by omega)]
      · intro fuel
        rw [hdec, if_pos hzero, if_pos hpath]
        rfl
    · left
      obtain ⟨r4, h4, s4⟩ := Reader.take_step 2 s3 (by omega)
      obtain ⟨r5, h5, hok5, -⟩ := Reader.take_step (p.length - r4.pos) s4 (by omega)
      refine ⟨r5, ?_, ?_⟩
      · rw [hround, if_neg (by omega), h4]
        dsimp only
        rw [h5]
      · intro fuel
        rw [hdec, if_pos hzero, if_neg hpath, hok5]
        rfl
  rw [if_neg hzero] at hround
  by_cases hbad : nameLen = 0 ∨ nameLen > dfileMaxFileNameLen
  · left
    refine ⟨r3.fail, ?_, ?_⟩
    · rw [hround, if_pos hbad]
    · intro fuel
      rw [hdec, if_neg hzero, if_pos hbad]
      rfl
  rw [if_neg hbad] at hround
  by_cases hroom : p.length - k - 12 < nameLen
  · left
    refine ⟨r3.fail, ?_, ?_⟩
    · rw [hround, Reader.take_of_lt (by omega)]
    · intro fuel
      rw [hdec, if_neg hzero, if_neg hbad, if_pos hroom]
      rfl
  obtain ⟨r4, h4, hok4, hpos4⟩ := Reader.take_step nameLen s3 (by omega)
  rw [h4] at hround
  dsimp only at hround
  by_cases hcap : s.entries.length ≥ cap
  · left
    refine ⟨r4.fail, ?_, ?_⟩
    · rw [hround, if_pos hcap]
    · intro fuel
      rw [hdec, if_neg hzero, if_neg hbad, if_neg hroom, if_pos hcap]
      rfl
  · right
    refine ⟨r4, ⟨u16At p k, u64At p (k + 2), cString (field nameLen (k + 12) p)⟩, ?_, hok4,
      by omega, by omega, ?_⟩
    · rw [hround, if_neg hcap]
    · intro fuel
      have hpos : k + (12 + nameLen) = r4.pos := by omega
      rw [hdec, if_neg hzero, if_neg hbad, if_neg hroom, if_neg hcap, hpos]

/-- **The loop ends**, within as many rounds as bytes are left and one more, in the result of
`decodeEntries`; every cell it stores in is one of the array. -/
theorem entryLoop_spec (cap : ℕ) (fuel : ℕ) : ∀ (s : EntryLoop p), s.r.ok = true →
    p.length - s.r.pos < fuel → (∀ i ∈ s.stores, i < cap) →
    ∃ s', (∀ more, entryLoop cap (fuel + more) s = some s') ∧
      decodeEntries cap fuel s.entries (p.drop s.r.pos) =
        (if s'.r.ok then some s'.entries else none) ∧
      ∀ i ∈ s'.stores, i < cap := by
  induction fuel with
  | zero =>
      intro s _ hfuel _
      exact absurd hfuel (Nat.not_lt_zero _)
  | succ fuel ih =>
      intro s hok hfuel hstores
      rcases entryRound_spec cap s hok with ⟨r', hround, hdec⟩ | ⟨r', e, hround, hok', hpos, hlen, hdec⟩
      · refine ⟨{ s with r := r' }, ?_, hdec fuel, hstores⟩
        intro more
        rw [Nat.add_right_comm, entryLoop, hround]
      · have hle := r'.pos_le
        have hcells : ∀ i ∈ s.stores ++ [s.entries.length], i < cap := by
          intro i hi
          rcases List.mem_append.mp hi with hi | hi
          · exact hstores i hi
          · rw [List.mem_singleton.mp hi]
            exact hlen
        obtain ⟨s', hloop, hres, hcells'⟩ := ih
          ⟨r', s.entries ++ [e], s.stores ++ [s.entries.length]⟩ hok' (by dsimp only; omega) hcells
        refine ⟨s', ?_, ?_, hcells'⟩
        · intro more
          rw [Nat.add_right_comm, entryLoop, hround]
          exact hloop more
        · rw [hdec fuel]
          exact hres

end Loop

/-! ## The grammar of the whole frame -/

theorem headerText_iff {frame : Bytes} {transId node : UInt16} {es : List DFileHeaderEntry} :
    HeaderText transId node es frame ↔
      ∃ h p, framePayload frame .fileHeader = some (h, p) ∧ 2 ≤ p.length ∧ h.transId = transId ∧
        u16At p 0 = node ∧ EntriesText (entryCap node) es (p.drop 2) := by
  constructor
  · rintro ⟨flag, sessionId, length, entries, rfl, hlen, hmax, hes⟩
    set p := putU16 node ++ entries with hp
    have hplen : p.length = 2 + entries.length := by
      rw [hp, List.length_append, putU16_length]
    have hcarried : Carried p := by
      constructor <;> omega
    refine ⟨_, p, framePayload_mk (by omega) hcarried, by omega, rfl, u16At_zero _ _, ?_⟩
    have hdrop : p.drop 2 = entries := List.drop_left' (putU16_length node)
    rwa [hdrop]
  · rintro ⟨h, p, hp, hlen, rfl, rfl, hes⟩
    obtain ⟨hsize, hplen, hcarried⟩ := framePayload_length hp
    refine ⟨h.flag, h.sessionId, h.length, p.drop 2, ?_, ?_, ?_, hes⟩
    · have hnode : putU16 (u16At p 0) ++ p.drop 2 = p := by
        rw [putU16_u16At (by omega)]
        exact List.take_append_drop 2 p
      rw [hnode]
      exact framePayload_bytes hp
    · rw [List.length_drop]
      omega
    · rw [← hplen]
      exact hcarried.2

/-- **The decoder accepts exactly the grammar.** -/
theorem dfileDecodeFileHeader_iff {frame : Bytes} {transId node : UInt16}
    {res : List DFileHeaderEntry} :
    dfileDecodeFileHeader frame = some ⟨transId, node, res⟩ ↔
      ∃ es, HeaderText transId node es frame ∧ res = es.map DFileHeaderEntry.cut := by
  have hloop : ∀ p : Bytes, decodeEntries (entryCap (u16At p 0)) (p.length - 2) [] (p.drop 2) =
      some res ↔ ∃ es, EntriesText (entryCap (u16At p 0)) es (p.drop 2) ∧
        res = es.map DFileHeaderEntry.cut := by
    intro p
    have hiff := @decodeEntries_iff (entryCap (u16At p 0)) (p.length - 2) (p.drop 2) [] res
      (by rw [List.length_drop]) (Nat.zero_le _)
    simpa using hiff
  constructor
  · intro h
    obtain ⟨hd, p, hp, hg⟩ := framePayload_of_bind h
    dsimp only at hg
    split at hg
    · cases hg
    rename_i hshort
    obtain ⟨entries, hentries, hres⟩ := Option.map_eq_some_iff.mp hg
    cases hres
    obtain ⟨es, hes, hcut⟩ := (hloop p).mp hentries
    exact ⟨es, headerText_iff.mpr ⟨hd, p, hp, by omega, rfl, rfl, hes⟩, hcut⟩
  · rintro ⟨es, htext, hcut⟩
    obtain ⟨hd, p, hp, hlen, rfl, rfl, hes⟩ := headerText_iff.mp htext
    have hentries := (hloop p).mpr ⟨es, hes, hcut⟩
    rw [dfileDecodeFileHeader, hp, Option.bind_some]
    dsimp only
    rw [if_neg (by omega)]
    exact Option.map_eq_some_iff.mpr ⟨res, hentries, rfl⟩

/-- The outputs when the entries are about to be read, or the frame is rejected before. -/
def headerWritten (frame : Bytes) (o : FileHeaderOut) : FileHeaderOut :=
  let o := { o with entries := store o.entries none, n := store o.n 0 }
  match framePayload frame .fileHeader with
  | none => o
  | some (h, p) =>
      if p.length < 2 then o
      else
        { o with
          transId := store o.transId h.transId, nodeNumber := store o.nodeNumber (u16At p 0) }

@[simp] theorem store_store {α : Type} (out : Option α) (v w : α) :
    store (store out v) w = store out w := by
  cases out <;> rfl

/-- **A call with both required pointers.** It ends, returns what `dfileDecodeFileHeader`
does, uses only bytes of the frame and stores only in cells it has allocated. -/
theorem dfileDecodeFileHeaderInto_spec (frame : Bytes) (o : FileHeaderOut)
    (hentries : o.entries ≠ none) (hn : o.n ≠ none) :
    ∃ d, (∀ fuel > frame.length, dfileDecodeFileHeaderInto fuel frame o = some d) ∧
      d.result.Returns (dfileDecodeFileHeader frame) (headerWritten frame o) (fun res =>
        ⟨store o.transId res.transId, store o.nodeNumber res.nodeNumber,
          store o.entries (some res.entries), store o.n res.entries.length⟩) ∧
      (∀ u ∈ d.result.used, u.1 + u.2 ≤ frame.length) ∧ ∀ i ∈ d.stores, i < d.cells := by
  have hptr : ¬ (o.entries = none ∨ o.n = none) := by
    rintro (h | h)
    · exact hentries h
    · exact hn h
  cases hp : framePayload frame .fileHeader with
  | none =>
      have hdec : dfileDecodeFileHeader frame = none := by rw [dfileDecodeFileHeader, hp]; rfl
      refine ⟨⟨⟨false, headerWritten frame o, headerUsed frame⟩, 0, []⟩, ?_, ?_,
        headerUsed_inside frame, by simp⟩
      · intro fuel _
        simp only [dfileDecodeFileHeaderInto, if_neg hptr, hp, headerWritten]
      · rw [hdec]
        exact ⟨rfl, rfl⟩
  | some hpay =>
      obtain ⟨h, p⟩ := hpay
      by_cases hshort : p.length < 2
      · have hdec : dfileDecodeFileHeader frame = none := by
          rw [dfileDecodeFileHeader, hp, Option.bind_some]
          exact if_pos hshort
        refine ⟨⟨⟨false, headerWritten frame o, headerUsed frame⟩, 0, []⟩, ?_, ?_,
          headerUsed_inside frame, by simp⟩
        · intro fuel _
          simp only [dfileDecodeFileHeaderInto, if_neg hptr, hp, if_pos hshort, headerWritten]
        · rw [hdec]
          exact ⟨rfl, rfl⟩
      · obtain ⟨r, hr, hok, hpos⟩ := Reader.u16_step (r := Reader.init p) (k := 0) ⟨rfl, rfl⟩
          (by omega)
        obtain ⟨hsize, hplen, -⟩ := framePayload_length hp
        obtain ⟨s, hloop, hres, hcells⟩ := entryLoop_spec (entryCap (u16At p 0)) (p.length + 1)
          ⟨r, [], []⟩ hok (by dsimp only; omega) (by simp)
        have hfuel : ∀ fuel > frame.length,
            entryLoop (entryCap (u16At p 0)) fuel ⟨r, [], []⟩ = some s := by
          intro fuel hfuel
          have hmore := hloop (fuel - (p.length + 1))
          rwa [Nat.add_sub_cancel' (by omega)] at hmore
        have hentriesAt : decodeEntries (entryCap (u16At p 0)) (p.length - 2) [] (p.drop 2) =
            if s.r.ok then some s.entries else none := by
          have hsame : decodeEntries (entryCap (u16At p 0)) (p.length - 2) [] (p.drop 2) =
              decodeEntries (entryCap (u16At p 0)) (p.length + 1) [] (p.drop 2) :=
            decodeEntries_fuel (by rw [List.length_drop]) (by rw [List.length_drop]; omega)
              (Nat.zero_le _)
          rw [hsame]
          simpa [hpos] using hres
        have hdec : dfileDecodeFileHeader frame =
            (if s.r.ok then some s.entries else none).map fun entries =>
              ⟨h.transId, u16At p 0, entries⟩ := by
          rw [dfileDecodeFileHeader, hp, Option.bind_some, ← hentriesAt]
          exact if_neg hshort
        have hrun : ∀ fuel > frame.length, dfileDecodeFileHeaderInto fuel frame o =
            some ⟨⟨s.r.ok,
              if s.r.ok = false then headerWritten frame o
              else
                { headerWritten frame o with
                  entries := store o.entries (some s.entries), n := store o.n s.entries.length },
              readerUsed frame s.r⟩, entryCap (u16At p 0), s.stores⟩ := by
          intro fuel hfuel'
          simp only [dfileDecodeFileHeaderInto, if_neg hptr, hp, if_neg hshort, headerWritten]
          rw [hr]
          dsimp only
          rw [hfuel fuel hfuel']
          simp only [Option.map_some, store_store]
        refine ⟨_, hrun, ?_, readerUsed_inside hp s.r, hcells⟩
        rw [hdec]
        dsimp only
        cases hflag : s.r.ok with
        | false => exact ⟨rfl, rfl⟩
        | true =>
            refine ⟨rfl, ?_⟩
            simp only [headerWritten, hp, if_neg hshort]
            rfl

/-- **The file header decoder.** It returns TRUE exactly on the frames of the grammar, with
their entries; on every input its loop ends, it uses only bytes of the frame, and it stores
only in cells it has allocated. -/
theorem dfile_file_header_grammar (frame : Bytes) (transId node : Option UInt16)
    (entries : Option (List DFileHeaderEntry)) (n : ℕ) :
    ∃ d, (∀ fuel > frame.length,
        dfileDecodeFileHeaderInto fuel frame ⟨transId, node, some entries, some n⟩ = some d) ∧
      (d.result.ok = true ↔ ∃ t k es, HeaderText t k es frame) ∧
      (∀ t k es, HeaderText t k es frame →
        d.result.out = ⟨store transId t, store node k, some (some (es.map DFileHeaderEntry.cut)),
          some es.length⟩) ∧
      (∀ u ∈ d.result.used, u.1 + u.2 ≤ frame.length) ∧ ∀ i ∈ d.stores, i < d.cells := by
  obtain ⟨d, hrun, hres, hused, hcells⟩ := dfileDecodeFileHeaderInto_spec frame
    ⟨transId, node, some entries, some n⟩ (by simp) (by simp)
  refine ⟨d, hrun, ⟨?_, ?_⟩, ?_, hused, hcells⟩
  · intro hok
    cases hdec : dfileDecodeFileHeader frame with
    | none =>
        rw [hdec] at hres
        rw [hres.1] at hok
        cases hok
    | some res =>
        obtain ⟨es, htext, -⟩ := dfileDecodeFileHeader_iff.mp hdec
        exact ⟨_, _, es, htext⟩
  · rintro ⟨t, k, es, htext⟩
    rw [dfileDecodeFileHeader_iff.mpr ⟨es, htext, rfl⟩] at hres
    exact hres.1
  · intro t k es htext
    rw [dfileDecodeFileHeader_iff.mpr ⟨es, htext, rfl⟩] at hres
    rw [hres.2]
    simp [store]

end HwPhoneLink.DFile
