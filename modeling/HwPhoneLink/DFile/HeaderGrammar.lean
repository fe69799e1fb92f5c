import HwPhoneLink.DFile.Codec

/-!
# The grammar of a file header frame

A node count, entries, and at the end nothing or one user data unit. What
`dfileDecodeFileHeader` accepts is exactly this, and it returns the entries with their
names cut at the first NUL.
-/

namespace HwPhoneLink.DFile

open BigEndian Path

/-- An entry that the grammar has: an id, and a name of 1 to 256 bytes. -/
structure DFileHeaderEntry.Wire (e : DFileHeaderEntry) : Prop where
  id_ne : e.fileId ≠ 0
  name_pos : 0 < e.name.length
  name_le : e.name.length ≤ dfileMaxFileNameLen

/-- The name as the receiver keeps it. -/
def DFileHeaderEntry.cut (e : DFileHeaderEntry) : DFileHeaderEntry :=
  { e with name := cString e.name }

/-- A user data unit: id zero, ten bytes, a path type and any data. -/
def UserDataUnit (bs : Bytes) : Prop :=
  ∃ fill pathType data : Bytes, fill.length = 10 ∧ pathType.length = 2 ∧
    bs = putU16 0 ++ (fill ++ (pathType ++ data))

/-- At most `cap` entries, then nothing or a user data unit. -/
structure EntriesText (cap : ℕ) (es : List DFileHeaderEntry) (bs : Bytes) : Prop where
  wire : ∀ e ∈ es, e.Wire
  count : es.length ≤ cap
  text : ∃ tail, bs = es.flatMap DFileHeaderEntry.bytes ++ tail ∧ (tail = [] ∨ UserDataUnit tail)

/-- How many entries a node count allows. -/
def entryCap (node : UInt16) : ℕ := if node.toNat > 0 then node.toNat else dfileMaxFileNum

/-- A file header frame: type, length and payload. -/
def HeaderText (transId node : UInt16) (es : List DFileHeaderEntry) (bs : Bytes) : Prop :=
  ∃ (flag : UInt8) (sessionId length : UInt16) (entries : Bytes),
    bs = DFileFrameType.fileHeader.code :: flag :: (putU16 sessionId ++ (putU16 transId ++
      (putU16 length ++ (putU16 node ++ entries)))) ∧
    length.toNat = 2 + entries.length ∧ length.toNat ≤ dfileFrameMaxLen ∧
    EntriesText (entryCap node) es entries

/-! ## One entry -/

section Entry

variable {e : DFileHeaderEntry} {rest : Bytes}

theorem DFileHeaderEntry.bytes_append (e : DFileHeaderEntry) (rest : Bytes) :
    e.bytes ++ rest = putU16 e.fileId ++ (putU64 e.fileSize ++
      (putU16 (UInt16.ofNat e.name.length) ++ (e.name ++ rest))) := by
  simp [DFileHeaderEntry.bytes]

theorem DFileHeaderEntry.id_at (e : DFileHeaderEntry) (rest : Bytes) :
    u16At (e.bytes ++ rest) 0 = e.fileId := by
  rw [e.bytes_append]
  exact u16At_zero _ _

theorem DFileHeaderEntry.size_at (e : DFileHeaderEntry) (rest : Bytes) :
    u64At (e.bytes ++ rest) 2 = e.fileSize := by
  rw [e.bytes_append]
  exact u64At_append _ _ _ (by simp)

theorem DFileHeaderEntry.Wire.nameLen_at (he : e.Wire) (rest : Bytes) :
    (u16At (e.bytes ++ rest) 10).toNat = e.name.length := by
  have hword : u16At (e.bytes ++ rest) 10 = UInt16.ofNat e.name.length := by
    rw [e.bytes_append, ← List.append_assoc]
    exact u16At_append _ _ _ (by simp)
  have hle := he.name_le
  rw [dfileMaxFileNameLen] at hle
  rw [hword, UInt16.toNat_ofNat', Nat.mod_eq_of_lt (by omega)]

theorem DFileHeaderEntry.name_at (e : DFileHeaderEntry) (rest : Bytes) :
    field e.name.length 12 (e.bytes ++ rest) = e.name := by
  rw [e.bytes_append, ← List.append_assoc, ← List.append_assoc]
  exact field_append _ _ _ (by simp) rfl

theorem decodeEntries_entry {cap fuel : ℕ} {entries : List DFileHeaderEntry} (he : e.Wire) :
    decodeEntries cap (fuel + 1) entries (e.bytes ++ rest) =
      if entries.length ≥ cap then none
      else decodeEntries cap fuel (entries ++ [e.cut]) rest := by
  have hlen : (e.bytes ++ rest).length = 12 + e.name.length + rest.length := by
    rw [List.length_append, e.bytes_length]
  have hpos := he.name_pos
  have hdrop : (e.bytes ++ rest).drop (12 + e.name.length) = rest := List.drop_left' e.bytes_length
  have h1 : ¬ (e.bytes ++ rest).length = 0 := by omega
  have h2 : ¬ (e.bytes ++ rest).length < 12 := by omega
  have h3 : ¬ (e.name.length = 0 ∨ e.name.length > dfileMaxFileNameLen) := by
    have := he.name_le
    omega
  have h4 : ¬ (e.bytes ++ rest).length - 12 < e.name.length := by omega
  rw [decodeEntries, if_neg h1, if_neg h2]
  simp only [e.id_at, he.nameLen_at, if_neg he.id_ne, if_neg h3, if_neg h4, e.size_at, e.name_at,
    hdrop]
  rfl

theorem decodeEntries_unit {cap fuel : ℕ} {entries : List DFileHeaderEntry} {bs : Bytes}
    (h : UserDataUnit bs) : decodeEntries cap (fuel + 1) entries bs = some entries := by
  obtain ⟨fill, pathType, data, hfill, hpath, rfl⟩ := h
  set bs := putU16 0 ++ (fill ++ (pathType ++ data)) with hbs
  have hlen : bs.length = 14 + data.length := by
    simp [hbs, hfill, hpath]
    omega
  have hid : u16At bs 0 = 0 := u16At_zero _ _
  have h1 : ¬ bs.length = 0 := by omega
  have h2 : ¬ bs.length < 12 := by omega
  have h3 : ¬ bs.length - 12 < 2 := by omega
  rw [decodeEntries, if_neg h1, if_neg h2]
  simp only [hid, if_true, if_neg h3]

/-- **What one round of the decoder can see**: the end, a user data unit, an entry, or
something that it rejects. -/
theorem entries_cases (bs : Bytes) :
    bs = [] ∨ UserDataUnit bs ∨ (∃ (e : DFileHeaderEntry) (rest : Bytes), e.Wire ∧ bs = e.bytes ++ rest) ∨
      ∀ cap fuel entries, decodeEntries cap (fuel + 1) entries bs = none := by
  by_cases hnil : bs = []
  · exact Or.inl hnil
  right
  have hpos : ¬ bs.length = 0 := fun h => hnil (List.length_eq_zero_iff.mp h)
  by_cases hshort : bs.length < 12
  · right; right
    intro cap fuel entries
    rw [decodeEntries, if_neg hpos, if_pos hshort]
  by_cases hid : u16At bs 0 = 0
  · by_cases hpath : bs.length - 12 < 2
    · right; right
      intro cap fuel entries
      rw [decodeEntries, if_neg hpos, if_neg hshort]
      simp only [hid, if_true, if_pos hpath]
    · left
      refine ⟨field 10 2 bs, field 2 12 bs, bs.drop 14, field_length (by omega),
        field_length (by omega), ?_⟩
      have hzero : putU16 0 = field 2 0 bs := by
        rw [← hid]
        exact putU16_u16At (by omega)
      rw [hzero, ← List.append_assoc, ← List.append_assoc, field_add 2 10 0 bs,
        field_add 12 2 0 bs]
      exact (List.take_append_drop 14 bs).symm
  · right
    set nameLen := (u16At bs 10).toNat with hnameLen
    by_cases hname : nameLen = 0 ∨ nameLen > dfileMaxFileNameLen
    · right
      intro cap fuel entries
      rw [decodeEntries, if_neg hpos, if_neg hshort]
      simp only [← hnameLen, if_neg hid, if_pos hname]
    by_cases hroom : bs.length - 12 < nameLen
    · right
      intro cap fuel entries
      rw [decodeEntries, if_neg hpos, if_neg hshort]
      simp only [← hnameLen, if_neg hid, if_neg hname, if_pos hroom]
    · left
      have hlen : (field nameLen 12 bs).length = nameLen := field_length (by omega)
      refine ⟨⟨u16At bs 0, u64At bs 2, field nameLen 12 bs⟩, bs.drop (12 + nameLen),
        ⟨hid, ?_, ?_⟩, ?_⟩
      · rw [hlen]
        omega
      · rw [hlen]
        omega
      · have hword : putU16 (UInt16.ofNat (field nameLen 12 bs).length) = field 2 10 bs := by
          rw [hlen, hnameLen, UInt16.ofNat_toNat]
          exact putU16_u16At (by omega)
        rw [DFileHeaderEntry.bytes]
        dsimp only
        rw [hword, putU16_u16At (by omega), putU64_u64At (by omega), field_add 2 nameLen 10 bs,
          field_add 8 (2 + nameLen) 2 bs, field_add 2 (8 + (2 + nameLen)) 0 bs]
        have htotal : 2 + (8 + (2 + nameLen)) = 12 + nameLen := by omega
        rw [htotal]
        exact (List.take_append_drop (12 + nameLen) bs).symm

end Entry

/-! ## All entries -/

theorem EntriesText.nil {cap : ℕ} {bs : Bytes} (h : bs = [] ∨ UserDataUnit bs) :
    EntriesText cap [] bs :=
  ⟨by simp, Nat.zero_le _, bs, rfl, h⟩

theorem EntriesText.cons {cap : ℕ} {e : DFileHeaderEntry} {es : List DFileHeaderEntry}
    {rest : Bytes} (he : e.Wire) (h : EntriesText cap es rest) :
    EntriesText (cap + 1) (e :: es) (e.bytes ++ rest) := by
  obtain ⟨tail, rfl, htail⟩ := h.text
  refine ⟨?_, Nat.succ_le_succ h.count, tail, ?_, htail⟩
  · rintro e' (_ | ⟨_, he'⟩)
    · exact he
    · exact h.wire e' he'
  · rw [List.flatMap_cons, List.append_assoc]

/-- What the grammar says of the first round. -/
theorem EntriesText.first {cap : ℕ} {es : List DFileHeaderEntry} {bs : Bytes}
    (h : EntriesText cap es bs) :
    (es = [] ∧ (bs = [] ∨ UserDataUnit bs)) ∨
      ∃ e es' rest, es = e :: es' ∧ e.Wire ∧ bs = e.bytes ++ rest ∧ 0 < cap ∧
        EntriesText (cap - 1) es' rest := by
  obtain ⟨tail, hbs, htail⟩ := h.text
  cases es with
  | nil => exact Or.inl ⟨rfl, hbs ▸ htail⟩
  | cons e es' =>
      have hcount := h.count
      rw [List.length_cons] at hcount
      refine Or.inr ⟨e, es', es'.flatMap DFileHeaderEntry.bytes ++ tail, rfl,
        h.wire e (by simp), ?_, by omega, ?_, by omega, tail, rfl, htail⟩
      · rw [hbs, List.flatMap_cons, List.append_assoc]
      · exact fun e' he' => h.wire e' (List.mem_cons_of_mem _ he')

/-- **The entry loop accepts exactly the grammar**, and returns the entries cut. -/
theorem decodeEntries_iff {cap : ℕ} (fuel : ℕ) : ∀ {bs : Bytes}
    {entries res : List DFileHeaderEntry}, bs.length ≤ fuel → entries.length ≤ cap →
    (decodeEntries cap fuel entries bs = some res ↔
      ∃ es, EntriesText (cap - entries.length) es bs ∧
        res = entries ++ es.map DFileHeaderEntry.cut) := by
  induction fuel with
  | zero =>
      intro bs entries res hfuel _
      obtain rfl : bs = [] := List.length_eq_zero_iff.mp (Nat.le_zero.mp hfuel)
      constructor
      · intro h
        cases h
        exact ⟨[], EntriesText.nil (Or.inl rfl), (List.append_nil _).symm⟩
      · rintro ⟨es, hes, rfl⟩
        rcases hes.first with ⟨rfl, -⟩ | ⟨e, es', rest, rfl, -, hbs, -, -⟩
        · rw [List.map_nil, List.append_nil]
          rfl
        · have hlen := congrArg List.length hbs
          rw [List.length_append, e.bytes_length, List.length_nil] at hlen
          omega
  | succ fuel ih =>
      intro bs entries res hfuel hcap
      have hstep : ∀ {e : DFileHeaderEntry} {rest : Bytes}, bs = e.bytes ++ rest →
          ¬ entries.length ≥ cap →
          rest.length ≤ fuel ∧ (entries ++ [e.cut]).length ≤ cap ∧
            cap - (entries ++ [e.cut]).length = cap - entries.length - 1 := by
        intro e rest hbs hroom
        rw [hbs, List.length_append, e.bytes_length] at hfuel
        rw [List.length_append, List.length_singleton]
        omega
      constructor
      · intro h
        rcases entries_cases bs with rfl | hunit | ⟨e, rest, he, hbs⟩ | hreject
        · cases h
          exact ⟨[], EntriesText.nil (Or.inl rfl), (List.append_nil _).symm⟩
        · rw [decodeEntries_unit hunit] at h
          cases h
          exact ⟨[], EntriesText.nil (Or.inr hunit), (List.append_nil _).symm⟩
        · rw [hbs, decodeEntries_entry he] at h
          split at h
          · cases h
          rename_i hroom
          obtain ⟨hrest, hle, hcount⟩ := hstep hbs hroom
          obtain ⟨es, hes, rfl⟩ := (ih hrest hle).mp h
          rw [hcount] at hes
          refine ⟨e :: es, ?_, by simp⟩
          have hcons := EntriesText.cons he hes
          rwa [Nat.sub_add_cancel (by omega), ← hbs] at hcons
        · rw [hreject] at h
          cases h
      · rintro ⟨es, hes, rfl⟩
        rcases hes.first with ⟨rfl, rfl | hunit⟩ | ⟨e, es', rest, rfl, he, hbs, hpos, hes'⟩
        · rw [List.map_nil, List.append_nil]
          rfl
        · rw [List.map_nil, List.append_nil]
          exact decodeEntries_unit hunit
        · have hroom : ¬ entries.length ≥ cap := by omega
          obtain ⟨hrest, hle, hcount⟩ := hstep hbs hroom
          rw [hbs, decodeEntries_entry he, if_neg hroom]
          refine (ih hrest hle).mpr ⟨es', ?_, by simp⟩
          rwa [hcount]

/-- More rounds than bytes change nothing. -/
theorem decodeEntries_fuel {cap fuel more : ℕ} {bs : Bytes} {entries : List DFileHeaderEntry}
    (hfuel : bs.length ≤ fuel) (hmore : bs.length ≤ more) (hcap : entries.length ≤ cap) :
    decodeEntries cap fuel entries bs = decodeEntries cap more entries bs := by
  apply Option.ext
  intro res
  exact (decodeEntries_iff fuel hfuel hcap).trans (decodeEntries_iff more hmore hcap).symm

end HwPhoneLink.DFile
