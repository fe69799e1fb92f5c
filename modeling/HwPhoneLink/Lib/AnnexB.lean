import HwPhoneLink.Lib.BigEndian

/-!
# Start codes and emulation prevention

A byte stream of units, each behind the bytes `00 00 00 01`. In the bytes of a unit a `03` is
put between two zeros and a byte up to `03`, so that `00 00 01` is only found where a unit
starts.
-/

namespace AnnexB

open BigEndian

/-! ## Emulation prevention -/

/-- The bytes of a unit behind two bytes `x` and `y`. -/
def escape : UInt8 → UInt8 → Bytes → Bytes
  | _, _, [] => []
  | x, y, b :: bs =>
      if x = 0 ∧ y = 0 ∧ b ≤ 3 then 3 :: b :: escape 3 b bs else b :: escape y b bs

/-- The zeros at the end of `x y`. -/
def zeros (x y : UInt8) : ℕ := if y = 0 then if x = 0 then 2 else 1 else 0

theorem zeros_le (x y : UInt8) : zeros x y ≤ 2 := by
  unfold zeros
  split
  · split <;> omega
  · omega

theorem zeros_succ (x y z : UInt8) : zeros y z ≤ zeros x y + 1 := by
  unfold zeros
  split
  · split
    · split <;> omega
    · omega
  · omega

/-- At most every third byte is inserted. -/
theorem escape_length_le (bs : Bytes) : ∀ x y : UInt8,
    2 * (escape x y bs).length ≤ 3 * bs.length + zeros x y := by
  induction bs with
  | nil => intro x y; exact Nat.zero_le _
  | cons b bs ih =>
      intro x y
      rw [escape, List.length_cons]
      split
      · rename_i hins
        have hzeros : zeros x y = 2 := by rw [zeros, if_pos hins.2.1, if_pos hins.1]
        have hnext : zeros 3 b ≤ 1 := by
          unfold zeros
          split
          · rw [if_neg (by decide)]
          · omega
        have hih := ih 3 b
        rw [List.length_cons, List.length_cons]
        omega
      · have hih := ih y b
        have hnext := zeros_succ x y b
        rw [List.length_cons]
        omega

theorem length_le_escape (bs : Bytes) : ∀ x y : UInt8, bs.length ≤ (escape x y bs).length := by
  induction bs with
  | nil => intro x y; exact Nat.le_refl _
  | cons b bs ih =>
      intro x y
      rw [escape]
      split
      · have hih := ih 3 b
        rw [List.length_cons, List.length_cons, List.length_cons]
        omega
      · have hih := ih y b
        rw [List.length_cons, List.length_cons]
        omega

/-! ## Start codes -/

def startCode : Bytes := [0, 0, 0, 1]

/-- The pattern `00 00 01` at a place of the stream. -/
def StartsAt (data : Bytes) (i : ℕ) : Prop :=
  data[i]? = some 0 ∧ data[i + 1]? = some 0 ∧ data[i + 2]? = some 1

instance (data : Bytes) (i : ℕ) : Decidable (StartsAt data i) := inferInstanceAs (Decidable (_ ∧ _))

/-- Every place of the pattern, with the stream from there on; the stream begins at `i`. -/
def units (i : ℕ) : Bytes → List (ℕ × Bytes)
  | [] => []
  | b :: bs =>
      if StartsAt (b :: bs) 0 then (i, b :: bs) :: units (i + 1) bs else units (i + 1) bs

theorem startsAt_zero {data : Bytes} : StartsAt data 0 ↔ ∃ rest, data = 0 :: 0 :: 1 :: rest := by
  constructor
  · rintro ⟨h0, h1, h2⟩
    rcases data with _ | ⟨a, _ | ⟨b, _ | ⟨c, rest⟩⟩⟩
    · cases h0
    · cases h1
    · cases h2
    · cases h0
      cases h1
      cases h2
      exact ⟨rest, rfl⟩
  · rintro ⟨rest, rfl⟩
    exact ⟨rfl, rfl, rfl⟩

theorem startsAt_drop (data : Bytes) (i j : ℕ) :
    StartsAt (data.drop i) j ↔ StartsAt data (i + j) := by
  simp only [StartsAt, List.getElem?_drop, Nat.add_assoc]

/-- **The places are those of the pattern.** -/
theorem mem_units (data : Bytes) : ∀ i p rest, (p, rest) ∈ units i data ↔
    i ≤ p ∧ StartsAt data (p - i) ∧ rest = data.drop (p - i) := by
  induction data with
  | nil =>
      intro i p rest
      refine iff_of_false List.not_mem_nil ?_
      rintro ⟨-, ⟨h0, -⟩, -⟩
      cases h0
  | cons b bs ih =>
      intro i p rest
      have htail : (p, rest) ∈ units (i + 1) bs ↔
          i + 1 ≤ p ∧ StartsAt (b :: bs) (p - i) ∧ rest = (b :: bs).drop (p - i) := by
        rw [ih]
        refine and_congr_right fun hle => ?_
        have hp : p - i = p - (i + 1) + 1 := by omega
        rw [hp, List.drop_succ_cons]
        rfl
      rw [units]
      by_cases hp : p = i
      · have hno : ¬ (p, rest) ∈ units (i + 1) bs := by
          rw [htail]
          omega
        rw [hp, Nat.sub_self, List.drop_zero, and_iff_right (Nat.le_refl i)]
        rw [hp] at hno
        split
        · rename_i hstarts
          rw [List.mem_cons, or_iff_left hno, and_iff_right hstarts, Prod.mk.injEq,
            and_iff_right rfl]
        · rename_i hstarts
          exact iff_of_false hno fun h => hstarts h.1
      · have hlt : i ≤ p ↔ i + 1 ≤ p := by omega
        rw [hlt, ← htail]
        split
        · rw [List.mem_cons, Prod.mk.injEq, or_iff_right fun h => hp h.1]
        · rfl

theorem units_cons_skip {b : UInt8} {bs : Bytes} (h : ¬ StartsAt (b :: bs) 0) (i : ℕ) :
    units i (b :: bs) = units (i + 1) bs := by
  rw [units, if_neg h]

/-- The pattern does not overlap itself. -/
theorem units_of_startsAt {data : Bytes} (h : StartsAt data 0) (i : ℕ) :
    units i data = (i, data) :: units (i + 3) (data.drop 3) := by
  obtain ⟨rest, rfl⟩ := startsAt_zero.mp h
  have hzero : ¬ StartsAt (0 :: 1 :: rest) 0 := fun h => by cases h.2.1
  have hone : ¬ StartsAt (1 :: rest) 0 := fun h => by cases h.1
  rw [units, if_pos h, units_cons_skip hzero, units_cons_skip hone]
  rfl

/-! ## The units of a stream -/

/-- A stream that ends, or goes on with a start code. -/
def Continues (rest : Bytes) : Prop := rest = [] ∨ ∃ more, rest = startCode ++ more

/-- Nothing starts in the bytes of a unit. -/
theorem units_escape (bs : Bytes) {rest : Bytes} (hrest : Continues rest) :
    ∀ (i : ℕ) (x y : UInt8),
      units i (x :: y :: (escape x y bs ++ rest)) =
        units (i + 2 + (escape x y bs).length) rest := by
  induction bs with
  | nil =>
      intro i x y
      have hx : ¬ StartsAt (x :: y :: rest) 0 := by
        rintro ⟨-, -, h2⟩
        rcases hrest with rfl | ⟨more, rfl⟩ <;> cases h2
      have hy : ¬ StartsAt (y :: rest) 0 := by
        rintro ⟨-, -, h2⟩
        rcases hrest with rfl | ⟨more, rfl⟩ <;> cases h2
      rw [escape, List.nil_append, units_cons_skip hx, units_cons_skip hy]
      rfl
  | cons b bs ih =>
      intro i x y
      rw [escape]
      split
      · have hx : ¬ StartsAt (x :: y :: 3 :: b :: (escape 3 b bs ++ rest)) 0 := by
          rintro ⟨-, -, h2⟩
          cases h2
        have hy : ¬ StartsAt (y :: 3 :: b :: (escape 3 b bs ++ rest)) 0 := by
          rintro ⟨-, h1, -⟩
          cases h1
        rw [List.cons_append, List.cons_append, units_cons_skip hx, units_cons_skip hy, ih,
          List.length_cons, List.length_cons]
        congr 1
        omega
      · rename_i hkeep
        have hx : ¬ StartsAt (x :: y :: b :: (escape y b bs ++ rest)) 0 := by
          rintro ⟨h0, h1, h2⟩
          cases h0
          cases h1
          cases h2
          exact hkeep ⟨rfl, rfl, by decide⟩
        rw [List.cons_append, units_cons_skip hx, ih, List.length_cons]
        congr 1
        omega

/-- A unit: its first byte, and the bytes that are escaped behind it. -/
structure Nal where
  header : UInt8
  content : Bytes

def Nal.bytes (u : Nal) : Bytes := startCode ++ u.header :: escape 1 u.header u.content

/-- Where the units start, and their first bytes. -/
def headers (i : ℕ) : List Nal → List (ℕ × UInt8)
  | [] => []
  | u :: us => (i + 1, u.header) :: headers (i + u.bytes.length) us

theorem continues_flatMap (us : List Nal) : Continues (us.flatMap Nal.bytes) := by
  cases us with
  | nil => exact Or.inl rfl
  | cons u us =>
      right
      refine ⟨u.header :: escape 1 u.header u.content ++ us.flatMap Nal.bytes, ?_⟩
      rw [List.flatMap_cons, Nal.bytes, List.append_assoc]

/-- **Every unit is found, and nothing else.** -/
theorem units_flatMap (us : List Nal) : ∀ i,
    (units i (us.flatMap Nal.bytes)).map (fun u => (u.1, u.2.getD 3 0)) = headers i us := by
  induction us with
  | nil => intro i; rfl
  | cons u us ih =>
      intro i
      have hrest := continues_flatMap us
      have hstream : (u :: us).flatMap Nal.bytes = 0 :: 0 :: 0 :: 1 :: u.header ::
          (escape 1 u.header u.content ++ us.flatMap Nal.bytes) := by
        rw [List.flatMap_cons, Nal.bytes, List.append_assoc]
        rfl
      have hfirst : ¬ StartsAt ((u :: us).flatMap Nal.bytes) 0 := by
        rw [hstream]
        rintro ⟨-, -, h2⟩
        cases h2
      set rest := escape 1 u.header u.content ++ us.flatMap Nal.bytes
      have hcode : StartsAt (0 :: 0 :: 1 :: u.header :: rest) 0 := ⟨rfl, rfl, rfl⟩
      have hsecond : ¬ StartsAt (0 :: 1 :: u.header :: rest) 0 := fun h => by cases h.2.1
      have hlen : i + u.bytes.length = i + 3 + 2 + (escape 1 u.header u.content).length := by
        rw [Nal.bytes, List.length_append, List.length_cons]
        show i + (4 + _) = _
        omega
      rw [hstream] at hfirst ⊢
      rw [units_cons_skip hfirst, units, if_pos hcode, units_cons_skip hsecond,
        units_escape u.content hrest, List.map_cons, headers, hlen, ih]
      rfl

/-- The pattern is only found where a unit starts. -/
theorem startsAt_flatMap (us : List Nal) (i : ℕ) :
    StartsAt (us.flatMap Nal.bytes) i ↔ i ∈ (headers 0 us).map Prod.fst := by
  rw [← units_flatMap, List.map_map, List.mem_map]
  constructor
  · intro h
    exact ⟨(i, _), (mem_units _ 0 i _).mpr ⟨Nat.zero_le i, h, rfl⟩, rfl⟩
  · rintro ⟨⟨p, rest⟩, hmem, rfl⟩
    exact ((mem_units _ 0 p rest).mp hmem).2.1

end AnnexB
