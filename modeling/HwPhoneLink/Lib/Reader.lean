import HwPhoneLink.Lib.BigEndian

/-!
# A bounds-checked reader

A reader walks over a byte string `base`. A read that would pass the end gives zero and
sets the reader's flag, which every later read sees; the spans taken are recorded. That the
position and all spans lie in the byte string is part of the type.
-/

namespace BigEndian

/-- A reader over `base`: position, flag, and the spans taken as offset and width. -/
structure Reader (base : Bytes) where
  pos : ℕ
  ok : Bool
  taken : List (ℕ × ℕ)
  pos_le : pos ≤ base.length
  inside : ∀ s ∈ taken, s.1 + s.2 ≤ base.length

namespace Reader

variable {base : Bytes}

/-- At the start. -/
def init (base : Bytes) : Reader base where
  pos := 0
  ok := true
  taken := []
  pos_le := Nat.zero_le _
  inside := by simp

/-- With the flag set. -/
def fail (r : Reader base) : Reader base := { r with ok := false }

/-- Past `n` bytes that are there. -/
def advance (r : Reader base) (n : ℕ) (h : r.pos + n ≤ base.length) : Reader base where
  pos := r.pos + n
  ok := r.ok
  taken := r.taken ++ [(r.pos, n)]
  pos_le := h
  inside := by
    intro s hs
    rcases List.mem_append.mp hs with hs | hs
    · exact r.inside s hs
    · rw [List.mem_singleton.mp hs]
      exact h

/-- The offset of the next `n` bytes; `none` past the end. -/
def take (r : Reader base) (n : ℕ) : Option ℕ × Reader base :=
  if h : r.ok = true ∧ r.pos + n ≤ base.length then (some r.pos, r.advance n h.2)
  else (none, r.fail)

def u16 (r : Reader base) : UInt16 × Reader base :=
  (((r.take 2).1.map (u16At base)).getD 0, (r.take 2).2)

def u32 (r : Reader base) : UInt32 × Reader base :=
  (((r.take 4).1.map (u32At base)).getD 0, (r.take 4).2)

def u64 (r : Reader base) : UInt64 × Reader base :=
  (((r.take 8).1.map (u64At base)).getD 0, (r.take 8).2)

/-- `n` words one after the other. -/
def u16s : ℕ → Reader base → List UInt16 × Reader base
  | 0, r => ([], r)
  | n + 1, r => (r.u16.1 :: (u16s n r.u16.2).1, (u16s n r.u16.2).2)

@[simp] theorem init_pos : (init base).pos = 0 := rfl
@[simp] theorem init_ok : (init base).ok = true := rfl
@[simp] theorem fail_ok (r : Reader base) : r.fail.ok = false := rfl
@[simp] theorem fail_pos (r : Reader base) : r.fail.pos = r.pos := rfl
@[simp] theorem advance_pos (r : Reader base) {n : ℕ} (h : r.pos + n ≤ base.length) :
    (r.advance n h).pos = r.pos + n := rfl
@[simp] theorem advance_ok (r : Reader base) {n : ℕ} (h : r.pos + n ≤ base.length) :
    (r.advance n h).ok = r.ok := rfl

theorem take_of_le {r : Reader base} {n : ℕ} (hok : r.ok = true) (h : r.pos + n ≤ base.length) :
    r.take n = (some r.pos, r.advance n h) := dif_pos ⟨hok, h⟩

theorem take_of_lt {r : Reader base} {n : ℕ} (h : base.length < r.pos + n) :
    r.take n = (none, r.fail) := dif_neg fun hn => Nat.not_le.mpr h hn.2

theorem u16_of_le {r : Reader base} (hok : r.ok = true) (h : r.pos + 2 ≤ base.length) :
    r.u16 = (u16At base r.pos, r.advance 2 h) := by
  rw [u16, take_of_le hok h]
  rfl

theorem u32_of_le {r : Reader base} (hok : r.ok = true) (h : r.pos + 4 ≤ base.length) :
    r.u32 = (u32At base r.pos, r.advance 4 h) := by
  rw [u32, take_of_le hok h]
  rfl

theorem u64_of_le {r : Reader base} (hok : r.ok = true) (h : r.pos + 8 ≤ base.length) :
    r.u64 = (u64At base r.pos, r.advance 8 h) := by
  rw [u64, take_of_le hok h]
  rfl

/-! What a read of bytes that are there leaves behind. -/

theorem take_step {r : Reader base} {k : ℕ} (n : ℕ) (hr : r.ok = true ∧ r.pos = k)
    (h : k + n ≤ base.length) : ∃ r', r.take n = (some k, r') ∧ r'.ok = true ∧ r'.pos = k + n := by
  obtain ⟨hok, rfl⟩ := hr
  exact ⟨_, take_of_le hok h, hok, rfl⟩

theorem u16_step {r : Reader base} {k : ℕ} (hr : r.ok = true ∧ r.pos = k)
    (h : k + 2 ≤ base.length) : ∃ r', r.u16 = (u16At base k, r') ∧ r'.ok = true ∧ r'.pos = k + 2 := by
  obtain ⟨hok, rfl⟩ := hr
  exact ⟨_, u16_of_le hok h, hok, rfl⟩

theorem u32_step {r : Reader base} {k : ℕ} (hr : r.ok = true ∧ r.pos = k)
    (h : k + 4 ≤ base.length) : ∃ r', r.u32 = (u32At base k, r') ∧ r'.ok = true ∧ r'.pos = k + 4 := by
  obtain ⟨hok, rfl⟩ := hr
  exact ⟨_, u32_of_le hok h, hok, rfl⟩

theorem u64_step {r : Reader base} {k : ℕ} (hr : r.ok = true ∧ r.pos = k)
    (h : k + 8 ≤ base.length) : ∃ r', r.u64 = (u64At base k, r') ∧ r'.ok = true ∧ r'.pos = k + 8 := by
  obtain ⟨hok, rfl⟩ := hr
  exact ⟨_, u64_of_le hok h, hok, rfl⟩

/-- **Words that are all there are read as they stand.** -/
theorem u16s_of_le (n : ℕ) : ∀ {r : Reader base}, r.ok = true → r.pos + 2 * n ≤ base.length →
    (r.u16s n).1 = (List.range n).map (fun i => u16At base (r.pos + 2 * i)) ∧
      (r.u16s n).2.ok = true := by
  induction n with
  | zero =>
      intro r hok _
      exact ⟨rfl, hok⟩
  | succ n ih =>
      intro r hok h
      have hword := u16_of_le hok (show r.pos + 2 ≤ base.length by omega)
      obtain ⟨hws, hok'⟩ := ih (r := r.advance 2 (by omega)) hok (by rw [advance_pos]; omega)
      have hshift : (fun i => u16At base (r.pos + 2 * i)) ∘ Nat.succ =
          fun i => u16At base (r.pos + 2 + 2 * i) := by
        funext i
        rw [Function.comp_apply, Nat.succ_eq_add_one]
        congr 1
        omega
      rw [u16s, hword]
      refine ⟨?_, hok'⟩
      rw [hws, List.range_succ_eq_map, List.map_cons, List.map_map, hshift]
      rfl

end Reader

end BigEndian
