import Mathlib.Data.List.DropRight

/-!
# Reading and writing a memory in bounds

A memory is a list of cells. A read or a write outside of it has no result, so what a program
computes in `Option` says with it that the program stays inside. Each scanner comes with the
list function that it computes on a part of the memory that is really there.
-/

namespace Memory

variable {α : Type}

/-- The cells of a part. -/
def slice (mem : List α) (off len : ℕ) : List α := (mem.drop off).take len

/-- Read a part whole. -/
def load (mem : List α) (off len : ℕ) : Option (List α) :=
  if off + len ≤ mem.length then some (slice mem off len) else none

/-- Copy a part to the front of a buffer of `cap` cells that holds `pad`. -/
def loadInto (cap : ℕ) (pad : α) (mem : List α) (off len : ℕ) : Option (List α) :=
  if len ≤ cap then (load mem off len).map (· ++ List.replicate (cap - len) pad) else none

/-- How many cells from an offset on satisfy `p`, in a part of `len` cells. -/
def skipWhile (mem : List α) (p : α → Bool) : ℕ → ℕ → Option ℕ
  | _, 0 => some 0
  | off, len + 1 => do
      let c ← mem[off]?
      if p c then (skipWhile mem p (off + 1) len).map (· + 1) else some 0

/-- What is left of a part when the cells at its end that satisfy `p` are gone. -/
def skipBack (mem : List α) (p : α → Bool) (off : ℕ) : ℕ → Option ℕ
  | 0 => some 0
  | len + 1 => do
      let c ← mem[off + len]?
      if p c then skipBack mem p off len else some (len + 1)

/-- The first of `count` places from an offset on where the needle stands. -/
def search [DecidableEq α] (mem needle : List α) : ℕ → ℕ → Option (Option ℕ)
  | _, 0 => some none
  | off, count + 1 => do
      let s ← load mem off needle.length
      if s = needle then some (some 0)
      else (search mem needle (off + 1) count).map (Option.map (· + 1))

/-- Write some cells at an offset. -/
def store (mem : List α) (w : ℕ × List α) : Option (List α) :=
  if w.1 + w.2.length ≤ mem.length then
    some (mem.take w.1 ++ (w.2 ++ mem.drop (w.1 + w.2.length)))
  else none

/-- One write after the other. -/
def storeAll (mem : List α) (writes : List (ℕ × List α)) : Option (List α) :=
  writes.foldlM store mem

/-- The writes that fill a part without a gap. -/
def consecutive : ℕ → List (List α) → List (ℕ × List α)
  | _, [] => []
  | off, s :: rest => (off, s) :: consecutive (off + s.length) rest

section

variable {mem : List α} {off len : ℕ}

theorem slice_length (h : off + len ≤ mem.length) : (slice mem off len).length = len := by
  rw [slice, List.length_take, List.length_drop]
  apply Nat.min_eq_left
  omega

@[simp] theorem slice_zero (mem : List α) (off : ℕ) : slice mem off 0 = [] := List.take_zero

theorem slice_cons (h : off < mem.length) (len : ℕ) :
    slice mem off (len + 1) = mem[off] :: slice mem (off + 1) len := by
  rw [slice, List.drop_eq_getElem_cons h, List.take_succ_cons]
  rfl

theorem slice_concat (h : off + len < mem.length) :
    slice mem off (len + 1) = slice mem off len ++ [mem[off + len]] := by
  have hlen : len < (mem.drop off).length := by
    rw [List.length_drop]
    omega
  rw [slice, List.take_add_one, List.getElem?_eq_getElem hlen, List.getElem_drop]
  rfl

theorem slice_all (mem : List α) : slice mem 0 mem.length = mem := by
  rw [slice, List.drop_zero, List.take_length]

theorem slice_end (mem : List α) (off : ℕ) : slice mem off (mem.length - off) = mem.drop off := by
  rw [slice, List.take_of_length_le (by rw [List.length_drop])]

theorem slice_take {a : ℕ} (ha : a ≤ len) : (slice mem off len).take a = slice mem off a := by
  rw [slice, slice, List.take_take, Nat.min_eq_left ha]

theorem slice_drop (mem : List α) (off len a : ℕ) :
    (slice mem off len).drop a = slice mem (off + a) (len - a) := by
  rw [slice, slice, List.drop_take, List.drop_drop]

theorem slice_append_left (s t : List α) (a : ℕ) :
    slice (s ++ t) a (s.length - a) = s.drop a := by
  rw [slice, ← List.drop_take, List.take_left]

theorem drop_takeWhile (p : α → Bool) (s : List α) :
    s.drop (s.takeWhile p).length = s.dropWhile p := by
  have h : (s.takeWhile p ++ s.dropWhile p).drop (s.takeWhile p).length = s.dropWhile p :=
    List.drop_left
  rwa [List.takeWhile_append_dropWhile] at h

theorem takeWhile_slice_le (p : α → Bool) (mem : List α) (off len : ℕ) :
    ((slice mem off len).takeWhile p).length ≤ len :=
  (List.takeWhile_prefix p).length_le.trans (List.length_take_le _ _)

/-- The cells that are skipped are a part. -/
theorem takeWhile_slice (p : α → Bool) (mem : List α) (off len : ℕ) :
    (slice mem off len).takeWhile p =
      slice mem off ((slice mem off len).takeWhile p).length := by
  rw [← slice_take (takeWhile_slice_le p mem off len)]
  exact List.prefix_iff_eq_take.mp (List.takeWhile_prefix p)

theorem rdropWhile_slice_le (p : α → Bool) (mem : List α) (off len : ℕ) :
    ((slice mem off len).rdropWhile p).length ≤ len :=
  (List.rdropWhile_prefix p _).length_le.trans (List.length_take_le _ _)

theorem rdropWhile_slice (p : α → Bool) (mem : List α) (off len : ℕ) :
    (slice mem off len).rdropWhile p =
      slice mem off ((slice mem off len).rdropWhile p).length := by
  rw [← slice_take (rdropWhile_slice_le p mem off len)]
  exact List.prefix_iff_eq_take.mp (List.rdropWhile_prefix p _)

/-- The first cell that does not satisfy `p`. -/
theorem getElem?_takeWhile (p : α → Bool) (s t : List α) :
    (s ++ t)[(s.takeWhile p).length]? = (s.dropWhile p ++ t).head? := by
  have hle : (s.takeWhile p).length ≤ s.length := (List.takeWhile_prefix p).length_le
  rw [List.head?_eq_getElem?, ← drop_takeWhile, ← List.drop_append_of_le_length hle,
    List.getElem?_drop, Nat.add_zero]

theorem takeWhile_lt_iff (p : α → Bool) (s : List α) :
    (s.takeWhile p).length < s.length ↔ s.all p = false := by
  have hpre : s.takeWhile p <+: s := List.takeWhile_prefix p
  rw [Bool.eq_false_iff, ne_eq, List.all_eq_true, ← List.takeWhile_eq_self_iff]
  constructor
  · intro hlt hself
    exact absurd (congrArg List.length hself) hlt.ne
  · intro hne
    apply lt_of_le_of_ne hpre.length_le
    exact fun hlen => hne (hpre.eq_of_length hlen)

theorem load_eq (h : off + len ≤ mem.length) : load mem off len = some (slice mem off len) :=
  if_pos h

theorem loadInto_eq {cap : ℕ} {pad : α} (hcap : len ≤ cap) (h : off + len ≤ mem.length) :
    loadInto cap pad mem off len =
      some (slice mem off len ++ List.replicate (cap - len) pad) := by
  rw [loadInto, if_pos hcap, load_eq h]
  rfl

/-- **Skipping forward** is `takeWhile` on the part. -/
theorem skipWhile_eq {p : α → Bool} : ∀ {len off : ℕ}, off + len ≤ mem.length →
    skipWhile mem p off len = some ((slice mem off len).takeWhile p).length := by
  intro len
  induction len with
  | zero =>
      intro off _
      rw [slice_zero]
      rfl
  | succ len ih =>
      intro off h
      have hlt : off < mem.length := by omega
      rw [skipWhile, List.getElem?_eq_getElem hlt, slice_cons hlt]
      show (if p mem[off] then (skipWhile mem p (off + 1) len).map (· + 1) else some 0) = _
      by_cases hp : p mem[off] = true
      · rw [if_pos hp, ih (by omega), List.takeWhile_cons_of_pos hp]
        rfl
      · rw [if_neg hp, List.takeWhile_cons_of_neg hp]
        rfl

theorem skipWhile_front {p : α → Bool} {s : List α} {a : ℕ} (ha : a ≤ s.length) (t : List α) :
    skipWhile (s ++ t) p a (s.length - a) = some ((s.drop a).takeWhile p).length := by
  rw [skipWhile_eq (by rw [List.length_append]; omega), slice_append_left]

/-- **Skipping back** is `rdropWhile` on the part. -/
theorem skipBack_eq {p : α → Bool} : ∀ {len : ℕ}, off + len ≤ mem.length →
    skipBack mem p off len = some ((slice mem off len).rdropWhile p).length := by
  intro len
  induction len with
  | zero =>
      intro _
      rw [slice_zero]
      rfl
  | succ len ih =>
      intro h
      have hlt : off + len < mem.length := by omega
      rw [skipBack, List.getElem?_eq_getElem hlt, slice_concat hlt]
      show (if p mem[off + len] then skipBack mem p off len else some (len + 1)) = _
      by_cases hp : p mem[off + len] = true
      · rw [if_pos hp, ih (by omega), List.rdropWhile_concat_pos _ _ _ hp]
      · rw [if_neg hp, List.rdropWhile_concat_neg _ _ _ hp, List.length_append,
          slice_length (by omega)]
        rfl

/-! ## Writing -/

theorem store_split {a b s c : List α} (hoff : a.length = off) (h : s.length = b.length) :
    store (a ++ (b ++ c)) (off, s) = some (a ++ (s ++ c)) := by
  subst hoff
  have hfits : a.length + s.length ≤ (a ++ (b ++ c)).length := by
    rw [List.length_append, List.length_append]
    omega
  rw [store, if_pos hfits, List.take_left, ← List.drop_drop, List.drop_left, h, List.drop_left]

theorem storeAll_singleton (mem : List α) (w : ℕ × List α) : storeAll mem [w] = store mem w := by
  rw [storeAll, List.foldlM_cons]
  cases store mem w with
  | none => rfl
  | some mem => rfl

theorem storeAll_append (mem : List α) (writes rest : List (ℕ × List α)) :
    storeAll mem (writes ++ rest) = (storeAll mem writes).bind fun mem => storeAll mem rest :=
  List.foldlM_append

/-- **Consecutive writes** are one write. -/
theorem storeAll_consecutive {c : List α} : ∀ {chunks : List (List α)} {off : ℕ} {a b : List α},
    a.length = off → chunks.flatten.length = b.length →
      storeAll (a ++ (b ++ c)) (consecutive off chunks) = some (a ++ (chunks.flatten ++ c)) := by
  intro chunks
  induction chunks with
  | nil =>
      intro off a b _ h
      rw [List.eq_nil_of_length_eq_zero h.symm]
      rfl
  | cons s rest ih =>
      intro off a b hoff h
      rw [List.flatten_cons, List.length_append] at h
      have hs : s.length = (b.take s.length).length := by
        rw [List.length_take]
        omega
      have hrest : rest.flatten.length = (b.drop s.length).length := by
        rw [List.length_drop]
        omega
      rw [consecutive, storeAll, List.foldlM_cons]
      conv_lhs => rw [← List.take_append_drop s.length b, List.append_assoc]
      rw [store_split hoff hs, List.flatten_cons, List.append_assoc, ← List.append_assoc a s,
        ← List.append_assoc a s]
      exact ih (by rw [List.length_append, hoff]) hrest

theorem consecutive_within : ∀ {chunks : List (List α)} {off : ℕ} {w : ℕ × List α},
    w ∈ consecutive off chunks → w.1 + w.2.length ≤ off + chunks.flatten.length := by
  intro chunks
  induction chunks with
  | nil =>
      intro off w h
      cases h
  | cons s rest ih =>
      intro off w h
      rw [List.flatten_cons, List.length_append]
      rcases List.mem_cons.mp h with rfl | hrest
      · exact Nat.add_le_add_left (Nat.le_add_right _ _) off
      · have := ih hrest
        omega

end

end Memory
