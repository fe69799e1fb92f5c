import Mathlib.Algebra.BigOperators.Group.List.Basic
import Mathlib.Algebra.Order.BigOperators.Group.List
import Mathlib.Algebra.Ring.Nat
import Mathlib.Data.List.AList

/-!
# The total of a table

A weight on the entries of an association list, summed up. Removing an entry
takes its weight away, inserting one replaces the weight that stood at the key.
-/

namespace Table

variable {α : Type*} [DecidableEq α] {β : α → Type*} (weight : Sigma β → ℕ)

/-- The sum of the weights of the entries. -/
def total (t : AList β) : ℕ := (t.entries.map weight).sum

omit [DecidableEq α] in
@[simp] theorem total_empty : total weight (∅ : AList β) = 0 := rfl

theorem sum_kerase (l : List (Sigma β)) {k : α} {v : β k} (h : l.dlookup k = some v) :
    (l.map weight).sum = weight ⟨k, v⟩ + ((l.kerase k).map weight).sum := by
  induction l with
  | nil => cases h
  | cons e l ih =>
      obtain ⟨k', v'⟩ := e
      by_cases hk : k = k'
      · subst hk
        rw [List.dlookup_cons_eq] at h
        cases h
        rw [List.kerase_cons_eq (s := ⟨k, v⟩) rfl, List.map_cons, List.sum_cons]
      · rw [List.dlookup_cons_ne _ _ hk] at h
        rw [List.kerase_cons_ne hk, List.map_cons, List.map_cons, List.sum_cons, List.sum_cons,
          ih h]
        omega

/-- An entry that is removed takes its weight with it. -/
theorem total_erase {t : AList β} {k : α} {v : β k} (h : t.lookup k = some v) :
    total weight t = weight ⟨k, v⟩ + total weight (t.erase k) :=
  sum_kerase weight t.entries h

theorem total_erase_of_none {t : AList β} {k : α} (h : t.lookup k = none) :
    total weight (t.erase k) = total weight t := by
  have hnot : k ∉ t.entries.keys := by
    rw [← AList.keys, ← AList.mem_keys, ← AList.lookup_eq_none]
    exact h
  show ((t.entries.kerase k).map weight).sum = _
  rw [List.kerase_of_notMem_keys hnot]
  rfl

theorem total_insert (t : AList β) (k : α) (v : β k) :
    total weight (t.insert k v) = weight ⟨k, v⟩ + total weight (t.erase k) := by
  unfold total
  rw [AList.entries_insert, List.map_cons, List.sum_cons]
  rfl

/-! ## Values read through a function -/

section Values

variable {γ : α → Type*} (f : ∀ a, β a → γ a)

omit [DecidableEq α] in
theorem mapValues_nodupKeys (t : AList β) : (t.entries.map (Sigma.map id f)).NodupKeys :=
  t.nodupKeys.map₂ f

/-- The table with every value replaced by what the function makes of it. -/
def mapValues (t : AList β) : AList γ := ⟨t.entries.map (Sigma.map id f), mapValues_nodupKeys f t⟩

omit [DecidableEq α] in
@[simp] theorem mapValues_length (t : AList β) :
    (mapValues f t).entries.length = t.entries.length :=
  List.length_map _

@[simp] theorem mapValues_lookup (t : AList β) (k : α) :
    (mapValues f t).lookup k = (t.lookup k).map (f k) :=
  List.dlookup_map₂ k

theorem kerase_map (l : List (Sigma β)) (k : α) :
    (l.kerase k).map (Sigma.map id f) = (l.map (Sigma.map id f)).kerase k := by
  induction l with
  | nil => rfl
  | cons e l ih =>
      by_cases hk : k = e.1
      · rw [List.map_cons, List.kerase_cons_eq hk, List.kerase_cons_eq (s := Sigma.map id f e) hk]
      · rw [List.map_cons, List.kerase_cons_ne hk,
          List.kerase_cons_ne (s := Sigma.map id f e) hk, List.map_cons, ih]

theorem mapValues_erase (t : AList β) (k : α) :
    mapValues f (t.erase k) = (mapValues f t).erase k := by
  apply AList.ext
  exact kerase_map f t.entries k

theorem mapValues_insert (t : AList β) (k : α) (v : β k) :
    mapValues f (t.insert k v) = (mapValues f t).insert k (f k v) := by
  apply AList.ext
  show (t.insert k v).entries.map (Sigma.map id f) = ((mapValues f t).insert k (f k v)).entries
  rw [AList.entries_insert, AList.entries_insert, List.map_cons, kerase_map]
  rfl

omit [DecidableEq α] in
/-- Functions that agree on the values that stand in the table. -/
theorem mapValues_congr {g : ∀ a, β a → γ a} {t : AList β}
    (h : ∀ e ∈ t.entries, f e.1 e.2 = g e.1 e.2) : mapValues f t = mapValues g t := by
  apply AList.ext
  apply List.map_congr_left
  intro e he
  show (⟨e.1, f e.1 e.2⟩ : Sigma γ) = ⟨e.1, g e.1 e.2⟩
  rw [h e he]

end Values

end Table
