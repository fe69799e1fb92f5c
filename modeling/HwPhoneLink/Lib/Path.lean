import HwPhoneLink.Lib.BigEndian
import Mathlib.Data.List.TakeWhile

/-!
# Path names

A path is a byte string; `/` separates its components.
-/

namespace Path

open BigEndian

def slash : UInt8 := 0x2F
def dot : UInt8 := 0x2E

/-- Two parts with a separator between them, nothing normalised. -/
def join (dir name : Bytes) : Bytes := dir ++ slash :: name

/-- A C string: the bytes before the first NUL. -/
def cString (bs : Bytes) : Bytes := bs.takeWhile (· ≠ 0)

theorem cString_of_no_nul {bs : Bytes} (h : (0 : UInt8) ∉ bs) : cString bs = bs := by
  refine List.takeWhile_eq_self_iff.mpr fun b hb => ?_
  simp only [decide_eq_true_eq]
  exact fun hzero => h (hzero ▸ hb)

theorem cString_no_nul (bs : Bytes) : (0 : UInt8) ∉ cString bs := by
  intro h
  have hne := List.mem_takeWhile_imp h
  simp at hne

/-- A text and the NULs after it. -/
theorem cString_padded {text : Bytes} (h : (0 : UInt8) ∉ text) {n : ℕ} (hn : 0 < n) :
    cString (text ++ List.replicate n 0) = text := by
  have hall : ∀ b ∈ text, decide (b ≠ 0) = true := by
    intro b hb
    rw [decide_eq_true_eq]
    exact fun hzero => h (hzero ▸ hb)
  obtain ⟨k, rfl⟩ : ∃ k, n = k + 1 := ⟨n - 1, by omega⟩
  rw [cString, List.takeWhile_append_of_pos hall, List.replicate_succ, List.takeWhile_cons]
  simp

/-! ## Resolving

`resolve cwd p` is the list of components below the root that the path `p` leads
to from the directory `cwd`, by its text alone; `..` at the root stays there. -/

def dotDot : Bytes := [dot, dot]

/-- One component further. -/
def enter (d : List Bytes) (n : Bytes) : List Bytes :=
  if n = [] ∨ n = [dot] then d
  else if n = dotDot then d.dropLast
  else d ++ [n]

def walk (d : List Bytes) (p : Bytes) : List Bytes := (p.splitOn slash).foldl enter d

def resolve (cwd : List Bytes) (p : Bytes) : List Bytes :=
  walk (if p.head? = some slash then [] else cwd) p

/-- A component after `k` levels up and the components below them. -/
def climb : ℕ × List Bytes → Bytes → ℕ × List Bytes
  | (k, ns), n =>
      if n = [] ∨ n = [dot] then (k, ns)
      else if n = dotDot then if ns = [] then (k + 1, []) else (k, ns.dropLast)
      else (k, ns ++ [n])

/-- A path on its own: how far up, and what then. -/
def relative (p : Bytes) : ℕ × List Bytes := (p.splitOn slash).foldl climb (0, [])

theorem foldl_enter (d : List Bytes) (cs : List Bytes) : ∀ r : ℕ × List Bytes,
    cs.foldl enter (d.take (d.length - r.1) ++ r.2) =
      d.take (d.length - (cs.foldl climb r).1) ++ (cs.foldl climb r).2 := by
  induction cs with
  | nil => intro r; rfl
  | cons n cs ih =>
      rintro ⟨k, ns⟩
      rw [List.foldl_cons, List.foldl_cons, ← ih]
      congr 1
      simp only [enter, climb]
      split
      · rfl
      split
      · split
        · rename_i hnil
          rw [hnil, List.append_nil, List.append_nil, List.dropLast_eq_take, List.take_take,
            List.length_take]
          congr 1
          omega
        · rename_i hne
          rw [List.dropLast_append_of_ne_nil hne]
      · rw [List.append_assoc]

/-- **Where a path leads**: some levels up from the directory, then down. -/
theorem walk_eq (d : List Bytes) (p : Bytes) :
    walk d p = d.take (d.length - (relative p).1) ++ (relative p).2 := by
  have h := foldl_enter d (p.splitOn slash) (0, [])
  rw [Nat.sub_zero, List.take_length, List.append_nil] at h
  exact h

theorem walk_join (d : List Bytes) (dir name : Bytes) :
    walk d (join dir name) = walk (walk d (dir ++ [slash])) name := by
  have hdir : (dir ++ [slash]).splitOn slash = dir.splitOn slash ++ [[]] := by
    rw [List.splitOn_append_cons_self, List.splitOn_nil]
  rw [walk, join, List.splitOn_append_cons_self, List.foldl_append, walk, walk, hdir,
    List.foldl_append]
  rfl

theorem resolve_join (cwd : List Bytes) (dir name : Bytes) :
    resolve cwd (join dir name) = walk (resolve cwd (dir ++ [slash])) name := by
  have hhead : (join dir name).head? = (dir ++ [slash]).head? := by
    cases dir <;> rfl
  rw [resolve, resolve, hhead, walk_join]

/-- The path names something directly inside the directory. -/
def DirectlyInside (cwd : List Bytes) (dir p : Bytes) : Prop :=
  ∃ n, resolve cwd p = resolve cwd (dir ++ [slash]) ++ [n]

/-- The name leads some levels up, down again by the components `d` ends in, and
one component further. With no level up it is that component. -/
def ComesBack (d : List Bytes) (name : Bytes) : Prop :=
  ∃ n, (relative name).2 = d.drop (d.length - (relative name).1) ++ [n]

theorem directlyInside_join (cwd : List Bytes) (dir name : Bytes) :
    DirectlyInside cwd dir (join dir name) ↔ ComesBack (resolve cwd (dir ++ [slash])) name := by
  set d := resolve cwd (dir ++ [slash]) with hd
  have hsplit : ∀ k, d.take k ++ d.drop k = d := fun k => List.take_append_drop k d
  constructor
  · rintro ⟨n, hn⟩
    refine ⟨n, ?_⟩
    rw [resolve_join, walk_eq, ← hd] at hn
    have hdown : d ++ [n] = d.take (d.length - (relative name).1) ++
        (d.drop (d.length - (relative name).1) ++ [n]) := by
      rw [← List.append_assoc, hsplit]
    exact List.append_cancel_left (hn.trans hdown)
  · rintro ⟨n, hn⟩
    refine ⟨n, ?_⟩
    rw [resolve_join, walk_eq, ← hd, hn, ← List.append_assoc, hsplit]

/-- A plain name. -/
theorem ComesBack.of_plain {d : List Bytes} {name : Bytes} (hne : name ≠ [])
    (hslash : slash ∉ name) (hdot : name ≠ [dot]) (hup : name ≠ dotDot) : ComesBack d name := by
  have hrel : relative name = (0, [name]) := by
    simp [relative, List.splitOn_eq_singleton hslash, climb, hne, hdot, hup]
  refine ⟨name, ?_⟩
  rw [hrel, Nat.sub_zero, List.drop_length, List.nil_append]

end Path
