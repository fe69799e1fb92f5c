import HwPhoneLink.Testfile.Verify
import HwPhoneLink.Lib.AnnexB

/-!
# What the scan finds

The scan of `h264_testfile_verify` goes on behind a start code that it has found. It finds
every place of `00 00 01` all the same, since the pattern does not overlap itself.
-/

namespace HwPhoneLink.Testfile

open BigEndian AnnexB

/-- Where the loop takes its branch, and the type it reads there. -/
def h264FoundFrom (data : Bytes) : ℕ → ℕ → List (ℕ × ℕ)
  | 0, _ => []
  | fuel + 1, i =>
      if i + 2 < data.length then
        if data[i]! = 0 ∧ data[i + 1]! = 0 ∧ data[i + 2]! = 1 then
          (i, ((data ++ [0])[i + 3]!).toNat % 32) :: h264FoundFrom data fuel (i + 3)
        else h264FoundFrom data fuel (i + 1)
      else []

def h264Found (data : Bytes) : List (ℕ × ℕ) := h264FoundFrom data data.length 0

/-- The body of the branch. -/
def H264Scan.nal (s : H264Scan) (u : ℕ × ℕ) : H264Scan where
  firstNal := s.firstNal.or (some u.1)
  nals := s.nals + 1
  firstTypes := if s.nals < 3 then s.firstTypes.set s.nals u.2 else s.firstTypes
  st := h264ScanNext s.st u.2

section
variable {data : Bytes}

theorem h264ScanFrom_eq (fuel : ℕ) : ∀ i s,
    h264ScanFrom data fuel i s = (h264FoundFrom data fuel i).foldl H264Scan.nal s := by
  induction fuel with
  | zero => intro i s; rfl
  | succ fuel ih =>
      intro i s
      rw [h264ScanFrom, h264FoundFrom]
      split
      · split
        · rw [List.foldl_cons]
          exact ih (i + 3) _
        · exact ih (i + 1) s
      · rfl

theorem startsAt_drop_iff {i : ℕ} (h : i + 2 < data.length) :
    StartsAt (data.drop i) 0 ↔ data[i]! = 0 ∧ data[i + 1]! = 0 ∧ data[i + 2]! = 1 := by
  rw [startsAt_drop, Nat.add_zero, StartsAt, getElem!_pos data i (by omega),
    getElem!_pos data (i + 1) (by omega), getElem!_pos data (i + 2) h,
    List.getElem?_eq_getElem (by omega), List.getElem?_eq_getElem (by omega),
    List.getElem?_eq_getElem h, Option.some.injEq, Option.some.injEq, Option.some.injEq]

theorem units_short {i : ℕ} (h : data.length ≤ 2) : units i data = [] := by
  rw [List.eq_nil_iff_forall_not_mem]
  rintro ⟨p, rest⟩ hmem
  obtain ⟨-, ⟨-, -, hone⟩, -⟩ := (mem_units data i p rest).mp hmem
  obtain ⟨hlt, -⟩ := List.getElem?_eq_some_iff.mp hone
  omega

/-- The buffer ends in a NUL. -/
theorem header_read {i : ℕ} (h : i + 2 < data.length) :
    (data ++ [0])[i + 3]! = (data.drop i).getD 3 0 := by
  rw [getElem!_pos _ _ (by rw [List.length_append, List.length_singleton]; omega),
    List.getD_eq_getElem?_getD, List.getElem?_drop]
  rcases Nat.lt_or_ge (i + 3) data.length with hlt | hge
  · rw [List.getElem_append_left hlt, List.getElem?_eq_getElem hlt]
    rfl
  · rw [List.getElem_append_right hge, List.getElem?_eq_none hge]
    simp

/-- What a unit looks like to the scan. -/
def found (u : ℕ × UInt8) : ℕ × ℕ := (u.1, u.2.toNat % 32)

theorem h264FoundFrom_eq (fuel : ℕ) : ∀ i, data.length ≤ i + fuel →
    h264FoundFrom data fuel i =
      (units i (data.drop i)).map fun u => found (u.1, u.2.getD 3 0) := by
  induction fuel with
  | zero =>
      intro i hlen
      rw [Nat.add_zero] at hlen
      rw [List.drop_eq_nil_of_le hlen]
      rfl
  | succ fuel ih =>
      intro i hlen
      rw [h264FoundFrom]
      split
      · rename_i hin
        split
        · rename_i hcode
          rw [units_of_startsAt ((startsAt_drop_iff hin).mpr hcode), List.map_cons,
            ih (i + 3) (by omega), List.drop_drop, header_read hin]
          rfl
        · rename_i hcode
          have hskip : ¬ StartsAt (data.drop i) 0 := fun h => hcode ((startsAt_drop_iff hin).mp h)
          rw [List.drop_eq_getElem_cons (by omega)] at hskip ⊢
          rw [units_cons_skip hskip]
          exact ih (i + 1) (by omega)
      · rw [units_short]
        · rfl
        · rw [List.length_drop]
          omega

end

/-- **The scan finds every start code**, in any file. -/
theorem h264Scan_units (data : Bytes) :
    h264Scan data = (h264Found data).foldl H264Scan.nal ⟨none, 0, [0, 0, 0], 0⟩ ∧
      h264Found data = (units 0 data).map fun u => found (u.1, u.2.getD 3 0) := by
  refine ⟨h264ScanFrom_eq data.length 0 _, ?_⟩
  have h := @h264FoundFrom_eq data data.length 0 (by omega)
  rwa [List.drop_zero] at h

end HwPhoneLink.Testfile
