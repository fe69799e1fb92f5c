import HwPhoneLink.Lib.BigEndian
import Mathlib.Data.List.Count
import Mathlib.Data.List.Nodup
import Mathlib.Logic.Function.Basic

/-!
# Descriptors and files

A process calls on descriptor numbers, and the kernel keeps a table from the open
numbers to files. `Clean` says that every call is on a number that is open then, and
that a number is given out only while it is free. A number that is closed twice is not
open the second time: by then it may be somebody else's.
-/

namespace Descriptors

open BigEndian

variable {ι : Type*}

inductive Call (ι : Type*) where
  | opened (fd : ℕ) (file : ι) (truncate : Bool)
  | resized (fd size : ℕ)
  | wrote (fd offset : ℕ) (data : Bytes)
  | closed (fd : ℕ)
deriving DecidableEq, Repr

/-- The number that a call is on. -/
def Call.fd : Call ι → ℕ
  | .opened fd _ _ | .resized fd _ | .wrote fd _ _ | .closed fd => fd

def Call.isOpen : Call ι → Bool
  | .opened _ _ _ => true
  | _ => false

def Call.isClose : Call ι → Bool
  | .closed _ => true
  | _ => false

/-- The open numbers with their files, and what is in the files. -/
structure Kernel (ι : Type*) where
  table : List (ℕ × ι)
  disk : ι → Bytes

/-! ## What is in a file -/

/-- `ftruncate` -/
def resize (content : Bytes) (size : ℕ) : Bytes :=
  content.take size ++ List.replicate (size - content.length) 0

/-- `pwrite`; a gap before the offset reads as zeros. -/
def writeAt (content : Bytes) (offset : ℕ) (data : Bytes) : Bytes :=
  if data = [] then content
  else resize content offset ++ data ++ content.drop (offset + data.length)

theorem resize_nil (size : ℕ) : resize [] size = List.replicate size 0 := by
  simp [resize]

/-- Writing on behind what was written. -/
theorem writeAt_end (written rest data : Bytes) :
    writeAt (written ++ rest) written.length data = written ++ data ++ rest.drop data.length := by
  rw [writeAt]
  split
  · rename_i hnil
    simp [hnil]
  · rw [resize, List.take_left, List.length_append, Nat.sub_eq_zero_of_le (Nat.le_add_right ..),
      List.replicate_zero, List.append_nil, List.drop_append,
      List.drop_eq_nil_of_le (Nat.le_add_right ..), List.nil_append, Nat.add_sub_cancel_left]

/-- Writing on inside the file keeps what was written, and the size. -/
theorem writeAt_prefix {content written data : Bytes} (h : written <+: content)
    (hfits : written.length + data.length ≤ content.length) :
    written ++ data <+: writeAt content written.length data ∧
      (writeAt content written.length data).length = content.length := by
  obtain ⟨rest, rfl⟩ := h
  rw [List.length_append] at hfits
  rw [writeAt_end]
  constructor
  · exact List.prefix_append _ _
  · simp only [List.length_append, List.length_drop]
    omega

/-! ## The kernel -/

section
variable [DecidableEq ι]

/-- Change the file behind a number, if it is open. -/
def Kernel.change (k : Kernel ι) (fd : ℕ) (g : Bytes → Bytes) : Kernel ι :=
  match k.table.find? fun e => e.1 = fd with
  | none => k
  | some e => { k with disk := Function.update k.disk e.2 (g (k.disk e.2)) }

def Kernel.exec (k : Kernel ι) : Call ι → Kernel ι
  | .opened fd file truncate =>
      { table := (fd, file) :: k.table
        disk := if truncate then Function.update k.disk file [] else k.disk }
  | .resized fd size => k.change fd fun content => resize content size
  | .wrote fd offset data => k.change fd fun content => writeAt content offset data
  | .closed fd => { k with table := k.table.filter fun e => e.1 ≠ fd }

def Kernel.execAll (k : Kernel ι) (calls : List (Call ι)) : Kernel ι := calls.foldl Kernel.exec k

end

/-- The open numbers. -/
def Kernel.numbers (k : Kernel ι) : List ℕ := k.table.map Prod.fst

/-- An open gives a free number, every other call is on an open one. -/
def Kernel.Accepts (k : Kernel ι) (c : Call ι) : Prop :=
  if c.isOpen then c.fd ∉ k.numbers else c.fd ∈ k.numbers

section
variable [DecidableEq ι] {k : Kernel ι} {c : Call ι} {cs ds : List (Call ι)}

/-- Every call of the list is accepted in its turn. -/
def Clean : Kernel ι → List (Call ι) → Prop
  | _, [] => True
  | k, c :: cs => k.Accepts c ∧ Clean (k.exec c) cs

theorem Kernel.execAll_append (k : Kernel ι) (cs ds : List (Call ι)) :
    k.execAll (cs ++ ds) = (k.execAll cs).execAll ds :=
  List.foldl_append

theorem clean_append : ∀ {k : Kernel ι}, Clean k (cs ++ ds) ↔ Clean k cs ∧ Clean (k.execAll cs) ds := by
  induction cs with
  | nil => intro k; simp [Clean, Kernel.execAll]
  | cons c cs ih =>
      intro k
      rw [List.cons_append, Clean, Clean, ih, and_assoc]
      rfl

@[simp] theorem Kernel.change_table (k : Kernel ι) (fd : ℕ) (g : Bytes → Bytes) :
    (k.change fd g).table = k.table := by
  unfold Kernel.change
  split <;> rfl

/-- A write changes the file of an open number, and no other. -/
theorem Kernel.change_disk (hnodup : k.numbers.Nodup) {fd : ℕ} {file : ι}
    (hfd : (fd, file) ∈ k.table) (g : Bytes → Bytes) :
    (k.change fd g).disk = Function.update k.disk file (g (k.disk file)) := by
  have hfind : k.table.find? (fun e => decide (e.1 = fd)) = some (fd, file) := by
    obtain ⟨table, disk⟩ := k
    induction table with
    | nil => cases hfd
    | cons e table ih =>
        have hnodup' := List.nodup_cons.mp hnodup
        by_cases he : e.1 = fd
        · rw [List.find?_cons_of_pos (by simpa using he)]
          rcases List.mem_cons.mp hfd with rfl | hfd
          · rfl
          · exact absurd (List.mem_map.mpr ⟨_, hfd, he.symm⟩) hnodup'.1
        · rw [List.find?_cons_of_neg (by simpa using he)]
          rcases List.mem_cons.mp hfd with rfl | hfd
          · exact absurd rfl he
          · exact ih hnodup'.2 hfd
  rw [Kernel.change, hfind]

/-! ## What a clean list of calls says -/

theorem Kernel.exec_nodup (h : k.numbers.Nodup) (hc : k.Accepts c) : (k.exec c).numbers.Nodup := by
  cases c with
  | opened fd file truncate =>
      have hfree : fd ∉ k.numbers := hc
      exact List.nodup_cons.mpr ⟨hfree, h⟩
  | resized fd size =>
      rw [Kernel.exec, Kernel.numbers, Kernel.change_table]
      exact h
  | wrote fd offset data =>
      rw [Kernel.exec, Kernel.numbers, Kernel.change_table]
      exact h
  | closed fd => exact (List.filter_sublist.map Prod.fst).nodup h

/-- How often a number has been given out, and how often it has been closed. -/
def opens (fd : ℕ) (cs : List (Call ι)) : ℕ := cs.countP fun c => c.isOpen && decide (c.fd = fd)

def closes (fd : ℕ) (cs : List (Call ι)) : ℕ := cs.countP fun c => c.isClose && decide (c.fd = fd)

/-- One call: a number is open once more after an open, once less after a close. -/
theorem Kernel.exec_count (h : k.numbers.Nodup) (hc : k.Accepts c) (fd : ℕ) :
    k.numbers.count fd + opens fd [c] = closes fd [c] + (k.exec c).numbers.count fd := by
  have hquiet : ∀ g n, k.numbers.count fd = (k.change n g).numbers.count fd := by
    intro g n
    rw [Kernel.numbers, Kernel.numbers, Kernel.change_table]
  cases c with
  | opened n file truncate =>
      show _ = 0 + (n :: k.numbers).count fd
      rw [List.count_cons, Nat.zero_add]
      by_cases hn : n = fd <;> simp [opens, Call.isOpen, Call.fd, hn]
  | resized n size =>
      show _ + 0 = 0 + (k.change n _).numbers.count fd
      rw [Nat.add_zero, Nat.zero_add, hquiet]
  | wrote n offset data =>
      show _ + 0 = 0 + (k.change n _).numbers.count fd
      rw [Nat.add_zero, Nat.zero_add, hquiet]
  | closed n =>
      have hopen : n ∈ k.numbers := hc
      have hrest : (k.exec (.closed n)).numbers = k.numbers.filter fun m => m ≠ n := by
        rw [Kernel.numbers, Kernel.numbers, List.filter_map]
        rfl
      rw [hrest]
      by_cases hn : n = fd
      · subst hn
        have hnone : (k.numbers.filter fun m => m ≠ n).count n = 0 := by
          rw [List.count_eq_zero]
          simp
        rw [hnone, List.count_eq_one_of_mem h hopen]
        simp [opens, closes, Call.isOpen, Call.isClose, Call.fd]
      · have hkept : (k.numbers.filter fun m => m ≠ n).count fd = k.numbers.count fd :=
          List.count_filter (by simpa using Ne.symm hn)
        rw [hkept]
        simp [opens, closes, Call.isOpen, Call.isClose, hn, Call.fd]

/-- **Closed as often as opened**, but for the numbers that are open at the end. -/
theorem Clean.balance (fd : ℕ) : ∀ {k : Kernel ι}, k.numbers.Nodup → Clean k cs →
    k.numbers.count fd + opens fd cs = closes fd cs + (k.execAll cs).numbers.count fd := by
  induction cs with
  | nil => intro k _ _; exact Nat.add_comm _ _
  | cons c cs ih =>
      intro k h hclean
      have hone := Kernel.exec_count h hclean.1 fd
      have hrest := ih (Kernel.exec_nodup h hclean.1) hclean.2
      have hsplit : ∀ p : Call ι → Bool, (c :: cs).countP p = [c].countP p + cs.countP p := by
        intro p
        rw [← List.countP_append, List.singleton_append]
      rw [opens, closes, hsplit, hsplit]
      rw [opens, closes] at hone hrest
      show _ = _ + ((k.exec c).execAll cs).numbers.count fd
      omega

/-- A number comes back only through an open. -/
theorem Kernel.opened_again {fd : ℕ} : ∀ {k : Kernel ι}, fd ∉ k.numbers → fd ∈ (k.execAll cs).numbers →
    ∃ c ∈ cs, c.isOpen = true ∧ c.fd = fd := by
  induction cs with
  | nil => intro k hno hyes; exact absurd hyes hno
  | cons c cs ih =>
      intro k hno hyes
      by_cases hnext : fd ∈ (k.exec c).numbers
      · refine ⟨c, List.mem_cons_self, ?_⟩
        cases c with
        | opened n file truncate =>
            rcases List.mem_cons.mp hnext with rfl | hold
            · exact ⟨rfl, rfl⟩
            · exact absurd hold hno
        | resized n size =>
            rw [Kernel.exec, Kernel.numbers, Kernel.change_table] at hnext
            exact absurd hnext hno
        | wrote n offset data =>
            rw [Kernel.exec, Kernel.numbers, Kernel.change_table] at hnext
            exact absurd hnext hno
        | closed n => exact absurd ((List.filter_sublist.map Prod.fst).subset hnext) hno
      · obtain ⟨d, hd, hopen⟩ := ih hnext hyes
        exact ⟨d, List.mem_cons_of_mem _ hd, hopen⟩

/-- **No use after a close**, before the number is given out again. -/
theorem Clean.no_use_after_close {pre mid post : List (Call ι)} {fd : ℕ}
    (h : Clean k (pre ++ .closed fd :: mid ++ c :: post)) (hc : c.isOpen = false)
    (hfd : c.fd = fd) : ∃ d ∈ mid, d.isOpen = true ∧ d.fd = fd := by
  rw [List.append_assoc, clean_append, List.cons_append, Clean, clean_append] at h
  obtain ⟨-, -, -, haccepts, -⟩ := h
  have hopen : c.fd ∈ (((k.execAll pre).exec (.closed fd)).execAll mid).numbers := by
    rw [Kernel.Accepts, hc] at haccepts
    exact haccepts
  rw [hfd] at hopen
  refine Kernel.opened_again ?_ hopen
  rw [Kernel.exec, Kernel.numbers, List.mem_map]
  rintro ⟨e, he, rfl⟩
  simpa using (List.mem_filter.mp he).2

end

end Descriptors
