import HwPhoneLink.Lib.Path
import HwPhoneLink.Testfile.Digest
import HwPhoneLink.Testfile.Generate
import Mathlib.Data.List.Infix

/-!
# The replay-stand test files

`ft_testfile_generate` writes bytes that depend on their position only, a buffer at a time, and
names the file by its digest. The file is made exactly if the file calls do their work, and then
its name stands for its content: both receivers take the name, and their digest checks accept
no content but one of the same digest.
-/

namespace HwPhoneLink.Testfile

open BigEndian Sha256 HwPhoneLink.Stream

/-- `ft_byte` and `h264_byte` have one body. -/
def ftByte (seed i : UInt64) : UInt8 := h264Byte seed i

/-- The size of the buffer. -/
def ftBufLen : ℕ := 65536

/-- What the file calls return: whether `open` succeeds, and what `pwrite` returns for an offset
and a length. -/
structure FtIo where
  openOk : Bool
  pwrite : ℕ → ℕ → ℤ

/-- The outputs, and what is in the file. -/
structure FtFile where
  path : Bytes
  wireName : Bytes
  content : Bytes

/-- The bytes from `start` on. -/
def ftBytes (seed : UInt64) (start n : ℕ) : Bytes :=
  (List.range' start n).map fun i => ftByte seed (UInt64.ofNat i)

/-- The loop, with `done` bytes in the file. -/
def ftWrite (io : FtIo) (seed : UInt64) (size done : ℕ) (file : Bytes) : Option Bytes :=
  if done < size then
    let chunk := min (size - done) ftBufLen
    if io.pwrite done chunk ≠ chunk then none
    else ftWrite io seed size (done + chunk) (file ++ ftBytes seed done chunk)
  else some file
termination_by size - done
decreasing_by simp only [ftBufLen]; omega

/-- `none` is FALSE; then the file is gone, too. -/
def ftTestfileGenerate (sha256Hex : Bytes → Bytes) (io : FtIo) (dir : Option Bytes)
    (seed size : UInt64) : Option FtFile :=
  match dir with
  | none => none
  | some dir =>
      if size = 0 then none
      else if !io.openOk then none
      else
        (ftWrite io seed size.toNat 0 []).map fun file =>
          { path := Path.join dir (ascii "ftgen.bin")
            wireName := ftName (sha256Hex file)
            content := file }

/-! ## The loop -/

/-- Every buffer of a file of the size is written whole. -/
def FtIo.Writes (io : FtIo) (size : ℕ) : Prop :=
  ∀ j, j * ftBufLen < size →
    io.pwrite (j * ftBufLen) (min (size - j * ftBufLen) ftBufLen) =
      min (size - j * ftBufLen) ftBufLen

theorem ftBytes_length (seed : UInt64) (start n : ℕ) : (ftBytes seed start n).length = n := by
  rw [ftBytes, List.length_map, List.length_range']

theorem ftBytes_append (seed : UInt64) (start n m : ℕ) :
    ftBytes seed start n ++ ftBytes seed (start + n) m = ftBytes seed start (n + m) := by
  rw [ftBytes, ftBytes, ftBytes, ← List.map_append, List.range'_append_1]

/-- The buffers from the `k`-th on. -/
theorem ftWrite_eq_some (io : FtIo) (seed : UInt64) (size : ℕ) : ∀ {n k : ℕ} {file whole : Bytes},
    size - k * ftBufLen = n →
      (ftWrite io seed size (k * ftBufLen) file = some whole ↔
        (∀ j ≥ k, j * ftBufLen < size →
          io.pwrite (j * ftBufLen) (min (size - j * ftBufLen) ftBufLen) =
            min (size - j * ftBufLen) ftBufLen) ∧
          whole = file ++ ftBytes seed (k * ftBufLen) n) := by
  intro n
  induction n using Nat.strong_induction_on with
  | _ n ih =>
      rintro k file whole rfl
      rw [ftWrite]
      by_cases hmore : k * ftBufLen < size
      swap
      · -- nothing is left
        rw [if_neg hmore, Nat.sub_eq_zero_of_le (Nat.not_lt.mp hmore), Option.some.injEq]
        have hnil : ftBytes seed (k * ftBufLen) 0 = [] := rfl
        rw [hnil, List.append_nil]
        constructor
        · rintro rfl
          refine ⟨fun j hj hlt => absurd hlt (Nat.not_lt.mpr ?_), rfl⟩
          exact (Nat.not_lt.mp hmore).trans (Nat.mul_le_mul_right _ hj)
        · rintro ⟨-, rfl⟩
          rfl
      rw [if_pos hmore]
      dsimp only
      by_cases hwrite : io.pwrite (k * ftBufLen) (min (size - k * ftBufLen) ftBufLen) =
          min (size - k * ftBufLen) ftBufLen
      swap
      · rw [if_pos (by exact_mod_cast hwrite)]
        constructor
        · intro h
          cases h
        · rintro ⟨hall, -⟩
          exact absurd (hall k (Nat.le_refl k) hmore) hwrite
      rw [if_neg (by rw [not_not]; exact_mod_cast hwrite)]
      have hnext : ∀ {j}, j ≥ k → j = k ∨ j ≥ k + 1 := by omega
      rcases Nat.lt_or_ge ftBufLen (size - k * ftBufLen) with hfull | hlast
      · -- a full buffer, and more to come
        have hsucc : k * ftBufLen + ftBufLen = (k + 1) * ftBufLen := (Nat.succ_mul k _).symm
        rw [Nat.min_eq_right (Nat.le_of_lt hfull), hsucc, ih _ (by
          rw [← hsucc, Nat.sub_add_eq]
          exact Nat.sub_lt (by omega) (by decide)) rfl, List.append_assoc, ← hsucc,
          ftBytes_append, ← Nat.sub_sub, Nat.add_sub_cancel' (Nat.le_of_lt hfull)]
        refine and_congr_left fun _ => ⟨fun h j hj hlt => ?_, fun h j hj hlt => ?_⟩
        · rcases hnext hj with rfl | hj
          · exact hwrite
          · exact h j hj hlt
        · exact h j (Nat.le_of_succ_le hj) hlt
      · -- the last buffer
        rw [Nat.min_eq_left hlast, Nat.add_sub_cancel' (Nat.le_of_lt hmore), ftWrite,
          if_neg (Nat.lt_irrefl size), Option.some.injEq]
        constructor
        · rintro rfl
          refine ⟨fun j hj hlt => ?_, rfl⟩
          rcases hnext hj with rfl | hj
          · exact hwrite
          · have hle := Nat.mul_le_mul_right ftBufLen hj
            rw [Nat.succ_mul] at hle
            omega
        · rintro ⟨-, rfl⟩
          rfl

/-! ## The name -/

section
variable {hex : Bytes}

/-- The bytes of a name with lowercase digits. -/
theorem ftName_mem (h : HexDigest hex) {b : UInt8} (hb : b ∈ ftName hex) :
    b ∈ ascii "ft-" ∨ b ∈ hex ∧ (48 ≤ b ∧ b ≤ 57 ∨ 97 ≤ b ∧ b ≤ 102) ∨ b ∈ ascii ".bin" := by
  rw [ftName, List.mem_append, List.mem_append] at hb
  rcases hb with hb | hb | hb
  · exact Or.inl hb
  · exact Or.inr (Or.inl ⟨hb, h.digits b hb⟩)
  · exact Or.inr (Or.inr hb)

theorem ftName_count_dot (h : HexDigest hex) : (ftName hex).count Path.dot = 1 := by
  have hnone : hex.count Path.dot = 0 := by
    rw [List.count_eq_zero]
    intro hdot
    have hdigit := h.digits _ hdot
    revert hdigit
    decide
  rw [ftName, List.count_append, List.count_append, hnone]
  decide

/-- **The name is a wire name**: the stream receiver takes it, and it promises the digest. -/
theorem ftName_wireName {sha256Hex : Bytes → Bytes} {content : Bytes}
    (h : HexDigest (sha256Hex content)) :
    WireName sha256Hex content (ftName (sha256Hex content)) := by
  have hlen : (ftName (sha256Hex content)).length = 71 := by
    rw [ftName, List.length_append, List.length_append, h.length]
    decide
  have hno : ∀ b : UInt8, b ∉ ascii "ft-" → ¬ (48 ≤ b ∧ b ≤ 57 ∨ 97 ≤ b ∧ b ≤ 102) →
      b ∉ ascii ".bin" → b ∉ ftName (sha256Hex content) := by
    intro b hpre hdigit hsuf hb
    rcases ftName_mem h hb with hb | ⟨-, hb⟩ | hb
    · exact hpre hb
    · exact hdigit hb
    · exact hsuf hb
  refine ⟨?_, hno _ (by decide) (by decide) (by decide), ?_, ?_,
    hno _ (by decide) (by decide) (by decide), ?_, ftName_not_h264 _, Or.inr ?_⟩
  · intro hnil
    rw [hnil] at hlen
    cases hlen
  · intro hdots
    have hcount := hdots.sublist.count_le Path.dot
    rw [ftName_count_dot h] at hcount
    exact absurd hcount (by decide)
  · intro hhead
    have hfirst : (ftName (sha256Hex content)).head? = some 102 := rfl
    rw [hfirst] at hhead
    cases hhead
  · rw [hlen]
    decide
  · exact ftTestfileNameSha_ftName h.length (asciiIsxdigit_of_hexDigest h)

end

/-! ## The generator -/

section
variable {sha256Hex : Bytes → Bytes} {io : FtIo} {dir : Option Bytes} {seed size : UInt64}
  {f : FtFile}

/-- **When the file is made**, and what it is. -/
theorem ftTestfileGenerate_eq_some :
    ftTestfileGenerate sha256Hex io dir seed size = some f ↔
      ∃ d, dir = some d ∧ size ≠ 0 ∧ io.openOk = true ∧ io.Writes size.toNat ∧
        f = ⟨Path.join d (ascii "ftgen.bin"), ftName (sha256Hex (ftBytes seed 0 size.toNat)),
          ftBytes seed 0 size.toNat⟩ := by
  have hloop : ∀ whole, ftWrite io seed size.toNat 0 [] = some whole ↔
      io.Writes size.toNat ∧ whole = ftBytes seed 0 size.toNat := by
    intro whole
    have hstart : ftWrite io seed size.toNat (0 * ftBufLen) [] = some whole ↔ _ :=
      ftWrite_eq_some io seed size.toNat (by rw [Nat.zero_mul, Nat.sub_zero])
    rw [Nat.zero_mul, List.nil_append] at hstart
    rw [hstart]
    exact and_congr_left fun _ => ⟨fun h j => h j (Nat.zero_le j), fun h j _ => h j⟩
  unfold ftTestfileGenerate
  cases dir with
  | none =>
      refine ⟨fun h => (by cases h), ?_⟩
      rintro ⟨d, hd, -⟩
      cases hd
  | some dir =>
      dsimp only
      by_cases hsize : size = 0
      · rw [if_pos hsize]
        refine ⟨fun h => (by cases h), ?_⟩
        rintro ⟨-, -, hne, -⟩
        exact absurd hsize hne
      rw [if_neg hsize]
      cases hopen : io.openOk with
      | false =>
          refine ⟨fun h => (by cases h), ?_⟩
          rintro ⟨-, -, -, hcontra, -⟩
          cases hcontra
      | true =>
          rw [if_neg (by simp), Option.map_eq_some_iff]
          constructor
          · rintro ⟨whole, hwhole, rfl⟩
            obtain ⟨hwrites, rfl⟩ := (hloop whole).mp hwhole
            exact ⟨dir, rfl, hsize, rfl, hwrites, rfl⟩
          · rintro ⟨d, hd, -, -, hwrites, rfl⟩
            cases hd
            exact ⟨_, (hloop _).mpr ⟨hwrites, rfl⟩, rfl⟩

/-- What a receiver makes of a content under the name of a file. -/
structure NameStandsFor (sha256Hex : Bytes → Bytes) (f : FtFile) : Prop where
  /-- The stream receiver takes the name. -/
  wire : WireName sha256Hex f.content f.wireName
  /-- A session that has taken the name accepts what has the digest of the file. -/
  stream : ∀ (io : SfIo) (sf : StreamFile), sf.rxName = f.wireName →
    sf.rxExpectedSha = ftTestfileNameSha f.wireName →
      ((sfVerify sha256Hex io sf).1 = true ↔ sha256Hex sf.rxSha = sha256Hex f.content)
  /-- So does a DFile receiver that has opened a destination of the name. -/
  dfile : ∀ (g : HwPhoneLink.DFile.DCFile), g.expectedSha = ftTestfileNameSha f.wireName →
    ∀ (msg : String) (gs : List HwPhoneLink.DFile.DCFile),
      ((HwPhoneLink.DFile.rxCheckFiles sha256Hex msg (g :: gs)).2.2 = true ↔
        sha256Hex g.sha = sha256Hex f.content ∧
          (HwPhoneLink.DFile.rxCheckFiles sha256Hex msg gs).2.2 = true)

theorem ftName_stands (hsha : ∀ m, HexDigest (sha256Hex m)) (path content : Bytes) :
    NameStandsFor sha256Hex ⟨path, ftName (sha256Hex content), content⟩ := by
  have hname := ftTestfileNameSha_ftName (hsha content).length
    (asciiIsxdigit_of_hexDigest (hsha content))
  have hlower := map_asciiToLower_of_noUpper (noUpper_of_hexDigest (hsha content))
  refine ⟨ftName_wireName (hsha content), ?_, ?_⟩
  · intro io sf hrx hexp
    exact sfVerify_bin (by rw [hrx]; exact ftName_not_h264 _) (hexp.trans hname)
  · intro g hexp msg gs
    rw [rxCheckFiles_cons (hexp.trans hname), asciiCaseEq_iff_digestIs (hsha g.sha), DigestIs,
      hlower]

variable (io dir seed size) in
/-- **The generator and the checks.** A file is made exactly if there is a directory, a size and
calls that do their work; it has the bytes of the seed, and its name stands for them. -/
theorem ftTestfileGenerate_stands (hsha : ∀ m, HexDigest (sha256Hex m)) :
    (∀ f, ftTestfileGenerate sha256Hex io dir seed size = some f ↔
      ∃ d, dir = some d ∧ size ≠ 0 ∧ io.openOk = true ∧ io.Writes size.toNat ∧
        f = ⟨Path.join d (ascii "ftgen.bin"), ftName (sha256Hex (ftBytes seed 0 size.toNat)),
          ftBytes seed 0 size.toNat⟩) ∧
      ∀ f, ftTestfileGenerate sha256Hex io dir seed size = some f →
        NameStandsFor sha256Hex f := by
  refine ⟨fun f => ftTestfileGenerate_eq_some, fun f h => ?_⟩
  obtain ⟨d, -, -, -, -, rfl⟩ := ftTestfileGenerate_eq_some.mp h
  exact ftName_stands hsha _ _

end

/-- Two buffers, with file calls that do their work. -/
theorem ftTestfileGenerate_stands_seven :
    ∃ f, ftTestfileGenerate hashHex ⟨true, fun _ n => n⟩ (some (ascii "/tmp")) 7 70000 = some f ∧
      f.content.length = 70000 ∧ NameStandsFor hashHex f := by
  obtain ⟨hmade, hstands⟩ := ftTestfileGenerate_stands ⟨true, fun _ n => n⟩
    (some (ascii "/tmp")) 7 70000 hashHex_hexDigest
  have h := (hmade _).mpr
    ⟨ascii "/tmp", rfl, by decide, rfl, fun j _ => (by push_cast; rfl), rfl⟩
  exact ⟨_, h, ftBytes_length 7 0 _, hstands _ h⟩

end HwPhoneLink.Testfile
