import HwPhoneLink.DFile.Output
import Mathlib.Algebra.Order.Floor.Div

/-!
# How many blocks a file has

Both sides divide the size by the block size of the peer's setting, round up and cast to
32 bits. A file has at most `DFILE_MAX_FILE_SIZE` bytes, which is less than 2^39, and a
block at least 64.
-/

namespace HwPhoneLink.DFile

open BigEndian

theorem dcTotalBlocks_eq (size blockSize : ℕ) :
    dcTotalBlocks size blockSize = size ⌈/⌉ blockSize % 2 ^ 32 := rfl

/-- The quotient fits when the blocks of 32-bit numbers hold the file. -/
theorem ceilDiv_fits {size blockSize : ℕ} (hblock : 0 < blockSize) :
    size ⌈/⌉ blockSize < 2 ^ 32 ↔ size ≤ (2 ^ 32 - 1) * blockSize := by
  rw [Nat.lt_iff_le_pred (by decide), ceilDiv_le_iff_le_mul hblock, Nat.mul_comm]

theorem dcTotalBlocks_exact {size blockSize : ℕ} (hblock : 0 < blockSize) :
    dcTotalBlocks size blockSize = size ⌈/⌉ blockSize ↔ size ≤ (2 ^ 32 - 1) * blockSize := by
  rw [dcTotalBlocks_eq, Nat.mod_eq_iff_lt (by decide), ceilDiv_fits hblock]

theorem ceilDiv_eq_zero {size blockSize : ℕ} (hblock : 0 < blockSize)
    (h : size ⌈/⌉ blockSize = 0) : size = 0 := by
  have hle := (ceilDiv_le_iff_le_mul hblock).mp (Nat.le_of_eq h)
  rw [Nat.mul_zero] at hle
  exact Nat.le_zero.mp hle

/-- What `send_files_impl` sets of a file it opens. -/
theorem txOpenFile_spec {env : DcEnv} {blockSize i : ℕ} {item : DFileSendItem} {f : DCFile}
    (h : txOpenFile env blockSize i item = .ok f) :
    f.totalBlocks = dcTotalBlocks f.size blockSize ∧
      f.ackedAll = decide (dcTotalBlocks f.size blockSize = 0) ∧ f.nextSeq = 0 ∧
      f.lastAcked = none ∧ f.retrans = [] ∧ f.confirmed = false ∧
      f.fileId = UInt16.ofNat (i + 1) ∧ env.fstat item.path = some f.size := by
  unfold txOpenFile at h
  split at h
  · cases h
  split at h
  · cases h
  rename_i size hstat
  split at h
  · cases h
  split at h
  · cases h
  split at h
  · cases h
  · cases h
    exact ⟨rfl, rfl, rfl, rfl, rfl, rfl, rfl, hstat⟩

/-- The block count of files of one size, on both sides. -/
structure BlocksExact (blockSize size : ℕ) : Prop where
  total : dcTotalBlocks size blockSize = size ⌈/⌉ blockSize
  covers : size ≤ blockSize * dcTotalBlocks size blockSize
  empty : dcTotalBlocks size blockSize = 0 → size = 0
  sending : ∀ env i item f, txOpenFile env blockSize i item = .ok f → f.size = size →
    f.totalBlocks = size ⌈/⌉ blockSize ∧ (f.ackedAll = true → size = 0)
  receiving : ∀ env dir opened he f, (rxOpenFile env dir blockSize opened he).2 = .ok f →
    f.size = size → f.totalBlocks = size ⌈/⌉ blockSize ∧ (f.writeComplete = true → size = 0)

/-- **The block counts are exact when they fit into 32 bits.** -/
theorem blocks_exact_iff (s : DFileSetting) (size : ℕ) :
    BlocksExact (dcBlockSize s) size ↔ size ≤ (2 ^ 32 - 1) * dcBlockSize s := by
  have hblock : 0 < dcBlockSize s := Nat.pos_of_ne_zero (dcBlockSize_ne_zero s)
  rw [← dcTotalBlocks_exact hblock]
  constructor
  · intro h
    exact h.total
  · intro htotal
    have hempty : dcTotalBlocks size (dcBlockSize s) = 0 → size = 0 := by
      rw [htotal]
      exact ceilDiv_eq_zero hblock
    constructor
    · exact htotal
    · rw [htotal]
      exact (ceilDiv_le_iff_le_mul hblock).mp (Nat.le_refl _)
    · exact hempty
    · rintro env i item f hf rfl
      obtain ⟨hf, hacked, -⟩ := txOpenFile_spec hf
      refine ⟨hf.trans htotal, fun h => hempty ?_⟩
      rw [hacked] at h
      exact of_decide_eq_true h
    · rintro env dir opened he f hf rfl
      have hfresh := (rxOpenFile_spec env dir (dcBlockSize s) opened he).1 f hf
      refine ⟨hfresh.total.trans htotal, fun h => hempty ?_⟩
      rw [hfresh.writeComplete, hfresh.total] at h
      exact of_decide_eq_true h

/-- A peer that asks for the smallest blocks. -/
def smallBlocks : DFileSetting := { dcLocalSetting with dataFrameSize := 64 }

/-- With these a file of 256 GiB has no blocks: it is received at once. -/
theorem not_blocks_exact_small : 2 ^ 38 ≤ dfileMaxFileSize ∧
    ¬ BlocksExact (dcBlockSize smallBlocks) (2 ^ 38) := by
  refine ⟨by decide, ?_⟩
  rintro ⟨-, -, hempty, -, -⟩
  exact absurd (hempty (by decide)) (by decide)

end HwPhoneLink.DFile
