import HwPhoneLink.DFile.Moves
import HwPhoneLink.Stream.Transfer
import HwPhoneLink.Testfile.Names

/-!
# The digest checks

Three places compare the digest of a received file with the digits in its name:
`rx_send_done`, `sf_process_frame` and `h264_testfile_verify`. The first does not see the case
of a letter. The digest itself is in lowercase.
-/

namespace HwPhoneLink.Testfile

open BigEndian Sha256 DFile HwPhoneLink.Stream

def ftName (hex : Bytes) : Bytes := ascii "ft-" ++ (hex ++ ascii ".bin")

section
variable (sha256Hex : Bytes → Bytes)

/-- The digits, read case-insensitively, are the digest of the content. -/
def DigestIs (hex content : Bytes) : Prop := sha256Hex content = hex.map asciiToLower

end

/-! ## Letter case -/

def NoUpper (hex : Bytes) : Prop := ∀ b ∈ hex, ¬ (65 ≤ b ∧ b ≤ 90)

theorem map_asciiToLower_of_noUpper {hex : Bytes} (h : NoUpper hex) :
    hex.map asciiToLower = hex := by
  conv_rhs => rw [← List.map_id hex]
  refine List.map_congr_left fun b hb => ?_
  rw [asciiToLower, if_neg (h b hb), id]

theorem noUpper_of_hexDigest {d : Bytes} (h : HexDigest d) : NoUpper d := by
  rintro b hb ⟨hlow, hhigh⟩
  rw [UInt8.le_iff_toNat_le] at hlow hhigh
  rcases h.digits b hb with hdigit | hletter
  · have := UInt8.le_iff_toNat_le.mp hdigit.2
    exact absurd (Nat.le_trans hlow this) (by decide)
  · have := UInt8.le_iff_toNat_le.mp hletter.1
    exact absurd (Nat.le_trans this hhigh) (by decide)

/-! ## The checks one by one -/

section
variable {sha256Hex : Bytes → Bytes} {hex content : Bytes}

theorem ftTestfileNameSha_ftName (hlen : hex.length = 64) (hdigits : hex.all asciiIsxdigit = true) :
    ftTestfileNameSha (ftName hex) = some hex :=
  nameSha_eq_some.mpr ⟨rfl, hlen, hdigits⟩

/-- The two suffixes exclude each other. -/
theorem ftName_not_h264 (hex : Bytes) : ¬ ascii ".h264" <:+ ftName hex := by
  intro h264
  have hbin : ascii ".bin" <:+ ftName hex :=
    (List.suffix_append hex (ascii ".bin")).trans (List.suffix_append (ascii "ft-") _)
  exact absurd (List.suffix_of_suffix_length_le hbin h264 (by decide)) (by decide)

/-- The verdict of the loop does not depend on the message. -/
theorem rxCheckFiles_verdict (fs : List DCFile) : ∀ msg msg' : String,
    (rxCheckFiles sha256Hex msg fs).2.2 = (rxCheckFiles sha256Hex msg' fs).2.2 := by
  induction fs with
  | nil => intro msg msg'; rfl
  | cons f fs ih =>
      intro msg msg'
      simp only [rxCheckFiles]
      split
      · split
        · exact ih _ _
        · rfl
      · exact ih _ _

/-- `rx_send_done` compares case-insensitively. -/
theorem rxCheckFiles_cons {f : DCFile} {want : Bytes} (h : f.expectedSha = some want)
    (msg : String) (fs : List DCFile) :
    (rxCheckFiles sha256Hex msg (f :: fs)).2.2 = true ↔
      asciiCaseEq (sha256Hex f.sha) want = true ∧ (rxCheckFiles sha256Hex msg fs).2.2 = true := by
  simp only [rxCheckFiles, h]
  split
  · rename_i heq
    rw [rxCheckFiles_verdict fs _ msg]
    exact ⟨fun hrest => ⟨heq, hrest⟩, fun hboth => hboth.2⟩
  · rename_i hne
    exact ⟨fun hf => (by cases hf), fun hboth => absurd hboth.1 hne⟩

theorem asciiCaseEq_iff_digestIs (hsha : HexDigest (sha256Hex content)) :
    asciiCaseEq (sha256Hex content) hex = true ↔ DigestIs sha256Hex hex content := by
  rw [asciiCaseEq, beq_iff_eq, map_asciiToLower_of_noUpper (noUpper_of_hexDigest hsha), DigestIs]

/-- `sf_process_frame` compares byte by byte. -/
theorem sfVerify_bin {io : SfIo} {sf : StreamFile} {want : Bytes}
    (hname : ¬ ascii ".h264" <:+ sf.rxName) (hexp : sf.rxExpectedSha = some want) :
    (sfVerify sha256Hex io sf).1 = true ↔ sha256Hex sf.rxSha = want := by
  unfold sfVerify
  rw [if_neg hname]
  simp only [hexp]
  split
  · rename_i heq
    exact ⟨fun _ => heq, fun _ => rfl⟩
  · rename_i hne
    exact ⟨fun hf => (by cases hf), fun heq => absurd heq hne⟩

end

end HwPhoneLink.Testfile
