import HwPhoneLink.Testfile.Verify
import HwPhoneLink.Lib.Sha256

/-!
# The digest in a file name
-/

namespace HwPhoneLink.Testfile

open BigEndian Sha256

/-- A name is split into the prefix, 64 hex digits of either case, and the suffix. -/
theorem nameSha_eq_some {pre suf name hex : Bytes} :
    nameSha pre suf name = some hex ↔
      name = pre ++ (hex ++ suf) ∧ hex.length = 64 ∧ hex.all asciiIsxdigit = true := by
  constructor
  · intro h
    unfold nameSha at h
    split at h
    · cases h
    rename_i hlen
    split at h
    · cases h
    rename_i hpre
    split at h
    · cases h
    rename_i hsuf
    split at h
    · cases h
    rename_i hmid
    split at h
    · rename_i hdigits
      cases h
      rw [not_not] at hpre hsuf hmid
      have hrest : name = pre ++ name.drop pre.length := by
        conv_lhs => rw [← List.take_append_drop pre.length name, hpre]
      have hdrop : (name.drop pre.length).drop 64 = suf := by
        rw [List.drop_drop]
        have hend : pre.length + 64 = name.length - suf.length := by omega
        rw [hend, hsuf]
      have hfield : (name.drop pre.length).take 64 ++ suf = name.drop pre.length := by
        rw [← hdrop, List.take_append_drop]
      refine ⟨?_, ?_, hdigits⟩
      · rw [field, hfield]
        exact hrest
      · rw [field, List.length_take, List.length_drop]
        omega
    · cases h
  · rintro ⟨rfl, hlen, hdigits⟩
    have hfield : field 64 pre.length (pre ++ (hex ++ suf)) = hex :=
      field_append pre hex suf rfl hlen
    unfold nameSha
    rw [hfield, List.length_append, List.length_append, hlen, if_neg (by omega),
      List.take_left' rfl, if_neg (not_not.mpr rfl), if_neg, if_neg (by omega), if_pos hdigits]
    rw [not_not, ← List.append_assoc]
    refine List.drop_left' ?_
    rw [List.length_append, hlen]
    omega

theorem asciiIsxdigit_of_hexDigest {d : Bytes} (h : HexDigest d) : d.all asciiIsxdigit = true := by
  rw [List.all_eq_true]
  intro b hb
  rcases h.digits b hb with hdigit | hletter
  · simp [asciiIsxdigit, hdigit]
  · simp [asciiIsxdigit, hletter]

end HwPhoneLink.Testfile
