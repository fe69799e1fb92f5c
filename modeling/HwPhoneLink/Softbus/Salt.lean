import HwPhoneLink.Softbus.Exchange
import Mathlib.Data.Sym.Sym2

/-!
# The salts of different pairs

The salt is the two ids in order with nothing between them, so two pairs share it exactly if
they are one text cut at two places.
-/

namespace HwPhoneLink.Softbus

open BigEndian
open Testfile (ascii)

/-- The two ids in `g_strcmp0` order. -/
def sortedIds (a b : Bytes) : Bytes × Bytes := if b < a then (b, a) else (a, b)

theorem softbusSalt_eq (a b : Bytes) : softbusSalt a b = (sortedIds a b).1 ++ (sortedIds a b).2 := by
  unfold softbusSalt sortedIds
  split <;> rfl

theorem sortedIds_pair (a b : Bytes) : s((sortedIds a b).1, (sortedIds a b).2) = s(a, b) := by
  unfold sortedIds
  split
  · exact Sym2.eq_swap
  · rfl

/-- A part `s` that ends the first id of the one pair begins the second id of the other. -/
def Recut (x y : Bytes × Bytes) : Prop :=
  ∃ s, s ≠ [] ∧ ((y.1 = x.1 ++ s ∧ x.2 = s ++ y.2) ∨ (x.1 = y.1 ++ s ∧ y.2 = s ++ x.2))

/-- One text, cut at one place or at two. -/
theorem append_eq_iff_recut (x y : Bytes × Bytes) :
    x.1 ++ x.2 = y.1 ++ y.2 ↔ x = y ∨ Recut x y := by
  rw [List.append_eq_append_iff]
  constructor
  · rintro (⟨s, hfirst, hsecond⟩ | ⟨s, hfirst, hsecond⟩)
    · by_cases hs : s = []
      · left
        rw [hs, List.append_nil] at hfirst
        rw [hs, List.nil_append] at hsecond
        exact Prod.ext hfirst.symm hsecond
      · exact .inr ⟨s, hs, .inl ⟨hfirst, hsecond⟩⟩
    · by_cases hs : s = []
      · left
        rw [hs, List.append_nil] at hfirst
        rw [hs, List.nil_append] at hsecond
        exact Prod.ext hfirst hsecond.symm
      · exact .inr ⟨s, hs, .inr ⟨hfirst, hsecond⟩⟩
  · rintro (rfl | ⟨s, -, ⟨hfirst, hsecond⟩ | ⟨hfirst, hsecond⟩⟩)
    · exact .inl ⟨[], (List.append_nil _).symm, rfl⟩
    · exact .inl ⟨s, hfirst, hsecond⟩
    · exact .inr ⟨s, hfirst, hsecond⟩

/-- **When two pairs of ids share their salt.** -/
theorem softbusSalt_eq_iff {a b c d : Bytes} (hpairs : s(a, b) ≠ s(c, d)) :
    softbusSalt a b = softbusSalt c d ↔ Recut (sortedIds a b) (sortedIds c d) := by
  rw [softbusSalt_eq, softbusSalt_eq, append_eq_iff_recut]
  refine or_iff_right fun hsame => hpairs ?_
  rw [← sortedIds_pair a b, hsame, sortedIds_pair]

/-- Ids of one length are cut at one place. -/
theorem not_recut_of_length {x y : Bytes × Bytes} (h : x.1.length = y.1.length) : ¬ Recut x y := by
  rintro ⟨s, hs, ⟨hfirst, -⟩ | ⟨hfirst, -⟩⟩
  · rw [hfirst, List.length_append] at h
    exact hs (List.length_eq_zero_iff.mp (by omega))
  · rw [hfirst, List.length_append] at h
    exact hs (List.length_eq_zero_iff.mp (by omega))

/-- **The session keys of a pair** do not depend on the side, the control and the data key have
their own info strings, and another pair has another salt unless it is the same text cut
elsewhere. Where HKDF does not collide on the two salts, the keys are others too. -/
theorem softbusHkdfSessionKeys_pairs (crypto : SoftbusCrypto) (ikm a b c d : Bytes) :
    softbusHkdfSessionKeys crypto a b ikm = softbusHkdfSessionKeys crypto b a ikm ∧
    (softbusHkdfSessionKeys crypto a b ikm =
        (crypto.hkdfSha256 ikm (softbusSalt a b) softbusHkdfInfoControl,
          crypto.hkdfSha256 ikm (softbusSalt a b) softbusHkdfInfoData) ∧
      softbusHkdfInfoControl ≠ softbusHkdfInfoData) ∧
    (s(a, b) ≠ s(c, d) →
      (softbusSalt a b = softbusSalt c d ↔ Recut (sortedIds a b) (sortedIds c d)) ∧
      ((∀ info, crypto.hkdfSha256 ikm (softbusSalt a b) info =
          crypto.hkdfSha256 ikm (softbusSalt c d) info → softbusSalt a b = softbusSalt c d) →
        ¬ Recut (sortedIds a b) (sortedIds c d) →
        (softbusHkdfSessionKeys crypto a b ikm).1 ≠ (softbusHkdfSessionKeys crypto c d ikm).1 ∧
        (softbusHkdfSessionKeys crypto a b ikm).2 ≠ (softbusHkdfSessionKeys crypto c d ikm).2)) := by
  refine ⟨softbusHkdfSessionKeys_comm crypto a b ikm, ⟨rfl, by decide⟩, fun hpairs => ?_⟩
  refine ⟨softbusSalt_eq_iff hpairs, fun hkdf hcut => ?_⟩
  have hsalt : softbusSalt a b ≠ softbusSalt c d := fun h => hcut ((softbusSalt_eq_iff hpairs).mp h)
  exact ⟨fun h => hsalt (hkdf _ h), fun h => hsalt (hkdf _ h)⟩

/-- "pc" and "phone", "pc" and "xphone". -/
theorem softbusHkdfSessionKeys_pairs_pc :
    (softbusHkdfSessionKeys exchangeCrypto (ascii "pc") (ascii "phone") (ascii "shared")).1 ≠
      (softbusHkdfSessionKeys exchangeCrypto (ascii "pc") (ascii "xphone") (ascii "shared")).1 := by
  have hkdf : ∀ info, exchangeCrypto.hkdfSha256 (ascii "shared")
      (softbusSalt (ascii "pc") (ascii "phone")) info = exchangeCrypto.hkdfSha256 (ascii "shared")
      (softbusSalt (ascii "pc") (ascii "xphone")) info →
      softbusSalt (ascii "pc") (ascii "phone") = softbusSalt (ascii "pc") (ascii "xphone") := by
    intro info h
    by_cases hinfo : info = softbusHkdfInfoControl
    · rw [hinfo] at h
      exact absurd h (by decide +kernel)
    · have hother : ∀ salt, exchangeCrypto.hkdfSha256 (ascii "shared") salt info =
          exchangeCrypto.hkdfSha256 (ascii "shared") salt softbusHkdfInfoData := by
        intro salt
        simp only [exchangeCrypto, if_neg hinfo]
        rfl
      rw [hother, hother] at h
      exact absurd h (by decide +kernel)
  have hpairs : s(ascii "pc", ascii "phone") ≠ s(ascii "pc", ascii "xphone") := by
    rw [Ne, Sym2.eq_iff]
    decide
  obtain ⟨-, hkeys⟩ :=
    (softbusHkdfSessionKeys_pairs exchangeCrypto (ascii "shared") _ _ _ _).2.2 hpairs
  exact (hkeys hkdf (not_recut_of_length (by decide))).1

/-- **Two pairs with one salt**: "a" and "bc", "ab" and "c". -/
theorem softbusSalt_not_injective :
    s(ascii "a", ascii "bc") ≠ s(ascii "ab", ascii "c") ∧
      softbusSalt (ascii "a") (ascii "bc") = softbusSalt (ascii "ab") (ascii "c") := by
  refine ⟨?_, by decide⟩
  rw [Ne, Sym2.eq_iff]
  decide

end HwPhoneLink.Softbus
