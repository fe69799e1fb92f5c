import HwPhoneLink.Dmsdp.Text

/-!
# What the DMSDP parser returns

A message or one of four codes, and a trigger body if the message announces one. The body is
what follows the first blank line.
-/

namespace HwPhoneLink.Dmsdp

open BigEndian HwPhoneLink.Testfile

/-! ## The first occurrence -/

theorem memmem_le {needle : Bytes} : ∀ {s : Bytes} {k : ℕ}, memmem needle s = some k →
    k + needle.length ≤ s.length := by
  intro s
  induction s with
  | nil =>
      intro k h
      rw [memmem] at h
      split at h
      · rename_i hnil
        cases h
        rw [hnil]
        exact le_refl 0
      · cases h
  | cons b s ih =>
      intro k h
      rw [memmem] at h
      split at h
      · rename_i hpre
        cases h
        rw [Nat.zero_add]
        exact hpre.length_le
      · obtain ⟨j, hj, rfl⟩ := Option.map_eq_some_iff.mp h
        have := ih hj
        rw [List.length_cons]
        omega

theorem memmem_short {needle s : Bytes} (h : s.length < needle.length) :
    memmem needle s = none := by
  by_contra hne
  obtain ⟨k, hk⟩ := Option.ne_none_iff_exists'.mp hne
  have := memmem_le hk
  omega

/-- The needle stands where it is found. -/
theorem memmem_drop {needle : Bytes} : ∀ {s : Bytes} {k : ℕ}, memmem needle s = some k →
    s.drop k = needle ++ s.drop (k + needle.length) := by
  intro s
  induction s with
  | nil =>
      intro k h
      rw [memmem] at h
      split at h
      · rename_i hnil
        cases h
        rw [hnil]
        rfl
      · cases h
  | cons b s ih =>
      intro k h
      rw [memmem] at h
      split at h
      · rename_i hpre
        cases h
        obtain ⟨t, ht⟩ := hpre
        rw [← ht, Nat.zero_add, List.drop_left]
        rfl
      · obtain ⟨j, hj, rfl⟩ := Option.map_eq_some_iff.mp h
        rw [Nat.add_right_comm, List.drop_succ_cons, List.drop_succ_cons, ih hj]

/-! ## The codes -/

theorem dmsdpParseGps_error {val : Bytes} {out : DmsdpParsed} {rc : ℤ}
    (h : dmsdpParseGps val out = .error rc) : rc = -5 := by
  unfold dmsdpParseGps at h
  split at h
  · cases h
    rfl
  simp only at h
  split at h
  · cases h
    rfl
  split at h
  · cases h
    rfl
  · cases h

theorem dmsdpInteger_error {val : Bytes} {set : UInt32 → DmsdpParsed} {rc : ℤ}
    (h : dmsdpInteger val set = .error rc) : rc = -9 ∨ rc = -1 := by
  unfold dmsdpInteger at h
  cases hv : dmsdpParseInteger val with
  | error rc' =>
      rw [hv] at h
      cases h
      exact dmsdpParseInteger_error hv
  | ok v =>
      rw [hv] at h
      cases h

theorem dmsdpAnalyzeValue_error {idx : DmsdpName} {val : Bytes} {out : DmsdpParsed} {rc : ℤ}
    (h : dmsdpAnalyzeValue idx val out = .error rc) : rc ∈ [-1, -5, -9, -10] := by
  unfold dmsdpAnalyzeValue at h
  split at h
  · unfold dmsdpAnalyzeString at h
    split at h
    case h_6 =>
      rw [dmsdpParseGps_error h]
      decide
    all_goals
      cases h
      try decide
  · unfold dmsdpAnalyzeInteger at h
    split at h
    case h_20 =>
      cases h
      decide
    all_goals rcases dmsdpInteger_error h with rfl | rfl <;> decide

/-- A field that is ignored is no error of the line. -/
theorem dmsdpAnalyzeLine_error {line : Bytes} {out : DmsdpParsed} {rc : ℤ}
    (h : dmsdpAnalyzeLine line out = .error rc) : rc ∈ [-1, -5, -9] := by
  unfold dmsdpAnalyzeLine at h
  simp only at h
  split at h
  · cases h
    decide
  split at h
  · cases h
    decide
  split at h
  · cases h
  split at h
  · cases h
  rename_i rc' hvalue
  split at h
  · cases h
  rename_i hten
  cases h
  have hmem := dmsdpAnalyzeValue_error hvalue
  simp only [List.mem_cons, List.not_mem_nil, or_false] at hmem ⊢
  tauto

theorem dmsdpHeaders_error {rc : ℤ} : ∀ {fuel : ℕ} {rest : Bytes} {out : DmsdpParsed},
    dmsdpHeaders fuel rest out = .error rc → rc ∈ [-1, -2, -5, -9] := by
  have hline : ∀ {line : Bytes} {out : DmsdpParsed}, dmsdpAnalyzeLine line out = .error rc →
      rc ∈ [-1, -2, -5, -9] := fun h => by
    have hmem := dmsdpAnalyzeLine_error h
    simp only [List.mem_cons, List.not_mem_nil, or_false] at hmem ⊢
    tauto
  intro fuel
  induction fuel with
  | zero =>
      intro rest out h
      cases h
  | succ fuel ih =>
      intro rest out h
      rw [dmsdpHeaders] at h
      split at h
      · cases h
      split at h
      · split at h
        · cases h
        split at h
        · rename_i hbad
          cases h
          exact hline hbad
        · exact ih h
      · split at h
        · cases h
          decide
        split at h
        · rename_i hbad
          cases h
          exact hline hbad
        · cases h

theorem dmsdpBody_error {len : ℕ} {body : Bytes} {out : DmsdpParsed} {rc : ℤ}
    (h : dmsdpBody len body out = .error rc) : rc = -2 := by
  unfold dmsdpBody at h
  split at h
  · split at h
    · cases h
      rfl
    split at h
    · cases h
      rfl
    · cases h
  split at h
  · cases h
    rfl
  · cases h

theorem dmsdpParse_error {text : Bytes} {rc : ℤ} (h : dmsdpParse text = .error rc) :
    rc ∈ [-1, -2, -5, -9] := by
  unfold dmsdpParse at h
  split at h
  · cases h
    decide
  split at h
  · cases h
    decide
  split at h
  · cases h
    decide
  split at h
  · rename_i hheaders
    cases h
    exact dmsdpHeaders_error hheaders
  · rw [dmsdpBody_error h]
    decide

/-! ## The body -/

/-- What follows the first blank line. -/
def messageBody (text : Bytes) : Option Bytes :=
  (memmem (crlf ++ crlf) text).map fun k => text.drop (k + 4)

/-- A blank line begins at a line break. -/
theorem memmem_blank : ∀ {s : Bytes} {k : ℕ}, memmem crlf s = some k →
    memmem (crlf ++ crlf) s = (memmem (crlf ++ crlf) (s.drop k)).map (· + k) := by
  intro s
  induction s with
  | nil =>
      intro k h
      cases h
  | cons b s ih =>
      intro k h
      rw [memmem] at h
      split at h
      · cases h
        show _ = Option.map id _
        rw [List.drop_zero, Option.map_id, id]
      · rename_i hfront
        obtain ⟨j, hj, rfl⟩ := Option.map_eq_some_iff.mp h
        have hfront' : ¬ crlf ++ crlf <+: b :: s := fun hpre =>
          hfront ((List.prefix_append crlf crlf).trans hpre)
        rw [memmem, if_neg hfront', ih hj, Option.map_map]
        rfl

theorem memmem_blank_here (rest : Bytes) :
    memmem (crlf ++ crlf) (crlf ++ (crlf ++ rest)) = some 0 := by
  rw [← List.append_assoc]
  exact if_pos (List.prefix_append _ _)

/-- What precedes the first line break does not matter. -/
theorem messageBody_drop {s : Bytes} {k : ℕ} (h : memmem crlf s = some k) :
    messageBody (s.drop k) = messageBody s := by
  rw [messageBody, messageBody, memmem_blank h, Option.map_map]
  refine congrArg (fun f => Option.map f _) (funext fun j => ?_)
  show (s.drop k).drop (j + 4) = s.drop (j + k + 4)
  rw [List.drop_drop]
  congr 1
  omega

/-- The line break before a line that is not blank does not matter. -/
theorem messageBody_line {rest : Bytes} (h : ¬ crlf <+: rest) :
    messageBody (crlf ++ rest) = messageBody rest := by
  have hfirst : ¬ crlf ++ crlf <+: 13 :: 10 :: rest := fun hpre =>
    h ((List.prefix_append_right_inj crlf).mp hpre)
  have hsecond : ¬ crlf ++ crlf <+: 10 :: rest := fun hpre =>
    absurd (List.cons_prefix_cons.mp hpre).1 (by decide)
  show Option.map _ (memmem (crlf ++ crlf) (13 :: 10 :: rest)) = _
  rw [messageBody, memmem, if_neg hfirst, memmem, if_neg hsecond, Option.map_map, Option.map_map]
  rfl

/-- The header lines end at the first blank one. -/
theorem dmsdpHeaders_body {body : Bytes} {out' : DmsdpParsed} (hbody : body ≠ []) :
    ∀ {fuel : ℕ} {rest : Bytes} {out : DmsdpParsed}, rest.length ≤ fuel →
      dmsdpHeaders fuel rest out = .ok (out', body) → messageBody (crlf ++ rest) = some body := by
  intro fuel
  induction fuel with
  | zero =>
      intro rest out hfuel h
      cases h
      exact absurd (List.eq_nil_of_length_eq_zero (Nat.le_zero.mp hfuel)) hbody
  | succ fuel ih =>
      intro rest out hfuel h
      rw [dmsdpHeaders] at h
      split at h
      · cases h
        exact absurd rfl hbody
      split at h
      · rename_i ll hfound
        have hdrop := memmem_drop hfound
        have hll := memmem_le hfound
        rw [show crlf.length = 2 from rfl] at hdrop hll
        split at h
        · rename_i hblank
          subst hblank
          cases h
          rw [List.drop_zero] at hdrop
          rw [hdrop, messageBody, memmem_blank_here]
          rfl
        rename_i hline
        split at h
        · cases h
        have hfront : ¬ crlf <+: rest := fun hpre => by
          cases rest with
          | nil => exact absurd (List.prefix_nil.mp hpre) (by decide)
          | cons b rest =>
              rw [memmem, if_pos hpre] at hfound
              exact hline (Option.some.inj hfound).symm
        rw [messageBody_line hfront, ← messageBody_drop hfound, hdrop]
        exact ih (by rw [List.length_drop]; omega) h
      · split at h
        · cases h
        split at h
        · cases h
        · cases h
          exact absurd rfl hbody

/-- An announced body is a trigger string, and the index names it. -/
theorem dmsdpBody_trigger {len : ℕ} {body : Bytes} {out p : DmsdpParsed}
    (h : dmsdpBody len body out = .ok p) (hlen : p.contentLength > 0) :
    body ≠ [] ∧ body.length = p.contentLength.toNat ∧
      ∃ i, dmsdpTriggerBodies[i]? = some body ∧ p.triggerIdx.toNat = i + 1 := by
  unfold dmsdpBody at h
  split at h
  · rename_i hannounced
    split at h
    · cases h
    rename_i hsame
    split at h
    · cases h
    rename_i i hfound
    cases h
    have hsame : body.length = out.contentLength.toNat := not_not.mp hsame
    obtain ⟨hi, hbody, -⟩ := List.findIdx?_eq_some_iff_getElem.mp hfound
    have hi' : i < 5 := hi
    refine ⟨?_, hsame, i, ?_, ?_⟩
    · apply List.ne_nil_of_length_pos
      rw [hsame]
      exact hannounced
    · rw [List.getElem?_eq_getElem hi]
      exact congrArg some (of_decide_eq_true hbody).symm
    · show (UInt32.ofNat (i + 1)).toNat = i + 1
      exact UInt32.toNat_ofNat_of_lt' (show i + 1 < 2 ^ 32 by omega)
  · rename_i hannounced
    split at h
    · cases h
    · cases h
      exact absurd hlen hannounced

/-- **The body of an accepted message.** -/
theorem dmsdpParse_trigger {text : Bytes} {p : DmsdpParsed} (h : dmsdpParse text = .ok p)
    (hlen : p.contentLength > 0) :
    ∃ body, messageBody text = some body ∧ body.length = p.contentLength.toNat ∧
      ∃ i, dmsdpTriggerBodies[i]? = some body ∧ p.triggerIdx.toNat = i + 1 := by
  unfold dmsdpParse at h
  split at h
  · cases h
  split at h
  · cases h
  rename_i line1 hline1
  split at h
  · cases h
  split at h
  · cases h
  rename_i out₁ body hheaders
  obtain ⟨hne, hsame, htrigger⟩ := dmsdpBody_trigger h hlen
  have hle := memmem_le hline1
  have hdrop := memmem_drop hline1
  rw [show crlf.length = 2 from rfl] at hdrop hle
  refine ⟨body, ?_, hsame, htrigger⟩
  rw [← messageBody_drop hline1, hdrop]
  exact dmsdpHeaders_body hne (by rw [List.length_drop]; omega) hheaders

end HwPhoneLink.Dmsdp
