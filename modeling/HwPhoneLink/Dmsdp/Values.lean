import HwPhoneLink.Dmsdp.Build

/-!
# Values read back

`dmsdp_parse` on the parts of a text that `dmsdp_build` writes: a number, a header line under
its name, and the Transport line with its ports.
-/

namespace HwPhoneLink.Dmsdp

open BigEndian Path HwPhoneLink.Testfile

/-! ## Numbers -/

theorem isDigit_not_space {b : UInt8} (h : isDigit b = true) : isSpace b = false := by
  simp only [isDigit, Bool.and_eq_true, decide_eq_true_eq] at h
  simp only [isSpace, Bool.or_eq_false_iff, Bool.and_eq_false_iff, decide_eq_false_iff_not]
  obtain ⟨hlow, -⟩ := h
  rw [UInt8.le_iff_toNat_le] at hlow
  have h48 : (48 : UInt8).toNat = 48 := rfl
  refine ⟨?_, .inr ?_⟩
  · rintro rfl
    revert hlow
    decide
  · rw [UInt8.le_iff_toNat_le]
    have h13 : (13 : UInt8).toNat = 13 := rfl
    omega

theorem isDigit_ne {b c : UInt8} (h : isDigit b = true) (hc : isDigit c = false) : b ≠ c := by
  rintro rfl
  rw [h] at hc
  cases hc

theorem isDigit_not_sign {b : UInt8} (h : isDigit b = true) : isSignSlot b = false := by
  have hall : ∀ k : Fin 256, isDigit (UInt8.ofNat k) = true → isSignSlot (UInt8.ofNat k) = false := by
    decide +kernel
  have hb := hall ⟨b.toNat, b.toNat_lt⟩
  rw [UInt8.ofNat_toNat] at hb
  exact hb h

/-- The byte of a decimal digit. -/
theorem digitByte {c : Char} (h : c.isDigit = true) :
    isDigit (UInt8.ofNat c.toNat) = true ∧ (UInt8.ofNat c.toNat).toNat = c.toNat := by
  rw [Char.isDigit, Bool.and_eq_true, decide_eq_true_eq, decide_eq_true_eq] at h
  have hlow : 48 ≤ c.toNat := UInt32.le_iff_toNat_le.mp h.1
  have hhigh : c.toNat ≤ 57 := UInt32.le_iff_toNat_le.mp h.2
  have hbyte : (UInt8.ofNat c.toNat).toNat = c.toNat := by
    rw [UInt8.toNat_ofNat']
    omega
  refine ⟨?_, hbyte⟩
  rw [isDigit, Bool.and_eq_true, decide_eq_true_eq, decide_eq_true_eq, UInt8.le_iff_toNat_le,
    UInt8.le_iff_toNat_le, hbyte]
  exact ⟨hlow, hhigh⟩

theorem decimal_eq (n : ℕ) :
    decimal n = (Nat.toDigits 10 n).map fun c => UInt8.ofNat c.toNat := by
  rw [decimal, ascii, Nat.toString_eq_repr, Nat.toList_repr]

theorem decimal_digits {n : ℕ} : ∀ b ∈ decimal n, isDigit b = true := by
  intro b hb
  rw [decimal_eq] at hb
  obtain ⟨c, hc, rfl⟩ := List.mem_map.mp hb
  exact (digitByte (Nat.isDigit_of_mem_toDigits (by decide) (by decide) hc)).1

theorem not_mem_decimal {b : UInt8} (hb : isDigit b = false) (n : ℕ) : b ∉ decimal n :=
  fun hmem => isDigit_ne (decimal_digits b hmem) hb rfl

theorem decimal_ne_nil (n : ℕ) : decimal n ≠ [] := by
  rw [decimal_eq]
  simp

theorem decimal_length_le {n k : ℕ} (hk : 0 < k) (hn : n < 10 ^ k) : (decimal n).length ≤ k := by
  rw [decimal_eq, List.length_map]
  exact (Nat.length_toDigits_le_iff (by decide) hk).mpr hn

theorem decimalValue_decimal (n : ℕ) : decimalValue (decimal n) = n := by
  have hfold : ∀ (cs : List Char), (∀ c ∈ cs, c.isDigit = true) → ∀ init : ℕ,
      (cs.map fun c => UInt8.ofNat c.toNat).foldl (fun n b => 10 * n + (b.toNat - 48)) init =
        Nat.ofDigitChars 10 cs init := by
    intro cs
    induction cs with
    | nil =>
        intro _ init
        rfl
    | cons c cs ih =>
        intro hcs init
        rw [List.map_cons, List.foldl_cons, ih fun d hd => hcs d (List.mem_cons_of_mem c hd),
          (digitByte (hcs c List.mem_cons_self)).2]
        rfl
  rw [decimalValue, decimal_eq, hfold _ fun c hc => Nat.isDigit_of_mem_toDigits (by decide)
    (by decide) hc]
  exact Nat.ofDigitChars_ten_toDigits

/-- The end of a number. -/
theorem takeWhile_decimal {n : ℕ} {rest : Bytes} (hrest : ∀ b ∈ rest.head?, isDigit b = false) :
    (decimal n ++ rest).takeWhile isDigit = decimal n ∧
      (decimal n ++ rest).dropWhile isDigit = rest := by
  rw [List.takeWhile_append_of_pos decimal_digits, List.dropWhile_append_of_pos decimal_digits]
  cases rest with
  | nil => exact ⟨List.append_nil _, rfl⟩
  | cons b rest =>
      have hb : isDigit b = false := hrest b rfl
      rw [List.takeWhile_cons_of_neg (by rw [hb]; decide),
        List.dropWhile_cons_of_neg (by rw [hb]; decide), List.append_nil]
      exact ⟨rfl, rfl⟩

/-- The first byte of a number is no space and no sign. -/
theorem decimal_front (n : ℕ) (rest : Bytes) : ∃ d ds, decimal n ++ rest = d :: ds ∧
    isDigit d = true := by
  obtain ⟨d, ds, hd⟩ := List.exists_cons_of_ne_nil (decimal_ne_nil n)
  have hmem : d ∈ decimal n := hd ▸ List.mem_cons_self
  exact ⟨d, ds ++ rest, by rw [hd]; rfl, decimal_digits d hmem⟩

/-- **A number is read back**, up to what is no digit. -/
theorem scanInt_decimal {n : ℕ} (hn : n < 2 ^ 63) {rest : Bytes}
    (hrest : ∀ b ∈ rest.head?, isDigit b = false) :
    scanInt (decimal n ++ rest) = some ((n : ℤ), rest) := by
  obtain ⟨htake, hdrop⟩ := takeWhile_decimal (n := n) hrest
  obtain ⟨d, ds, hfront, hd⟩ := decimal_front n rest
  have hskip : (decimal n ++ rest).dropWhile isSpace = decimal n ++ rest := by
    rw [hfront, List.dropWhile_cons_of_neg (by rw [isDigit_not_space hd]; decide)]
  have hminus : (decimal n ++ rest).head? ≠ some 45 := by
    rw [hfront, List.head?_cons, Ne, Option.some.injEq]
    exact isDigit_ne hd (by decide)
  have hplus : (decimal n ++ rest).head? ≠ some 43 := by
    rw [hfront, List.head?_cons, Ne, Option.some.injEq]
    exact isDigit_ne hd (by decide)
  unfold scanInt
  simp only [hskip, hminus, hplus, or_self, if_false, htake, hdrop, decimal_ne_nil,
    decimalValue_decimal]
  congr 2
  omega

theorem scanInt_decimal_end {n : ℕ} (hn : n < 2 ^ 63) :
    scanInt (decimal n) = some ((n : ℤ), []) := by
  have hnone : ∀ b ∈ ([] : Bytes).head?, isDigit b = false := fun b hb => by cases hb
  have hscan := scanInt_decimal hn hnone
  rwa [List.append_nil] at hscan

theorem scanInt_space (s : Bytes) : scanInt (32 :: s) = scanInt s := by
  unfold scanInt
  rw [List.dropWhile_cons_of_pos (by decide)]

theorem ofInt_natCast (n : ℕ) : UInt32.ofInt (n : ℤ) = UInt32.ofNat n := by
  rw [← UInt32.toNat_inj, UInt32.ofInt, UInt32.toNat_ofNat', UInt32.toNat_ofNat']
  omega

/-- **A header number is read back.** -/
theorem dmsdpParseInteger_decimal {n : ℕ} (hn : n < 2 ^ 31) :
    dmsdpParseInteger (32 :: decimal n) = .ok (UInt32.ofNat n) := by
  have hlen : (decimal n).length ≤ 10 := decimal_length_le (by decide) (by omega)
  have hnul : (0 : UInt8) ∉ 32 :: decimal n := by
    rw [List.mem_cons, not_or]
    exact ⟨by decide, not_mem_decimal (by decide) n⟩
  obtain ⟨d, ds, hfront, hd⟩ := decimal_front n []
  rw [List.append_nil] at hfront
  have hskip : (32 :: decimal n).dropWhile (fun b => decide (b = 32)) = decimal n := by
    rw [List.dropWhile_cons_of_pos (by decide), hfront, List.dropWhile_cons_of_neg]
    rw [decide_eq_true_eq]
    exact isDigit_ne hd (by decide)
  have hsign : ((decimal n).head?.any isSignSlot) = false := by
    rw [hfront]
    exact isDigit_not_sign hd
  have hvalue : atoi (32 :: decimal n) = UInt32.ofNat n := by
    rw [atoi, scanInt_space, scanInt_decimal_end (by omega)]
    exact ofInt_natCast n
  unfold dmsdpParseInteger
  rw [if_neg (by rw [List.length_cons]; omega)]
  simp only [cString_of_no_nul hnul, hskip, hsign, hvalue]
  rw [if_neg (by rw [List.length_cons]; omega), if_neg (fun h => Bool.false_ne_true h.1),
    if_neg Bool.false_ne_true, if_pos (List.all_eq_true.mpr decimal_digits)]

/-! ## Lines -/

theorem memmem_crlf {line : Bytes} (h : (13 : UInt8) ∉ line) (rest : Bytes) :
    memmem crlf (line ++ crlf ++ rest) = some line.length := by
  induction line with
  | nil =>
      have hprefix : crlf <+: crlf ++ rest := List.prefix_append crlf rest
      rw [List.nil_append]
      show (if crlf <+: crlf ++ rest then _ else _) = _
      rw [if_pos hprefix]
      rfl
  | cons b line ih =>
      rw [List.mem_cons, not_or] at h
      have hprefix : ¬ crlf <+: b :: (line ++ crlf ++ rest) := by
        rintro ⟨more, hmore⟩
        exact h.1 (List.cons.inj hmore).1
      rw [List.cons_append, List.cons_append, memmem, if_neg hprefix, ih h.2]
      rfl

/-- **Whole header lines** are analyzed in turn, up to the blank one. -/
theorem dmsdpHeaders_bodies {bodies : List Bytes} : ∀ {fuel : ℕ} {out out' : DmsdpParsed},
    (∀ l ∈ bodies, l ≠ [] ∧ (13 : UInt8) ∉ l) → bodies.length < fuel →
    bodies.foldlM (fun out l => dmsdpAnalyzeLine l out) out = .ok out' →
    dmsdpHeaders fuel ((bodies.map (· ++ crlf)).flatten ++ crlf) out = .ok (out', []) := by
  induction bodies with
  | nil =>
      intro fuel out out' _ hfuel hfold
      cases hfold
      obtain ⟨k, rfl⟩ := Nat.exists_eq_add_of_lt hfuel
      have hblank : memmem crlf crlf = some 0 := by decide
      rw [List.length_nil, Nat.zero_add, dmsdpHeaders, List.map_nil, List.flatten_nil, List.nil_append,
        if_neg (by decide), hblank]
      rfl
  | cons line bodies ih =>
      intro fuel out out' hbodies hfuel hfold
      obtain ⟨hline, hcr⟩ := hbodies line List.mem_cons_self
      obtain ⟨k, rfl⟩ := Nat.exists_eq_add_of_lt hfuel
      rw [List.foldlM_cons] at hfold
      obtain ⟨out₁, hout₁, hrest⟩ : ∃ out₁, dmsdpAnalyzeLine line out = .ok out₁ ∧
          bodies.foldlM (fun out l => dmsdpAnalyzeLine l out) out₁ = .ok out' := by
        cases hl : dmsdpAnalyzeLine line out with
        | error rc =>
            rw [hl] at hfold
            cases hfold
        | ok out₁ =>
            rw [hl] at hfold
            exact ⟨out₁, rfl, hfold⟩
      set tail := (bodies.map (· ++ crlf)).flatten ++ crlf with htail
      have hsplit : ((line :: bodies).map (· ++ crlf)).flatten ++ crlf = line ++ crlf ++ tail := by
        rw [List.map_cons, List.flatten_cons, List.append_assoc, htail]
      have hne : line ++ crlf ++ tail ≠ [] := by simp [hline]
      have hlen : line.length ≠ 0 := fun h0 => hline (List.length_eq_zero_iff.mp h0)
      have htake : (line ++ crlf ++ tail).take line.length = line := by
        rw [List.append_assoc, List.take_left]
      have hdrop : (line ++ crlf ++ tail).drop (line.length + 2) = tail :=
        List.drop_left' (by rw [List.length_append]; rfl)
      rw [hsplit, dmsdpHeaders, if_neg hne, memmem_crlf hcr]
      simp only
      rw [if_neg hlen, htake, hout₁, hdrop]
      exact ih (fun l hl => hbodies l (List.mem_cons_of_mem line hl)) (by simp at *; omega) hrest

/-- No name of the table is shadowed by an earlier one. -/
theorem dmsdpGetKeyword_name : ∀ p ∈ dmsdpNames, dmsdpGetKeyword p.2 = some p.1 := by
  decide +kernel

theorem dmsdpNames_plain : ∀ p ∈ dmsdpNames, p.2 ≠ [] ∧ (58 : UInt8) ∉ p.2 ∧ (13 : UInt8) ∉ p.2 := by
  decide +kernel

/-- The flags of a header. -/
def flagged (idx : DmsdpName) (out : DmsdpParsed) : DmsdpParsed :=
  { out with flags1 := out.flags1 ||| idx.flag1, flags2 := out.flags2 ||| idx.flag2 }

theorem dmsdpAnalyzeLine_eq {idx : DmsdpName} {name : Bytes} (hname : (idx, name) ∈ dmsdpNames)
    (value : Bytes) (out : DmsdpParsed) :
    dmsdpAnalyzeLine (name ++ ascii ": " ++ value) out =
      match dmsdpAnalyzeValue idx (32 :: value) (flagged idx out) with
      | .ok out => .ok out
      | .error rc =>
          if rc = -10 then
            .ok { flagged idx out with
              flags1 := (flagged idx out).flags1 &&& ~~~idx.flag1
              flags2 := (flagged idx out).flags2 &&& ~~~idx.flag2 }
          else .error rc := by
  obtain ⟨hne, hcolon, -⟩ := dmsdpNames_plain _ hname
  have hsep : ascii ": " = [58, 32] := by decide
  have hline : name ++ ascii ": " ++ value = name ++ 58 :: 32 :: value := by
    rw [hsep, List.append_assoc]
    rfl
  have hkey : headerKey (name ++ 58 :: 32 :: value) = name := by
    have hall : ∀ b ∈ name, decide (b ≠ 58) = true := by
      intro b hb
      rw [decide_eq_true_eq]
      rintro rfl
      exact hcolon hb
    rw [headerKey, List.takeWhile_append_of_pos hall, List.takeWhile_cons_of_neg (by decide),
      List.append_nil]
  have hvalue : headerValue (name ++ 58 :: 32 :: value) = 32 :: value := by
    have hsplit : name ++ 58 :: 32 :: value = name ++ [58] ++ 32 :: value := by
      rw [List.append_assoc]
      rfl
    rw [headerValue, hkey, hsplit]
    exact List.drop_left' (by rw [List.length_append]; rfl)
  have hlen : (name ++ 58 :: 32 :: value).length = name.length + value.length + 2 := by
    simp only [List.length_append, List.length_cons]
    omega
  have hpos : name.length ≠ 0 := fun h0 => hne (List.length_eq_zero_iff.mp h0)
  rw [hline]
  unfold dmsdpAnalyzeLine
  simp only [hkey, hvalue, hlen]
  rw [if_neg (by omega), if_neg (by omega), dmsdpGetKeyword_name _ hname]
  rfl

/-- A header whose value is good. -/
theorem dmsdpAnalyzeLine_value {idx : DmsdpName} {name value : Bytes} {out out' : DmsdpParsed}
    (hname : (idx, name) ∈ dmsdpNames)
    (h : dmsdpAnalyzeValue idx (32 :: value) (flagged idx out) = .ok out') :
    dmsdpAnalyzeLine (name ++ ascii ": " ++ value) out = .ok out' := by
  rw [dmsdpAnalyzeLine_eq hname, h]

/-! ## The Transport line -/

theorem portRange_length {lo hi : UInt32} (hlo : lo.toNat ≤ 65535) (hhi : hi.toNat ≤ 65535) :
    (portRange lo hi).length ≤ 11 := by
  have h1 : (decimal lo.toNat).length ≤ 5 := decimal_length_le (by decide) (by omega)
  have h2 : (decimal hi.toNat).length ≤ 5 := decimal_length_le (by decide) (by omega)
  have hdash : (ascii "-").length = 1 := by decide
  rw [portRange, List.length_append, List.length_append, hdash]
  omega

theorem not_mem_portRange {b : UInt8} (hb : isDigit b = false) (hdash : b ≠ 45) (lo hi : UInt32) :
    b ∉ portRange lo hi := by
  have hascii : ascii "-" = [45] := by decide
  rw [portRange, hascii, List.mem_append, List.mem_append, List.mem_singleton]
  rintro ((h | h) | h)
  · exact not_mem_decimal hb _ h
  · exact hdash h
  · exact not_mem_decimal hb _ h

/-- **A range of ports is read back.** -/
theorem dmsdpParsePortRange_range {lo hi : UInt32} (hlo : lo.toNat ≤ 65535)
    (hhi : hi.toNat ≤ 65535) : dmsdpParsePortRange (portRange lo hi) = some (lo, hi) := by
  have hlen := portRange_length hlo hhi
  have hnul : (0 : UInt8) ∉ portRange lo hi := not_mem_portRange (by decide) (by decide) lo hi
  have hsplit : portRange lo hi = decimal lo.toNat ++ 45 :: decimal hi.toNat := by
    rw [portRange, List.append_assoc]
    rfl
  have hfirst : scanInt (decimal lo.toNat ++ 45 :: decimal hi.toNat) =
      some ((lo.toNat : ℤ), 45 :: decimal hi.toNat) := by
    refine scanInt_decimal (by omega) fun b hb => ?_
    rw [← Option.some.inj hb]
    decide
  have hsecond : scanInt (decimal hi.toNat) = some ((hi.toNat : ℤ), []) :=
    scanInt_decimal_end (by omega)
  unfold dmsdpParsePortRange
  rw [if_neg (by omega), cString_of_no_nul hnul, hsplit, hfirst]
  simp only [List.head?_cons, if_true, List.tail_cons, hsecond, ofInt_natCast,
    UInt32.ofNat_toNat]

/-- The segments of a Transport value. -/
theorem transport_segments (client : Bytes) (more : List Bytes)
    (hclient : (59 : UInt8) ∉ client) (hmore : ∀ seg ∈ more, (59 : UInt8) ∉ seg) :
    (ascii "RTP/AVP/UDP;unicast;" ++ client ++ (more.map ([59] ++ ·)).flatten).splitOn 59 =
      ascii "RTP/AVP/UDP" :: ascii "unicast" :: client :: more := by
  have hsplit : ascii "RTP/AVP/UDP;unicast;" ++ client ++ (more.map ([59] ++ ·)).flatten =
      ascii "RTP/AVP/UDP" ++ 59 :: (ascii "unicast" ++ 59 :: (client ++
        (more.map ([59] ++ ·)).flatten)) := by
    have hhead : ascii "RTP/AVP/UDP;unicast;" =
        ascii "RTP/AVP/UDP" ++ 59 :: (ascii "unicast" ++ [59]) := by decide
    rw [hhead]
    simp only [List.append_assoc, List.cons_append, List.nil_append]
  have hlast : ∀ {seg : Bytes} {segs : List Bytes}, (59 : UInt8) ∉ seg →
      (∀ seg ∈ segs, (59 : UInt8) ∉ seg) →
      (seg ++ (segs.map ([59] ++ ·)).flatten).splitOn 59 = seg :: segs := by
    intro seg segs
    induction segs generalizing seg with
    | nil =>
        intro hseg _
        rw [List.map_nil, List.flatten_nil, List.append_nil]
        exact List.splitOn_eq_singleton hseg
    | cons next segs ih =>
        intro hseg hsegs
        rw [List.map_cons, List.flatten_cons]
        show (seg ++ 59 :: (next ++ (segs.map ([59] ++ ·)).flatten)).splitOn 59 = _
        rw [List.splitOn_append_cons_self_of_not_mem hseg,
          ih (hsegs next List.mem_cons_self) fun s hs => hsegs s (List.mem_cons_of_mem next hs)]
  rw [hsplit, List.splitOn_append_cons_self_of_not_mem (by decide),
    List.splitOn_append_cons_self_of_not_mem (by decide), hlast hclient hmore]

/-- A segment under its name. -/
theorem attr_take (name value : Bytes) (hname : name.length = 11) :
    (name ++ [61] ++ value).take 12 = name ++ [61] ∧ (name ++ [61] ++ value).drop 12 = value := by
  have hlen : (name ++ [61]).length = 12 := by rw [List.length_append, hname]; rfl
  exact ⟨List.take_left' hlen, List.drop_left' hlen⟩

section

variable {out : DmsdpParsed} {clo chi slo shi : UInt32}

/-- The value of the client-only line. -/
def clientTransport (clo chi : UInt32) : Bytes :=
  ascii "RTP/AVP/UDP;unicast;" ++ (ascii "client_port=" ++ portRange clo chi)

/-- The value of the combined line. -/
def combinedTransport (clo chi slo shi : UInt32) : Bytes :=
  clientTransport clo chi ++ (ascii ";server_port=" ++ portRange slo shi)

theorem client_segment (clo chi : UInt32) : (59 : UInt8) ∉ ascii "client_port=" ++ portRange clo chi := by
  rw [List.mem_append, not_or]
  exact ⟨by decide, not_mem_portRange (by decide) (by decide) clo chi⟩

theorem clientTransport_split (clo chi : UInt32) : (clientTransport clo chi).splitOn 59 =
    [ascii "RTP/AVP/UDP", ascii "unicast", ascii "client_port=" ++ portRange clo chi] := by
  have h := transport_segments _ [] (client_segment clo chi) fun _ hs => by cases hs
  rwa [List.map_nil, List.flatten_nil, List.append_nil] at h

theorem combinedTransport_split (clo chi slo shi : UInt32) :
    (combinedTransport clo chi slo shi).splitOn 59 =
      [ascii "RTP/AVP/UDP", ascii "unicast", ascii "client_port=" ++ portRange clo chi,
        ascii "server_port=" ++ portRange slo shi] := by
  have hserver : ∀ seg ∈ [ascii "server_port=" ++ portRange slo shi], (59 : UInt8) ∉ seg := by
    intro seg hseg
    rw [List.mem_singleton.mp hseg, List.mem_append, not_or]
    exact ⟨by decide, not_mem_portRange (by decide) (by decide) slo shi⟩
  have h := transport_segments _ [ascii "server_port=" ++ portRange slo shi]
    (client_segment clo chi) hserver
  rw [List.map_singleton, List.flatten_singleton] at h
  exact h

/-- The segment of a name is the first with its front. -/
theorem dmsdpParseTransportAttr_some {val name : Bytes}
    {set : UInt32 × UInt32 → DmsdpParsed → DmsdpParsed} {ports : UInt32 × UInt32}
    (value : Bytes) (before after : List Bytes) (hname : name.length = 11)
    (hsplit : val.splitOn 59 = before ++ (name ++ [61] ++ value) :: after)
    (hbefore : ∀ seg ∈ before, seg.take 12 ≠ name ++ [61])
    (hports : dmsdpParsePortRange value = some ports) :
    dmsdpParseTransportAttr val name set out = some (set ports out) := by
  obtain ⟨htake, hdrop⟩ := attr_take name value hname
  have hfind : (before ++ (name ++ [61] ++ value) :: after).find?
      (fun seg => decide (seg.take 12 = name ++ [61])) = some (name ++ [61] ++ value) := by
    rw [List.find?_append, List.find?_eq_none.mpr fun seg hseg => by
      rw [decide_eq_true_eq]
      exact hbefore seg hseg]
    rw [Option.none_or, List.find?_cons_of_pos (by rw [decide_eq_true_eq]; exact htake)]
  rw [dmsdpParseTransportAttr, hsplit, hfind]
  simp only
  rw [hdrop, hports]
  rfl

theorem dmsdpParseTransportAttr_none {val name : Bytes}
    {set : UInt32 × UInt32 → DmsdpParsed → DmsdpParsed}
    (h : ∀ seg ∈ val.splitOn 59, seg.take 12 ≠ name ++ [61]) :
    dmsdpParseTransportAttr val name set out = some out := by
  have hfind : (val.splitOn 59).find? (fun seg => decide (seg.take 12 = name ++ [61])) = none := by
    refine List.find?_eq_none.mpr fun seg hseg => ?_
    rw [decide_eq_true_eq]
    exact h seg hseg
  rw [dmsdpParseTransportAttr, hfind]

theorem client_attr : ascii "client_port=" = ascii "client_port" ++ [61] := by decide

theorem server_attr : ascii "server_port=" = ascii "server_port" ++ [61] := by decide

theorem client_take (clo chi : UInt32) :
    (ascii "client_port=" ++ portRange clo chi).take 12 = ascii "client_port" ++ [61] := by
  rw [client_attr]
  exact (attr_take (ascii "client_port") _ (by decide)).1

/-- **The client-only line is read back.** -/
theorem dmsdpParseTransport_client (hclo : clo.toNat ≤ 65535) (hchi : chi.toNat ≤ 65535) :
    dmsdpParseTransport (clientTransport clo chi) out =
      { out with clientPortLo := clo, clientPortHi := chi } := by
  have hfront : (clientTransport clo chi).take 20 = ascii "RTP/AVP/UDP;unicast;" :=
    List.take_left' (by decide)
  have hclient : dmsdpParseTransportAttr (clientTransport clo chi) (ascii "client_port")
      (fun ports out => { out with clientPortLo := ports.1, clientPortHi := ports.2 }) out =
        some { out with clientPortLo := clo, clientPortHi := chi } := by
    refine dmsdpParseTransportAttr_some (portRange clo chi)
      [ascii "RTP/AVP/UDP", ascii "unicast"] [] (by decide) ?_ (by decide)
      (dmsdpParsePortRange_range hclo hchi)
    rw [clientTransport_split, client_attr]
    rfl
  have hserver : ∀ seg ∈ (clientTransport clo chi).splitOn 59,
      seg.take 12 ≠ ascii "server_port" ++ [61] := by
    rw [clientTransport_split]
    simp only [List.forall_mem_cons, client_take]
    exact ⟨by decide, by decide, by decide, fun _ hs => by cases hs⟩
  rw [dmsdpParseTransport, if_neg (not_not.mpr hfront), hclient]
  simp only
  rw [dmsdpParseTransportAttr_none hserver]
  rfl

/-- **The combined line is read back.** -/
theorem dmsdpParseTransport_combined (hclo : clo.toNat ≤ 65535) (hchi : chi.toNat ≤ 65535)
    (hslo : slo.toNat ≤ 65535) (hshi : shi.toNat ≤ 65535) :
    dmsdpParseTransport (combinedTransport clo chi slo shi) out =
      { out with clientPortLo := clo, clientPortHi := chi
                 serverPortLo := slo, serverPortHi := shi } := by
  have hfront : (combinedTransport clo chi slo shi).take 20 = ascii "RTP/AVP/UDP;unicast;" := by
    rw [combinedTransport, clientTransport, List.append_assoc]
    exact List.take_left' (by decide)
  have hclient : dmsdpParseTransportAttr (combinedTransport clo chi slo shi) (ascii "client_port")
      (fun ports out => { out with clientPortLo := ports.1, clientPortHi := ports.2 }) out =
        some { out with clientPortLo := clo, clientPortHi := chi } := by
    refine dmsdpParseTransportAttr_some (portRange clo chi)
      [ascii "RTP/AVP/UDP", ascii "unicast"] [ascii "server_port=" ++ portRange slo shi]
      (by decide) ?_ (by decide) (dmsdpParsePortRange_range hclo hchi)
    rw [combinedTransport_split, client_attr]
    rfl
  have hserver : dmsdpParseTransportAttr (combinedTransport clo chi slo shi) (ascii "server_port")
      (fun ports out => { out with serverPortLo := ports.1, serverPortHi := ports.2 })
      { out with clientPortLo := clo, clientPortHi := chi } =
        some { out with clientPortLo := clo, clientPortHi := chi
                        serverPortLo := slo, serverPortHi := shi } := by
    refine dmsdpParseTransportAttr_some (portRange slo shi)
      [ascii "RTP/AVP/UDP", ascii "unicast", ascii "client_port=" ++ portRange clo chi]
      [] (by decide) ?_ ?_ (dmsdpParsePortRange_range hslo hshi)
    · rw [combinedTransport_split, server_attr]
      rfl
    · simp only [List.forall_mem_cons, client_take]
      exact ⟨by decide, by decide, by decide, fun _ hs => by cases hs⟩
  rw [dmsdpParseTransport, if_neg (not_not.mpr hfront), hclient]
  simp only
  rw [hserver]
  rfl

end

end HwPhoneLink.Dmsdp
