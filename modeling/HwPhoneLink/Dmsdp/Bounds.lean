import HwPhoneLink.Dmsdp.Memory
import HwPhoneLink.Dmsdp.Results

/-!
# The DMSDP parser stays in bounds

Each function of `Checked`, on a part of the message, has a result, and it is that of its
namesake on the bytes of the part.
-/

namespace HwPhoneLink.Dmsdp.Checked

open BigEndian Path Memory HwPhoneLink.Testfile

variable {mem : Bytes} {off len : ℕ} {out : DmsdpParsed}

/-! ## The C library -/

/-- A buffer that is not full has the NUL of its string. -/
theorem buffer_split {n : ℕ} (hn : 0 < n) : ∀ s : Bytes, ∃ rest : Bytes,
    s ++ List.replicate n 0 = cString s ++ 0 :: rest := by
  intro s
  induction s with
  | nil =>
      obtain ⟨m, rfl⟩ := Nat.exists_eq_succ_of_ne_zero hn.ne'
      exact ⟨List.replicate m 0, List.replicate_succ⟩
  | cons b s ih =>
      by_cases hb : b = 0
      · subst hb
        exact ⟨s ++ List.replicate n 0, rfl⟩
      · obtain ⟨rest, hrest⟩ := ih
        have hcons : cString (b :: s) = b :: cString s :=
          List.takeWhile_cons_of_pos (decide_eq_true hb)
        refine ⟨rest, ?_⟩
        rw [List.cons_append, hrest, hcons]
        rfl

theorem cString_append_nul {text : Bytes} (h : (0 : UInt8) ∉ text) (rest : Bytes) :
    cString (text ++ 0 :: rest) = text := by
  rw [cString, List.takeWhile_append_of_pos]
  · show text ++ [] = text
    exact List.append_nil text
  · intro b hb
    exact decide_eq_true fun hzero => h (hzero ▸ hb)

theorem cStr_split {text : Bytes} (h : (0 : UInt8) ∉ text) (rest : Bytes) :
    cStr (text ++ 0 :: rest) = some text := by
  have hmem : (0 : UInt8) ∈ text ++ 0 :: rest :=
    List.mem_append_right _ List.mem_cons_self
  rw [cStr, if_pos hmem, cString_append_nul h]

/-- A copy of less bytes than the buffer has is a C string. -/
theorem cStr_copy (s : Bytes) {n : ℕ} (hn : 0 < n) :
    cStr (s ++ List.replicate n 0) = some (cString s) := by
  obtain ⟨rest, hrest⟩ := buffer_split hn s
  rw [hrest]
  exact cStr_split (cString_no_nul s) rest

theorem strncmp_eq : ∀ {n off : ℕ} (s : Bytes), off + n ≤ mem.length →
    strncmp mem off n s = some (strncmpEq n (slice mem off n) s) := by
  intro n
  induction n with
  | zero =>
      intro off s _
      rfl
  | succ n ih =>
      intro off s h
      have hlt : off < mem.length := by omega
      rw [strncmp, List.getElem?_eq_getElem hlt, slice_cons hlt, strncmpEq]
      show (if mem[off] ≠ s.headD 0 then some false
        else if mem[off] = 0 then some true else strncmp mem (off + 1) n s.tail) = _
      rw [ih s.tail (by omega)]
      show _ = some (if mem[off] ≠ s.headD 0 then false else if mem[off] = 0 then true
        else strncmpEq n (slice mem (off + 1) n) s.tail)
      split
      · rfl
      split
      · rfl
      · rfl

theorem memcmp_eq {s : Bytes} {n : ℕ} (h : off + n ≤ mem.length) (hs : n ≤ s.length) :
    memcmp mem off s n = some (decide (slice mem off n = s.take n)) := by
  rw [memcmp, load_eq h, load_eq (by omega)]
  rfl

theorem memmem_eq {needle : Bytes} (hneedle : needle ≠ []) : ∀ {len off : ℕ},
    off + len ≤ mem.length →
      memmem mem off len needle = some (Dmsdp.memmem needle (slice mem off len)) := by
  have hpos : 0 < needle.length := List.length_pos_of_ne_nil hneedle
  intro len
  induction len with
  | zero =>
      intro off _
      have hcount : 0 + 1 - needle.length = 0 := by omega
      rw [memmem, hcount, slice_zero, Dmsdp.memmem, if_neg hneedle]
      rfl
  | succ len ih =>
      intro off h
      have hlt : off < mem.length := by omega
      by_cases hfit : needle.length ≤ len + 1
      · have hcount : len + 1 + 1 - needle.length = (len + 1 - needle.length) + 1 := by omega
        have hfront : (slice mem off needle.length = needle) ↔
            needle <+: slice mem off (len + 1) := by
          rw [List.prefix_iff_eq_take, slice_take hfit]
          exact eq_comm
        have hrest : memmem mem (off + 1) len needle =
            some (Dmsdp.memmem needle (slice mem (off + 1) len)) := ih (by omega)
        rw [memmem] at hrest
        rw [memmem, hcount, search, load_eq (by omega), hrest]
        show (if slice mem off needle.length = needle then some (some 0) else _) = _
        rw [slice_cons hlt, Dmsdp.memmem, ← slice_cons hlt]
        by_cases hhere : slice mem off needle.length = needle
        · rw [if_pos hhere, if_pos (hfront.mp hhere)]
        · rw [if_neg hhere, if_neg (mt hfront.mpr hhere)]
          rfl
      · have hcount : len + 1 + 1 - needle.length = 0 := by omega
        rw [memmem, hcount, memmem_short]
        · rfl
        · rw [slice_length h]
          omega

/-! ## Values -/

theorem isSignSlot_nul : isSignSlot 0 = false := by decide

/-- The digits from `a` on, and the number. -/
theorem digits_eq {text rest : Bytes} {a : ℕ} (ha : a ≤ text.length) :
    ((skipWhile (text ++ rest) isDigit a (text.length - a)).bind fun digits =>
        if a + digits < text.length then some (.error (-1)) else some (.ok (atoi text))) =
      some (if (text.drop a).all isDigit then .ok (atoi text) else (.error (-1) : Except ℤ UInt32)) := by
  have hlen : (text.drop a).length = text.length - a := List.length_drop
  have hall := takeWhile_lt_iff isDigit (text.drop a)
  rw [skipWhile_front ha, Option.bind_some]
  by_cases hdigits : (text.drop a).all isDigit = true
  · have hstop : ¬ a + ((text.drop a).takeWhile isDigit).length < text.length := fun hlt => by
      have := hall.mp (by omega)
      rw [hdigits] at this
      cases this
    rw [if_neg hstop, if_pos hdigits]
  · have hstop := hall.mpr (Bool.eq_false_iff.mpr hdigits)
    rw [if_pos (by omega), if_neg hdigits]

theorem dmsdpParseInteger_eq (h : off + len ≤ mem.length) :
    dmsdpParseInteger mem off len = some (Dmsdp.dmsdpParseInteger (slice mem off len)) := by
  rw [dmsdpParseInteger, Dmsdp.dmsdpParseInteger, slice_length h]
  by_cases hlong : len > 16
  · rw [if_pos hlong, if_pos hlong]
  rw [if_neg hlong, if_neg hlong, loadInto_eq (by omega) h]
  obtain ⟨rest, hbuf⟩ := buffer_split (n := 17 - len) (by omega) (slice mem off len)
  have hnul := cString_no_nul (slice mem off len)
  generalize hs : cString (slice mem off len) = text at hbuf hnul
  rw [hbuf]
  show (cStr (text ++ 0 :: rest)).bind _ = _
  rw [cStr_split hnul]
  simp only [Option.bind_some]
  by_cases hempty : text.length < 1
  · rw [if_pos hempty, if_pos hempty]
  rw [if_neg hempty, if_neg hempty]
  have hspaces := skipWhile_front (p := fun b => b = 32) (Nat.zero_le text.length) (0 :: rest)
  rw [Nat.sub_zero, List.drop_zero] at hspaces
  rw [hspaces]
  simp only [Option.bind_eq_bind, Option.bind_some]
  rw [getElem?_takeWhile]
  -- what follows the spaces
  have htext := drop_takeWhile (fun b : UInt8 => b = 32) text
  have hlen := congrArg List.length htext
  rw [List.length_drop] at hlen
  have hsp : (text.takeWhile fun b => b = 32).length ≤ text.length :=
    (List.takeWhile_prefix _).length_le
  generalize text.dropWhile (fun b => b = 32) = after at htext hlen ⊢
  generalize (text.takeWhile fun b => b = 32).length = sp at htext hlen hsp ⊢
  cases after with
  | nil =>
      simp only [List.nil_append, List.head?_cons, Option.bind_some, isSignSlot_nul,
        Bool.false_eq_true, false_and, if_false, List.head?_nil, Option.any_none]
      rw [digits_eq hsp, htext]
  | cons c after =>
      have hafter : text.drop (sp + 1) = after := by
        rw [← List.drop_drop, htext]
        rfl
      rw [List.length_cons] at hlen
      simp only [List.cons_append, List.head?_cons, Option.bind_some, Option.any_some,
        List.tail_cons]
      by_cases hsign : isSignSlot c = true ∧ text.length = 1
      · rw [if_pos hsign]
        exact congrArg some (if_pos hsign).symm
      rw [if_neg hsign]
      refine Eq.trans ?_ (congrArg some (if_neg hsign).symm)
      show _ = some (if (if isSignSlot c = true then after else c :: after).all isDigit = true then
        Except.ok (atoi text) else Except.error (-1))
      by_cases hc : isSignSlot c = true
      · simp only [if_pos hc]
        rw [digits_eq (by omega), hafter]
      · simp only [if_neg hc]
        rw [digits_eq hsp, htext]

theorem dmsdpParsePortRange_eq (h : off + len ≤ mem.length) :
    dmsdpParsePortRange mem off len = some (Dmsdp.dmsdpParsePortRange (slice mem off len)) := by
  rw [dmsdpParsePortRange, Dmsdp.dmsdpParsePortRange, slice_length h]
  by_cases hlong : len ≥ 32
  · rw [if_pos hlong, if_pos hlong]
  rw [if_neg hlong, if_neg hlong, loadInto_eq (by omega) h]
  show (cStr (slice mem off len ++ List.replicate (32 - len) 0)).bind _ = _
  rw [cStr_copy _ (by omega), Option.bind_some, scanPair]
  cases scanInt (cString (slice mem off len)) with
  | none => rfl
  | some first =>
      obtain ⟨a, rest⟩ := first
      simp only
      by_cases hminus : rest.head? = some 45
      · rw [if_pos hminus, if_pos hminus]
        cases scanInt rest.tail with
        | none => rfl
        | some second => rfl
      · rw [if_neg hminus, if_neg hminus]
        rfl

/-- Against a literal of its own length, `strncmp` is equality. -/
theorem strncmpEq_literal {n : ℕ} : ∀ {a s : Bytes}, a.length = n → s.length = n →
    (0 : UInt8) ∉ s → strncmpEq n a s = decide (a = s) := by
  induction n with
  | zero =>
      intro a s ha hs _
      rw [List.eq_nil_of_length_eq_zero ha, List.eq_nil_of_length_eq_zero hs]
      rfl
  | succ n ih =>
      intro a s ha hs hnul
      obtain ⟨b, a, rfl⟩ := List.exists_cons_of_length_eq_add_one ha
      obtain ⟨c, s, rfl⟩ := List.exists_cons_of_length_eq_add_one hs
      have hc : c ≠ 0 := fun h => hnul (h ▸ List.mem_cons_self)
      have hrest := ih (Nat.succ.inj ha) (Nat.succ.inj hs) fun h => hnul (List.mem_cons_of_mem _ h)
      show (if b ≠ c then false else if b = 0 then true else strncmpEq n a s) = _
      by_cases hbc : b = c
      · subst hbc
        rw [if_neg (not_not.mpr rfl), if_neg hc, hrest]
        exact decide_eq_decide.mpr ⟨fun h => h ▸ rfl, fun h => (List.cons.inj h).2⟩
      · rw [if_pos hbc]
        exact (decide_eq_false fun h => hbc (List.cons.inj h).1).symm

theorem attrMatches_eq {name : Bytes} {p segLen : ℕ} (hname : name.length = 11)
    (hnul : (0 : UInt8) ∉ name) (h : p + segLen ≤ mem.length) :
    attrMatches mem name p segLen =
      some (decide ((slice mem p segLen).take 12 = name ++ [61])) := by
  rw [attrMatches]
  by_cases hlong : segLen ≥ 12
  · have hlt : p + 11 < mem.length := by omega
    have hcmp : strncmp mem p 11 name = some (decide (slice mem p 11 = name)) := by
      rw [strncmp_eq name (by omega), strncmpEq_literal (slice_length (by omega)) hname hnul]
    rw [if_pos hlong, List.getElem?_eq_getElem hlt, hcmp, slice_take hlong, slice_concat hlt]
    show (if mem[p + 11] = 61 then _ else _) = _
    by_cases hc : mem[p + 11] = 61
    · rw [if_pos hc, hc]
      exact congrArg some (decide_eq_decide.mpr (List.append_left_inj [61]).symm)
    · rw [if_neg hc]
      refine congrArg some (decide_eq_false fun heq => hc ?_).symm
      exact List.singleton_inj.mp (List.append_inj' heq rfl).2
  · rw [if_neg hlong]
    refine congrArg some (decide_eq_false fun heq => hlong ?_).symm
    have hlen := congrArg List.length heq
    rw [List.length_take, slice_length h, List.length_append, hname, List.length_singleton] at hlen
    omega

/-- The segments of a value, one by one. -/
theorem splitOn_segment (val : Bytes) :
    val.splitOn 59 = val.takeWhile (· ≠ 59) ::
      if (val.takeWhile (· ≠ 59)).length < val.length then
        (val.drop ((val.takeWhile (· ≠ 59)).length + 1)).splitOn 59
      else [] := by
  have hseg : (59 : UInt8) ∉ val.takeWhile (· ≠ 59) := fun hmem => by
    simpa using List.mem_takeWhile_imp hmem
  have hsplit := List.takeWhile_append_dropWhile (p := fun b : UInt8 => decide (b ≠ 59)) (l := val)
  have hdrop := drop_takeWhile (fun b : UInt8 => decide (b ≠ 59)) val
  rw [← List.drop_drop, hdrop]
  generalize val.takeWhile (fun b : UInt8 => decide (b ≠ 59)) = seg at *
  cases hrest : val.dropWhile (fun b : UInt8 => decide (b ≠ 59)) with
  | nil =>
      rw [hrest, List.append_nil] at hsplit
      subst hsplit
      rw [if_neg (lt_irrefl _), List.splitOn_eq_singleton hseg]
  | cons c rest =>
      have hc : c = 59 := by
        have hhead := List.head?_dropWhile_not (fun b : UInt8 => decide (b ≠ 59)) val
        rw [hrest] at hhead
        simpa using hhead
      rw [hrest, hc] at hsplit
      have hlt : seg.length < val.length := by
        rw [← hsplit, List.length_append, List.length_cons]
        omega
      rw [if_pos hlt, ← hsplit, List.splitOn_append_cons_self_of_not_mem hseg]
      rfl

theorem dmsdpParseTransportAttr_eq {name : Bytes}
    {set : UInt32 × UInt32 → DmsdpParsed → DmsdpParsed} (hname : name.length = 11)
    (hnul : (0 : UInt8) ∉ name) : ∀ {rem p : ℕ}, p + rem ≤ mem.length →
      dmsdpParseTransportAttr mem name set out p rem =
        some (Dmsdp.dmsdpParseTransportAttr (slice mem p rem) name set out) := by
  intro rem
  induction rem using Nat.strong_induction_on with
  | _ rem ih =>
      intro p h
      have hlen := slice_length h
      have hseg := takeWhile_slice (fun b : UInt8 => decide (b ≠ 59)) mem p rem
      have hle := takeWhile_slice_le (fun b : UInt8 => decide (b ≠ 59)) mem p rem
      rw [dmsdpParseTransportAttr]
      by_cases hrem : rem = 0
      · subst hrem
        rw [if_pos rfl, slice_zero, Dmsdp.dmsdpParseTransportAttr, List.splitOn_nil,
          List.find?_cons_of_neg]
        · rfl
        · exact fun hnil => by cases name <;> cases of_decide_eq_true hnil
      rw [if_neg hrem, skipWhile_eq h, Dmsdp.dmsdpParseTransportAttr, splitOn_segment]
      simp only [Option.bind_eq_bind, Option.bind_some]
      rw [hlen]
      generalize ((slice mem p rem).takeWhile fun b : UInt8 => decide (b ≠ 59)).length = segLen at *
      rw [hseg, attrMatches_eq hname hnul (by omega), Option.bind_some, slice_drop]
      by_cases hmatch : (slice mem p segLen).take 12 = name ++ [61]
      · rw [if_pos (decide_eq_true hmatch), List.find?_cons_of_pos (by exact decide_eq_true hmatch)]
        have hlong : 12 ≤ segLen := by
          have := congrArg List.length hmatch
          rw [List.length_take, slice_length (by omega), List.length_append, hname,
            List.length_singleton] at this
          omega
        rw [dmsdpParsePortRange_eq (by omega), ← slice_drop]
        rfl
      · have hmatch' := decide_eq_false hmatch
        rw [if_neg (Bool.eq_false_iff.mp hmatch'),
          List.find?_cons_of_neg (by exact Bool.eq_false_iff.mp hmatch')]
        by_cases hmore : segLen < rem
        · rw [if_pos hmore, if_pos hmore, ih _ (by omega) (by omega)]
          rfl
        · rw [if_neg hmore, if_neg hmore]
          rfl

theorem dmsdpParseTransport_eq (h : off + len ≤ mem.length) :
    dmsdpParseTransport mem off len out =
      some (Dmsdp.dmsdpParseTransport (slice mem off len) out) := by
  have hlen := slice_length h
  have hmatched : (if len < 20 then some false else
      strncmp mem off 20 (ascii "RTP/AVP/UDP;unicast;")) =
        some (decide ((slice mem off len).take 20 = ascii "RTP/AVP/UDP;unicast;")) := by
    by_cases hshort : len < 20
    · rw [if_pos hshort]
      refine congrArg some (decide_eq_false fun heq => ?_).symm
      have := congrArg List.length heq
      rw [List.length_take, hlen] at this
      have hlit : (ascii "RTP/AVP/UDP;unicast;").length = 20 := by decide
      omega
    · rw [if_neg hshort, strncmp_eq _ (by omega),
        strncmpEq_literal (slice_length (by omega)) (by decide) (by decide),
        slice_take (by omega)]
  rw [dmsdpParseTransport, hmatched, Dmsdp.dmsdpParseTransport]
  simp only [Option.bind_eq_bind, Option.bind_some, decide_eq_false_iff_not]
  by_cases hunicast : (slice mem off len).take 20 = ascii "RTP/AVP/UDP;unicast;"
  · rw [if_neg (not_not.mpr hunicast), if_neg (not_not.mpr hunicast),
      dmsdpParseTransportAttr_eq (by decide) (by decide) h, Option.bind_some]
    split
    · rename_i hclient
      simp only [hclient]
    · rename_i hclient
      rw [dmsdpParseTransportAttr_eq (by decide) (by decide) h]
      simp only [hclient, Option.bind_some]
  · rw [if_pos hunicast, if_pos hunicast]

theorem isGpsSkip_eq : isGpsSkip =
    fun b => decide (b = 32 ∨ b = 9 ∨ b = 10 ∨ b = 13 ∨ b = 61) := by
  funext b
  apply Bool.eq_iff_iff.mpr
  rw [isGpsSkip]
  simp only [Bool.and_eq_true, Bool.or_eq_true, decide_eq_true_eq]
  constructor
  · rintro ⟨-, h⟩
    tauto
  · intro h
    refine ⟨?_, by tauto⟩
    rcases h with rfl | rfl | rfl | rfl | rfl <;> decide

theorem dmsdpParseGps_eq (h : off + len ≤ mem.length) :
    dmsdpParseGps mem off len out = some (Dmsdp.dmsdpParseGps (slice mem off len) out) := by
  rw [dmsdpParseGps, Dmsdp.dmsdpParseGps, memmem_eq (by decide) h]
  simp only [Option.bind_eq_bind, Option.bind_some]
  cases hfound : Dmsdp.memmem (ascii "ServerUdpPort") (slice mem off len) with
  | none => rfl
  | some pos =>
      have hpos : pos + 13 ≤ len := by
        have := memmem_le hfound
        rwa [slice_length h] at this
      simp only
      -- past the name
      have hrest : off + len - (off + (pos + 13)) = len - (pos + 13) := by omega
      rw [slice_drop, hrest, skipWhile_eq (by omega), Option.bind_some, ← isGpsSkip_eq]
      have hskip := takeWhile_slice_le isGpsSkip mem (off + (pos + 13)) (len - (pos + 13))
      rw [← drop_takeWhile, slice_drop]
      generalize ((slice mem (off + (pos + 13)) (len - (pos + 13))).takeWhile isGpsSkip).length =
        skipped at hskip ⊢
      -- past the spaces
      have hrest' : off + len - (off + (pos + 13) + skipped) = len - (pos + 13) - skipped := by omega
      rw [hrest', skipWhile_eq (by omega), Option.bind_some, takeWhile_slice]
      have hseg := takeWhile_slice_le (fun b : UInt8 => decide (b ≠ 59)) mem
        (off + (pos + 13) + skipped) (len - (pos + 13) - skipped)
      generalize ((slice mem (off + (pos + 13) + skipped) (len - (pos + 13) - skipped)).takeWhile
        fun b : UInt8 => decide (b ≠ 59)).length = seg at hseg ⊢
      rw [slice_length (by omega)]
      by_cases hlong : seg ≥ 20
      · rw [if_pos hlong, if_pos hlong]
      rw [if_neg hlong, if_neg hlong, loadInto_eq (by omega) (by omega), Option.bind_some,
        cStr_copy _ (by omega), Option.bind_some]
      split
      · rfl
      · rfl

theorem dmsdpAnalyzeString_eq (idx : DmsdpName) (h : off + len ≤ mem.length) :
    dmsdpAnalyzeString mem idx off len out =
      some (Dmsdp.dmsdpAnalyzeString idx (slice mem off len) out) := by
  unfold dmsdpAnalyzeString
  rw [load_eq h, dmsdpParseGps_eq h, dmsdpParseTransport_eq h]
  cases idx <;> rfl

theorem dmsdpInteger_eq (h : off + len ≤ mem.length) (set : UInt32 → DmsdpParsed) :
    dmsdpInteger mem off len set = some (Dmsdp.dmsdpInteger (slice mem off len) set) := by
  rw [dmsdpInteger, dmsdpParseInteger_eq h]
  rfl

theorem dmsdpAnalyzeInteger_eq (idx : DmsdpName) (h : off + len ≤ mem.length) :
    dmsdpAnalyzeInteger mem idx off len out =
      some (Dmsdp.dmsdpAnalyzeInteger idx (slice mem off len) out) := by
  cases idx
  all_goals first
    | exact dmsdpInteger_eq h _
    | rfl

theorem dmsdpAnalyzeValue_eq (idx : DmsdpName) (h : off + len ≤ mem.length) :
    dmsdpAnalyzeValue mem idx off len out =
      some (Dmsdp.dmsdpAnalyzeValue idx (slice mem off len) out) := by
  rw [dmsdpAnalyzeValue, Dmsdp.dmsdpAnalyzeValue]
  split
  · have hle := takeWhile_slice_le (fun b : UInt8 => decide (b = 32)) mem off len
    rw [skipWhile_eq h, ← drop_takeWhile, slice_drop]
    exact dmsdpAnalyzeString_eq idx (by omega)
  · exact dmsdpAnalyzeInteger_eq idx h

/-! ## Lines -/

theorem findName_eq (h : off + len ≤ mem.length) : ∀ names : List (DmsdpName × Bytes),
    findName mem off len names =
      some ((names.find? fun p => strncmpEq len (slice mem off len) p.2).map Prod.fst) := by
  intro names
  induction names with
  | nil => rfl
  | cons p names ih =>
      rw [findName, strncmp_eq p.2 h, ih]
      show (if strncmpEq len (slice mem off len) p.2 = true then _ else _) = _
      by_cases hp : strncmpEq len (slice mem off len) p.2 = true
      · rw [if_pos hp, List.find?_cons_of_pos (by exact hp)]
        rfl
      · rw [if_neg hp, List.find?_cons_of_neg (by exact hp)]

theorem dmsdpGetKeyword_eq (h : off + len ≤ mem.length) :
    dmsdpGetKeyword mem off len = some (Dmsdp.dmsdpGetKeyword (slice mem off len)) := by
  have hle := takeWhile_slice_le (fun b : UInt8 => decide (b = 32)) mem off len
  rw [dmsdpGetKeyword, Dmsdp.dmsdpGetKeyword, skipWhile_eq h, ← drop_takeWhile, slice_drop]
  simp only [Option.bind_eq_bind, Option.bind_some]
  generalize ((slice mem off len).takeWhile fun b : UInt8 => decide (b = 32)).length = s at hle ⊢
  have hback := rdropWhile_slice_le (fun b : UInt8 => decide (b = 32)) mem (off + s) (len - s)
  rw [skipBack_eq (by omega), Option.bind_some, rdropWhile_slice]
  generalize ((slice mem (off + s) (len - s)).rdropWhile
    fun b : UInt8 => decide (b = 32)).length = tl at hback ⊢
  rw [slice_length (by omega)]
  by_cases htl : tl = 0
  · rw [if_pos htl, if_pos htl]
  · rw [if_neg htl, if_neg htl, findName_eq (by omega)]

theorem dmsdpAnalyzeLine_eq (h : off + len ≤ mem.length) :
    dmsdpAnalyzeLine mem off len out =
      some (Dmsdp.dmsdpAnalyzeLine (slice mem off len) out) := by
  have hkey := takeWhile_slice (fun b : UInt8 => decide (b ≠ 58)) mem off len
  have hle := takeWhile_slice_le (fun b : UInt8 => decide (b ≠ 58)) mem off len
  rw [dmsdpAnalyzeLine, Dmsdp.dmsdpAnalyzeLine, skipWhile_eq h, headerValue, headerKey, slice_length h,
    slice_drop]
  simp only [Option.bind_eq_bind, Option.bind_some]
  generalize ((slice mem off len).takeWhile fun b : UInt8 => decide (b ≠ 58)).length =
    keylen at hkey hle ⊢
  by_cases hnone : keylen = len
  · rw [if_pos hnone, if_pos hnone]
  rw [if_neg hnone, if_neg hnone]
  by_cases hbad : keylen = 0 ∨ len ≤ 1 ∨ keylen ≥ len - 1
  · rw [if_pos hbad, if_pos hbad]
  rw [if_neg hbad, if_neg hbad, hkey, dmsdpGetKeyword_eq (by omega), Option.bind_some]
  cases Dmsdp.dmsdpGetKeyword (slice mem off keylen) with
  | none => rfl
  | some idx =>
      simp only
      rw [dmsdpAnalyzeValue_eq idx (by omega), Option.bind_some]
      split
      · rename_i hvalue
        simp only [hvalue]
      · rename_i rc hvalue
        by_cases hrc : rc = -10
        · simp only [hvalue, if_pos hrc]
        · simp only [hvalue, if_neg hrc]

/-! ## The text -/

/-- The literal is `len` bytes of the memory and the last `cut` bytes of its own. -/
theorem findLiteral_eq {cut : ℕ} {tail : Bytes} (htail : tail.length = cut)
    (h : off + len ≤ mem.length) : ∀ {literals : List Bytes},
    (∀ s ∈ literals, s.drop (s.length - cut) = tail) →
      findLiteral mem off len cut literals =
        some (literals.findIdx? fun s => slice mem off len ++ tail = s) := by
  intro literals
  induction literals with
  | nil => intro _; rfl
  | cons s rest ih =>
      intro hall
      have hs := hall s List.mem_cons_self
      have hslen := congrArg List.length hs
      rw [List.length_drop, htail] at hslen
      have hsplit := List.take_append_drop (s.length - cut) s
      rw [hs] at hsplit
      rw [findLiteral, ih fun s hs => hall s (List.mem_cons_of_mem _ hs), List.findIdx?_cons]
      have hmatched : (if len = s.length - cut then memcmp mem off s len else some false) =
          some (decide (slice mem off len ++ tail = s)) := by
        by_cases hlen : len = s.length - cut
        · rw [if_pos hlen, memcmp_eq h (by omega)]
          conv_rhs => rw [← hsplit, ← hlen]
          exact congrArg some (decide_eq_decide.mpr (List.append_left_inj tail).symm)
        · rw [if_neg hlen]
          refine congrArg some (decide_eq_false fun heq => hlen ?_).symm
          have := congrArg List.length heq
          rw [List.length_append, slice_length h, htail] at this
          omega
      rw [hmatched]
      show (if decide (slice mem off len ++ tail = s) = true then _ else _) = _
      by_cases hhere : decide (slice mem off len ++ tail = s) = true
      · rw [if_pos hhere, if_pos hhere]
      · rw [if_neg hhere, if_neg hhere]
        rfl

theorem dmsdpStartLine_eq {line1 : ℕ} (h : line1 ≤ mem.length) :
    dmsdpStartLine mem line1 = some (Dmsdp.dmsdpStartLine (slice mem 0 line1)) := by
  have h' : 0 + line1 ≤ mem.length := by rwa [Nat.zero_add]
  have hmethod : findLiteral mem 0 line1 2 dmsdpMethodLines =
      some (dmsdpMethodLines.findIdx? fun method => slice mem 0 line1 ++ crlf = method) :=
    findLiteral_eq (show crlf.length = 2 from rfl) h' (by decide)
  have hresponse : (if line1 < 10 then some false else memcmp mem 0 (ascii "DMSDP/1.0 ") 10) =
      some (decide (10 ≤ line1 ∧ (slice mem 0 line1).take 10 = ascii "DMSDP/1.0 ")) := by
    by_cases hshort : line1 < 10
    · rw [if_pos hshort]
      exact congrArg some (decide_eq_false fun hlong => absurd hlong.1 (by omega)).symm
    · rw [if_neg hshort, memcmp_eq (by omega) (by decide), slice_take (by omega)]
      exact congrArg some (decide_eq_decide.mpr
        ⟨fun heq => ⟨by omega, heq⟩, fun hlong => hlong.2⟩)
  rw [dmsdpStartLine, Dmsdp.dmsdpStartLine, hmethod, slice_length h']
  simp only [Option.bind_eq_bind, Option.bind_some]
  split
  · rename_i i hfound
    rw [hfound]
  rename_i hfound
  rw [hfound, hresponse]
  simp only [Option.bind_some, decide_eq_false_iff_not, not_and_or, not_le, or_assoc]
  by_cases hbad : line1 < 10 ∨ (slice mem 0 line1).take 10 ≠ ascii "DMSDP/1.0 " ∨ line1 - 10 > 12
  · rw [if_pos hbad, if_pos hbad]
  rw [if_neg hbad, if_neg hbad, ← drop_takeWhile, slice_drop, slice_drop, Nat.zero_add,
    skipWhile_eq (by omega)]
  have hseg := takeWhile_slice isDigit mem 10 (line1 - 10)
  have hle := takeWhile_slice_le isDigit mem 10 (line1 - 10)
  generalize ((slice mem 10 (line1 - 10)).takeWhile isDigit).length = digits at hseg hle ⊢
  simp only [Option.bind_some, hseg]
  by_cases hstop : 10 + digits = 10 ∨ 10 + digits = line1
  · have hnone : slice mem 10 digits = [] ∨
        (slice mem (10 + digits) (line1 - 10 - digits)).head? ≠ some 32 := by
      rcases hstop with hzero | hend
      · left
        rw [show digits = 0 by omega, slice_zero]
      · right
        rw [show line1 - 10 - digits = 0 by omega, slice_zero]
        exact fun hnil => by cases hnil
    rw [if_pos hstop, if_pos hnone]
  rw [if_neg hstop]
  have hlt : 10 + digits < mem.length := by omega
  have hdigits : slice mem 10 digits ≠ [] := by
    apply List.ne_nil_of_length_pos
    rw [slice_length (by omega)]
    omega
  have hhead : (slice mem (10 + digits) (line1 - 10 - digits)).head? = some mem[10 + digits] := by
    rw [show line1 - 10 - digits = line1 - 10 - digits - 1 + 1 by omega, slice_cons hlt]
    rfl
  rw [List.getElem?_eq_getElem hlt, Option.bind_some, hhead, Nat.add_sub_cancel_left]
  by_cases hspace : mem[10 + digits] = 32
  · rw [if_neg (not_not.mpr hspace), if_neg, dmsdpParseInteger_eq (by omega), Option.bind_some]
    · split
      · rename_i hstatus
        simp only [hstatus]
      · rename_i hstatus
        simp only [hstatus]
    · rintro (hnil | hne)
      · exact hdigits hnil
      · exact hne (congrArg some hspace)
  · rw [if_pos hspace, if_pos (Or.inr fun heq => hspace (Option.some.inj heq))]

theorem dmsdpBody_eq {start : ℕ} (hstart : start ≤ mem.length) (hmem : 0 < mem.length) :
    dmsdpBody mem start out = some (Dmsdp.dmsdpBody mem.length (mem.drop start) out) := by
  have htrigger : findLiteral mem start (mem.length - start) 0 dmsdpTriggerBodies =
      some (dmsdpTriggerBodies.findIdx? fun trigger => mem.drop start = trigger) := by
    rw [findLiteral_eq (show ([] : Bytes).length = 0 from rfl) (by omega) (by decide), slice_end]
    simp only [List.append_nil]
  have hwhole : start = 0 ↔ mem.length - start = mem.length := by
    constructor
    · rintro rfl
      rfl
    · intro heq
      by_contra hpos
      exact absurd heq (Nat.sub_lt hmem (Nat.pos_of_ne_zero hpos)).ne
  rw [dmsdpBody, Dmsdp.dmsdpBody, List.length_drop]
  simp only [Option.bind_eq_bind, hwhole]
  rw [htrigger, Option.bind_some]
  split
  · split
    · rfl
    split
    · rename_i hnone
      rw [hnone]
    · rename_i hfound
      rw [hfound]
  split
  · rfl
  · rfl

/-- The header lines: enough fuel is one round for every two bytes, and there is more. -/
theorem dmsdpHeaders_eq : ∀ {fuel : ℕ} (pos : ℕ) (out : DmsdpParsed), mem.length - pos ≤ fuel →
    pos ≤ mem.length → ∃ r, dmsdpHeaders mem pos out = some r ∧
      Dmsdp.dmsdpHeaders fuel (mem.drop pos) out = r.map (fun p => (p.1, mem.drop p.2)) ∧
      ∀ p, r = .ok p → pos ≤ p.2 ∧ p.2 ≤ mem.length := by
  intro fuel
  induction fuel with
  | zero =>
      intro pos out hfuel hpos
      refine ⟨.ok (out, pos), ?_, rfl, ?_⟩
      · rw [dmsdpHeaders, if_neg (by omega)]
      · rintro p ⟨⟩
        exact ⟨le_refl _, hpos⟩
  | succ fuel ih =>
      intro pos out hfuel hpos
      rw [dmsdpHeaders, Dmsdp.dmsdpHeaders]
      by_cases hend : mem.drop pos = []
      · have hlen := List.drop_eq_nil_iff.mp hend
        refine ⟨.ok (out, pos), if_neg (by omega), ?_, ?_⟩
        · rw [if_pos hend]
          exact congrArg (fun rest => Except.ok (out, rest)) hend.symm
        · rintro p ⟨⟩
          exact ⟨le_refl _, hpos⟩
      have hlt : pos < mem.length := not_le.mp (mt List.drop_eq_nil_iff.mpr hend)
      rw [if_pos hlt, if_neg hend, memmem_eq (by decide) (by omega), slice_end]
      simp only [Option.bind_eq_bind, Option.bind_some]
      cases hfound : Dmsdp.memmem crlf (mem.drop pos) with
      | some ll =>
          have hll := memmem_le hfound
          rw [List.length_drop, show crlf.length = 2 from rfl] at hll
          simp only
          by_cases hblank : ll = 0
          · refine ⟨.ok (out, pos + 2), if_pos hblank, ?_, ?_⟩
            · rw [if_pos hblank, List.drop_drop]
              rfl
            · rintro p ⟨⟩
              exact ⟨Nat.le_add_right _ _, by omega⟩
          rw [if_neg hblank, if_neg hblank, dmsdpAnalyzeLine_eq (by omega), Option.bind_some, slice]
          cases Dmsdp.dmsdpAnalyzeLine ((mem.drop pos).take ll) out with
          | error rc => exact ⟨.error rc, rfl, rfl, fun p hp => by cases hp⟩
          | ok out =>
              obtain ⟨r, hr, hlist, hbounds⟩ :=
                ih (pos + (ll + 2)) out (by omega) (by omega)
              refine ⟨r, hr, ?_, fun p hp => ?_⟩
              · simp only
                rw [List.drop_drop, hlist]
              · obtain ⟨hle, hle'⟩ := hbounds p hp
                exact ⟨by omega, hle'⟩
      | none =>
          simp only [List.length_drop]
          by_cases hshort : mem.length - pos < 2
          · exact ⟨.error (-2), if_pos hshort, if_pos hshort, fun p hp => by cases hp⟩
          rw [if_neg hshort, if_neg hshort, dmsdpAnalyzeLine_eq (by omega), Option.bind_some, slice_end]
          cases Dmsdp.dmsdpAnalyzeLine (mem.drop pos) out with
          | error rc => exact ⟨.error rc, rfl, rfl, fun p hp => by cases hp⟩
          | ok out =>
              refine ⟨.ok (out, mem.length), rfl, ?_, ?_⟩
              · exact congrArg (fun rest => Except.ok (out, rest)) (List.drop_length).symm
              · rintro p ⟨⟩
                exact ⟨hpos, le_refl _⟩

/-- **The parser never leaves the message or a buffer**: it has a result, that of the text. -/
theorem dmsdpParse_eq (mem : Bytes) : dmsdpParse mem = some (Dmsdp.dmsdpParse mem) := by
  rw [dmsdpParse, Dmsdp.dmsdpParse]
  by_cases hempty : mem.length = 0
  · rw [if_pos hempty, if_pos hempty]
  rw [if_neg hempty, if_neg hempty, memmem_eq (by decide) (by omega), slice_all]
  simp only [Option.bind_eq_bind, Option.bind_some]
  cases hfound : Dmsdp.memmem crlf mem with
  | none => rfl
  | some line1 =>
      have hline1 := memmem_le hfound
      rw [show crlf.length = 2 from rfl] at hline1
      simp only
      rw [dmsdpStartLine_eq (by omega), Option.bind_some, slice, List.drop_zero]
      cases Dmsdp.dmsdpStartLine (mem.take line1) with
      | none => rfl
      | some out =>
          obtain ⟨r, hr, hlist, hbounds⟩ :=
            dmsdpHeaders_eq (line1 + 2) out (Nat.sub_le mem.length _) hline1
          simp only
          rw [hr, hlist, Option.bind_some]
          cases r with
          | error rc => rfl
          | ok p => exact dmsdpBody_eq (hbounds p rfl).2 (Nat.pos_of_ne_zero hempty)

/-- **The parser on any bytes**: it ends in bounds, with a message or one of its codes, and an
announced body is a trigger string. -/
theorem dmsdpParse_in_bounds (buf : Bytes) :
    ∃ r, dmsdpParse buf = some r ∧
      (∀ rc, r = .error rc → rc ∈ [-1, -2, -5, -9]) ∧
      ∀ p, r = .ok p → p.contentLength > 0 →
        ∃ body, messageBody buf = some body ∧ body.length = p.contentLength.toNat ∧
          ∃ i, dmsdpTriggerBodies[i]? = some body ∧ p.triggerIdx.toNat = i + 1 := by
  refine ⟨_, dmsdpParse_eq buf, ?_, ?_⟩
  · intro rc h
    exact dmsdpParse_error h
  · intro p h hlen
    exact dmsdpParse_trigger h hlen

end HwPhoneLink.Dmsdp.Checked
