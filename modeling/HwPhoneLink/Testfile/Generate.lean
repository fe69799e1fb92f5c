import HwPhoneLink.Lib.Path
import HwPhoneLink.Testfile.Names
import HwPhoneLink.Testfile.Scan

/-!
# The H.264 generator

`h264_testfile_generate` fills an array with units up to a budget and writes it out. The
payload is a function of a running index, `h264_byte` in the source. What the generator
makes is what `h264_testfile_verify` looks for.
-/

namespace HwPhoneLink.Testfile

open BigEndian AnnexB Sha256

def h264Byte (seed i : UInt64) : UInt8 :=
  let z := seed + i
  let z := (z ^^^ (z >>> 30)) * 0xbf58476d1ce4e5b9
  let z := (z ^^^ (z >>> 27)) * 0x94d049bb133111eb
  let z := z ^^^ (z >>> 31)
  z.toUInt8

def h264SpsPayload : ℕ := 17
def h264PpsPayload : ℕ := 4
def h264SlicePayload : ℕ := 4096

def h264NalSps : UInt8 := 0x67
def h264NalPps : UInt8 := 0x68
def h264NalIdr : UInt8 := 0x65
def h264NalNonidr : UInt8 := 0x41

/-- `g_byte_array_append`. The length has 32 bits, and GLib aborts at an overflow. -/
def gByteArrayAppend (a bs : Bytes) : Option Bytes :=
  if a.length + bs.length < 2 ^ 32 then some (a ++ bs) else none

/-- The loop of `append_nal` from `i` on, with `n` bytes to go. -/
def appendContent (byte : UInt64 → UInt8) (contentI : UInt64) :
    ℕ → ℕ → Bytes → Option Bytes
  | 0, _, a => some a
  | n + 1, i, a => do
      let b := byte (contentI + UInt64.ofNat i)
      let a ← (
        if a.length ≥ 2 ∧ a[a.length - 2]? = some 0 ∧ a[a.length - 1]? = some 0 ∧ b ≤ 3 then
          gByteArrayAppend a [3]
        else some a)
      let a ← gByteArrayAppend a [b]
      appendContent byte contentI n (i + 1) a

/-- The array, and the counter behind the bytes of the unit. -/
def appendNal (byte : UInt64 → UInt8) (nalHdr : UInt8) (rawLen : ℕ) (s : Bytes × UInt64) :
    Option (Bytes × UInt64) := do
  let a ← gByteArrayAppend s.1 startCode
  let a ← gByteArrayAppend a [nalHdr]
  let a ← appendContent byte s.2 rawLen 0 a
  some (a, s.2 + UInt64.ofNat rawLen)

theorem gByteArrayAppend_length {a bs a' : Bytes} (h : gByteArrayAppend a bs = some a') :
    a'.length = a.length + bs.length := by
  unfold gByteArrayAppend at h
  split at h
  · cases h
    rw [List.length_append]
  · cases h

theorem appendContent_length (byte : UInt64 → UInt8) (contentI : UInt64) (n : ℕ) :
    ∀ {i : ℕ} {a a' : Bytes}, appendContent byte contentI n i a = some a' →
      a.length ≤ a'.length := by
  induction n with
  | zero =>
      intro i a a' h
      cases h
      exact Nat.le_refl _
  | succ n ih =>
      intro i a a' h
      rw [appendContent] at h
      obtain ⟨a₁, h₁, h⟩ := Option.bind_eq_some_iff.mp h
      obtain ⟨a₂, h₂, h⟩ := Option.bind_eq_some_iff.mp h
      have hlen₁ : a.length ≤ a₁.length := by
        split at h₁
        · rw [gByteArrayAppend_length h₁]
          exact Nat.le_add_right _ _
        · cases h₁
          exact Nat.le_refl _
      have hlen₂ := gByteArrayAppend_length h₂
      have hlen := ih h
      omega

/-- A unit is never empty, which ends the loop of the generator. -/
theorem appendNal_length {byte : UInt64 → UInt8} {nalHdr : UInt8} {rawLen : ℕ}
    {s s' : Bytes × UInt64} (h : appendNal byte nalHdr rawLen s = some s') :
    s.1.length < s'.1.length := by
  obtain ⟨a₁, h₁, h⟩ := Option.bind_eq_some_iff.mp h
  obtain ⟨a₂, h₂, h⟩ := Option.bind_eq_some_iff.mp h
  obtain ⟨a₃, h₃, h⟩ := Option.bind_eq_some_iff.mp h
  cases h
  have hlen₁ := gByteArrayAppend_length h₁
  have hlen₂ := gByteArrayAppend_length h₂
  have hlen₃ := appendContent_length byte s.2 rawLen h₃
  rw [List.length_singleton] at hlen₂
  show s.1.length < a₃.length
  omega

/-- The units behind the IDR, as long as they fit. -/
def h264Slices (byte : UInt64 → UInt8) (size : ℕ) (s : Bytes × UInt64) : Option Bytes :=
  match _hnal : appendNal byte h264NalNonidr h264SlicePayload s with
  | none => none
  | some s' =>
      if _hfull : s'.1.length > size then some (s'.1.take s.1.length)
      else h264Slices byte size s'
termination_by size - s.1.length
decreasing_by
  have hlt := appendNal_length _hnal
  exact Nat.sub_lt_sub_left (Nat.lt_of_lt_of_le hlt (Nat.le_of_not_gt _hfull)) hlt

/-- The array that is written; `none` if GLib aborts. -/
def h264Stream (byte : UInt64 → UInt8) (size : ℕ) : Option Bytes := do
  let s ← appendNal byte h264NalSps h264SpsPayload ([], 0)
  let s ← appendNal byte h264NalPps h264PpsPayload s
  let s ← appendNal byte h264NalIdr h264SlicePayload s
  h264Slices byte size s

/-- What the file calls return: whether `open` succeeds, and how many bytes `pwrite` writes of
a length. -/
structure H264Io where
  openOk : Bool
  pwrite : ℕ → ℕ

/-- The outputs, and what is in the file. -/
structure H264File where
  path : Bytes
  wireName : Bytes
  content : Bytes

/-- `byte` is the payload function. An abort is `none`, FALSE is `some none`. -/
def h264TestfileGenerateWith (sha256Hex : Bytes → Bytes) (byte : UInt64 → UInt8) (io : H264Io)
    (dir : Option Bytes) (size : UInt64) : Option (Option H264File) :=
  match dir with
  | none => some none
  | some dir =>
      if size < 8192 then some none
      else
        (h264Stream byte size.toNat).map fun a =>
          if !io.openOk then none
          else if io.pwrite a.length ≠ a.length then none
          else
            some
              { path := Path.join dir (ascii "hsgen.h264")
                wireName := ascii "hs-" ++ (sha256Hex a ++ ascii ".h264")
                content := a }

def h264TestfileGenerate (sha256Hex : Bytes → Bytes) (io : H264Io) (dir : Option Bytes)
    (seed size : UInt64) : Option (Option H264File) :=
  h264TestfileGenerateWith sha256Hex (h264Byte seed) io dir size

/-! ## One unit -/

section
variable (byte : UInt64 → UInt8)

/-- The payload bytes `i` to `i + n` behind a counter. -/
def content (contentI : UInt64) (i n : ℕ) : Bytes :=
  (List.range' i n).map fun k => byte (contentI + UInt64.ofNat k)

theorem content_length (contentI : UInt64) (i n : ℕ) : (content byte contentI i n).length = n := by
  rw [content, List.length_map, List.length_range']

theorem gByteArrayAppend_fits {a bs : Bytes} (h : a.length + bs.length < 2 ^ 32) :
    gByteArrayAppend a bs = some (a ++ bs) := by
  rw [gByteArrayAppend, if_pos h]

/-- The loop looks back at two bytes. -/
theorem appendContent_escape (contentI : UInt64) (n : ℕ) : ∀ (i : ℕ) (pre : Bytes) (x y : UInt8),
    pre.length + 2 + 2 * n < 2 ^ 32 →
      appendContent byte contentI n i (pre ++ [x, y]) =
        some (pre ++ x :: y :: escape x y (content byte contentI i n)) := by
  induction n with
  | zero => intro i pre x y _; rfl
  | succ n ih =>
      intro i pre x y hfits
      set b := byte (contentI + UInt64.ofNat i) with hb
      have hcontent : content byte contentI i (n + 1) = b :: content byte contentI (i + 1) n := rfl
      have hlen : (pre ++ [x, y]).length = pre.length + 2 := by rw [List.length_append]; rfl
      have hx : (pre ++ [x, y])[pre.length + 2 - 2]? = some x := by
        rw [Nat.add_sub_cancel, List.getElem?_append_right (Nat.le_refl _), Nat.sub_self]
        rfl
      have hy : (pre ++ [x, y])[pre.length + 2 - 1]? = some y := by
        rw [List.getElem?_append_right (by omega), show pre.length + 2 - 1 - pre.length = 1 by omega]
        rfl
      rw [appendContent, hcontent, escape]
      simp only [hlen, hx, hy, Option.some.injEq, ← hb]
      by_cases hins : x = 0 ∧ y = 0 ∧ b ≤ 3
      · have hmore := ih (i + 1) (pre ++ [x, y]) 3 b (by rw [hlen]; omega)
        have hthree : (pre ++ [x, y] ++ [3]).length = pre.length + 3 := by
          rw [List.length_append, hlen]
          rfl
        rw [if_pos ⟨by omega, hins⟩, if_pos hins,
          gByteArrayAppend_fits (by rw [hlen, List.length_singleton]; omega)]
        show (gByteArrayAppend (pre ++ [x, y] ++ [3]) [b]).bind _ = _
        rw [gByteArrayAppend_fits (by rw [hthree, List.length_singleton]; omega), Option.bind_some,
          List.append_assoc (pre ++ [x, y])]
        refine hmore.trans ?_
        rw [List.append_assoc]
        rfl
      · have hlen' : (pre ++ [x]).length = pre.length + 1 := by rw [List.length_append]; rfl
        have hmore := ih (i + 1) (pre ++ [x]) y b (by rw [hlen']; omega)
        rw [if_neg (fun h => hins h.2), if_neg hins]
        show (gByteArrayAppend (pre ++ [x, y]) [b]).bind _ = _
        rw [gByteArrayAppend_fits (by rw [hlen, List.length_singleton]; omega), Option.bind_some]
        have hsplit : pre ++ [x, y] ++ [b] = pre ++ [x] ++ [y, b] := by
          rw [List.append_assoc, List.append_assoc]
          rfl
        rw [hsplit]
        refine hmore.trans ?_
        rw [List.append_assoc]
        rfl

/-- A unit of the generator. -/
def nalAt (nalHdr : UInt8) (contentI : UInt64) (rawLen : ℕ) : Nal :=
  ⟨nalHdr, content byte contentI 0 rawLen⟩

/-- **One unit is appended**, if the array has room for all its bytes escaped. -/
theorem appendNal_bytes (nalHdr : UInt8) (rawLen : ℕ) {a : Bytes} (contentI : UInt64)
    (hfits : a.length + 5 + 2 * rawLen < 2 ^ 32) :
    appendNal byte nalHdr rawLen (a, contentI) =
      some (a ++ (nalAt byte nalHdr contentI rawLen).bytes, contentI + UInt64.ofNat rawLen) := by
  have hcode : (a ++ startCode).length = a.length + 4 := by rw [List.length_append]; rfl
  have hpre : (a ++ [0, 0, 0]).length = a.length + 3 := by rw [List.length_append]; rfl
  have hsplit : a ++ startCode ++ [nalHdr] = (a ++ [0, 0, 0]) ++ [1, nalHdr] := by
    rw [List.append_assoc, List.append_assoc]
    rfl
  rw [appendNal, gByteArrayAppend_fits (show a.length + 4 < 2 ^ 32 by omega)]
  show (gByteArrayAppend (a ++ startCode) [nalHdr]).bind _ = _
  rw [gByteArrayAppend_fits (by rw [hcode, List.length_singleton]; omega), Option.bind_some, hsplit]
  show (appendContent byte contentI rawLen 0 (a ++ [0, 0, 0] ++ [1, nalHdr])).bind _ = _
  rw [appendContent_escape byte contentI rawLen 0 _ 1 nalHdr (by rw [hpre]; omega), Option.bind_some]
  rw [List.append_assoc]
  rfl

theorem nalAt_length (nalHdr : UInt8) (contentI : UInt64) (rawLen : ℕ) :
    5 + rawLen ≤ (nalAt byte nalHdr contentI rawLen).bytes.length ∧
      2 * (nalAt byte nalHdr contentI rawLen).bytes.length ≤ 10 + 3 * rawLen + zeros 1 nalHdr := by
  have hlow := length_le_escape (content byte contentI 0 rawLen) 1 nalHdr
  have hhigh := escape_length_le (content byte contentI 0 rawLen) 1 nalHdr
  rw [content_length] at hlow hhigh
  have hlen : (nalAt byte nalHdr contentI rawLen).bytes.length =
      5 + (escape 1 nalHdr (content byte contentI 0 rawLen)).length := by
    rw [Nal.bytes, List.length_append, List.length_cons]
    show 4 + (_ + 1) = _
    exact (Nat.add_right_comm 4 _ 1)
  rw [hlen]
  omega

/-! ## The stream -/

/-- The non-IDR units. -/
def slices : ℕ → UInt64 → List Nal
  | 0, _ => []
  | n + 1, contentI =>
      nalAt byte h264NalNonidr contentI h264SlicePayload ::
        slices n (contentI + UInt64.ofNat h264SlicePayload)

/-- SPS, PPS and IDR, and `n` units behind them. -/
def h264Nals (n : ℕ) : List Nal :=
  nalAt byte h264NalSps 0 h264SpsPayload :: nalAt byte h264NalPps 17 h264PpsPayload ::
    nalAt byte h264NalIdr 21 h264SlicePayload :: slices byte n 4117

/-- Every round of the loop takes more than a slice of the budget. -/
theorem h264Slices_eq {size : ℕ} (hmax : size ≤ 2 ^ 31) (k : ℕ) :
    ∀ (a : Bytes) (contentI : UInt64), a.length ≤ size → size < a.length + k * 4101 →
      ∃ n, h264Slices byte size (a, contentI) =
          some (a ++ (slices byte n contentI).flatMap Nal.bytes) ∧
        (a ++ (slices byte n contentI).flatMap Nal.bytes).length ≤ size := by
  induction k with
  | zero =>
      intro a contentI hle hlt
      omega
  | succ k ih =>
      intro a contentI hle hlt
      have hnal := appendNal_bytes byte h264NalNonidr h264SlicePayload contentI
        (show a.length + 5 + 2 * 4096 < 2 ^ 32 by omega)
      obtain ⟨hlow, -⟩ := nalAt_length byte h264NalNonidr contentI h264SlicePayload
      rw [show 5 + h264SlicePayload = 4101 from rfl] at hlow
      have hlen := @List.length_append _ a
        (nalAt byte h264NalNonidr contentI h264SlicePayload).bytes
      unfold h264Slices
      split
      · rename_i hnone
        rw [hnal] at hnone
        cases hnone
      · rename_i s' hsome
        rw [hnal] at hsome
        cases hsome
        split
        · refine ⟨0, ?_, ?_⟩
          · rw [slices, List.flatMap_nil, List.append_nil]
            exact congrArg some (List.take_left' rfl)
          · rw [slices, List.flatMap_nil, List.append_nil]
            exact hle
        · rename_i hroom
          have hroom := Nat.le_of_not_gt hroom
          obtain ⟨n, hrest, hfits⟩ := ih _ (contentI + UInt64.ofNat h264SlicePayload) hroom
            (by rw [hlen]; omega)
          refine ⟨n + 1, ?_, ?_⟩
          · rw [hrest, slices, List.flatMap_cons, List.append_assoc]
          · rw [slices, List.flatMap_cons, ← List.append_assoc]
            exact hfits

/-- **The generator ends** with these units, and keeps to its budget. -/
theorem h264Stream_eq {size : ℕ} (hmin : 8192 ≤ size) (hmax : size ≤ 2 ^ 31) :
    ∃ n, h264Stream byte size = some ((h264Nals byte n).flatMap Nal.bytes) ∧
      ((h264Nals byte n).flatMap Nal.bytes).length ≤ size := by
  set sps := nalAt byte h264NalSps 0 h264SpsPayload with hsps
  set pps := nalAt byte h264NalPps 17 h264PpsPayload with hpps
  set idr := nalAt byte h264NalIdr 21 h264SlicePayload with hidr
  have hspsLen : sps.bytes.length ≤ 31 := by
    have h := (nalAt_length byte h264NalSps 0 h264SpsPayload).2
    have hz := zeros_le 1 h264NalSps
    rw [← hsps, show 3 * h264SpsPayload = 51 from rfl] at h
    omega
  have hppsLen : pps.bytes.length ≤ 12 := by
    have h := (nalAt_length byte h264NalPps 17 h264PpsPayload).2
    have hz := zeros_le 1 h264NalPps
    rw [← hpps, show 3 * h264PpsPayload = 12 from rfl] at h
    omega
  have hidrLen : idr.bytes.length ≤ 6150 := by
    have h := (nalAt_length byte h264NalIdr 21 h264SlicePayload).2
    have hz := zeros_le 1 h264NalIdr
    rw [← hidr, show 3 * h264SlicePayload = 12288 from rfl] at h
    omega
  have h₁ := appendNal_bytes byte h264NalSps h264SpsPayload 0
    (show ([] : Bytes).length + 5 + 2 * 17 < 2 ^ 32 by decide)
  have h₂ := appendNal_bytes byte h264NalPps h264PpsPayload 17
    (show sps.bytes.length + 5 + 2 * 4 < 2 ^ 32 by omega)
  have h₃ := appendNal_bytes byte h264NalIdr h264SlicePayload 21
    (show (sps.bytes ++ pps.bytes).length + 5 + 2 * 4096 < 2 ^ 32 by
      rw [List.length_append]; omega)
  have hhead : (sps.bytes ++ pps.bytes ++ idr.bytes).length ≤ size := by
    rw [List.length_append, List.length_append]
    omega
  obtain ⟨n, hrest, hfits⟩ := h264Slices_eq byte hmax (size + 1) _ 4117 hhead (by omega)
  have hstream : (h264Nals byte n).flatMap Nal.bytes =
      sps.bytes ++ pps.bytes ++ idr.bytes ++ (slices byte n 4117).flatMap Nal.bytes := by
    rw [h264Nals, List.flatMap_cons, List.flatMap_cons, List.flatMap_cons, List.append_assoc,
      List.append_assoc]
  refine ⟨n, ?_, ?_⟩
  · rw [h264Stream, h₁]
    show (appendNal byte h264NalPps h264PpsPayload (sps.bytes, 17)).bind _ = _
    rw [h₂, Option.bind_some]
    show (appendNal byte h264NalIdr h264SlicePayload (sps.bytes ++ pps.bytes, 21)).bind _ = _
    rw [h₃, Option.bind_some, hstream]
    exact hrest
  · rw [hstream]
    exact hfits

theorem found_of_type {nalHdr : UInt8} {t : ℕ} (h : nalHdr.toNat % 32 = t) (i : ℕ) :
    found (i, nalHdr) = (i, t) :=
  congrArg (Prod.mk i) h

theorem found_sps (i : ℕ) : found (i, h264NalSps) = (i, 7) := found_of_type (by decide) i
theorem found_pps (i : ℕ) : found (i, h264NalPps) = (i, 8) := found_of_type (by decide) i
theorem found_idr (i : ℕ) : found (i, h264NalIdr) = (i, 5) := found_of_type (by decide) i
theorem found_nonidr (i : ℕ) : found (i, h264NalNonidr) = (i, 1) := found_of_type (by decide) i

theorem slices_headers (n : ℕ) : ∀ (contentI : UInt64) (i : ℕ),
    ((headers i (slices byte n contentI)).map found).map Prod.snd = List.replicate n 1 := by
  induction n with
  | zero => intro contentI i; rfl
  | succ n ih =>
      intro contentI i
      rw [slices, headers, List.map_cons, List.map_cons, ih, List.replicate_succ, nalAt, found_nonidr]

/-- What the generator promises: the units, the budget, and that nothing else looks like a
unit. -/
structure H264Made (size n : ℕ) (stream : Bytes) : Prop where
  units : stream = (h264Nals byte n).flatMap Nal.bytes
  fits : stream.length ≤ size
  pattern : ∀ i, StartsAt stream i ↔ i ∈ (headers 0 (h264Nals byte n)).map Prod.fst
  found : h264Found stream = (headers 0 (h264Nals byte n)).map found
  types : (h264Found stream).map Prod.snd = 7 :: 8 :: 5 :: List.replicate n 1

end

/-! ## The check -/

/-- Behind the IDR the scan only counts. -/
theorem foldl_nal (p : ℕ) (firstTypes : List ℕ) (us : List (ℕ × ℕ)) : ∀ k,
    us.map Prod.snd = List.replicate us.length 1 →
      us.foldl H264Scan.nal ⟨some p, 3 + k, firstTypes, 3⟩ =
        ⟨some p, 3 + k + us.length, firstTypes, 3⟩ := by
  induction us with
  | nil => intro k _; rfl
  | cons u us ih =>
      intro k htypes
      rw [List.map_cons, List.length_cons, List.replicate_succ] at htypes
      obtain ⟨htype, htypes⟩ := List.cons.inj htypes
      have hnal : (H264Scan.mk (some p) (3 + k) firstTypes 3).nal u =
          ⟨some p, 3 + (k + 1), firstTypes, 3⟩ := by
        rw [H264Scan.nal, htype]
        simp only [if_neg (show ¬ 3 + k < 3 by omega), Option.some_or]
        rfl
      rw [List.foldl_cons, hnal, ih (k + 1) htypes, List.length_cons]
      congr 1
      omega

theorem H264Made.scan {byte : UInt64 → UInt8} {size n : ℕ} {stream : Bytes}
    (h : H264Made byte size n stream) :
    h264Scan stream = ⟨some 1, n + 3, [7, 8, 5], 3⟩ := by
  rw [(h264Scan_units stream).1, h.found, h264Nals, headers, headers, headers]
  simp only [List.map_cons, List.foldl_cons, nalAt, found_sps, found_pps, found_idr]
  set rest := (headers _ (slices byte n 4117)).map Testfile.found
  have hrest : rest.map Prod.snd = List.replicate n 1 := slices_headers byte n _ _
  have hlen : rest.length = n := by
    have hlen := congrArg List.length hrest
    rwa [List.length_map, List.length_replicate] at hlen
  have hfold := foldl_nal 1 [7, 8, 5] rest 0 (by rw [hrest, hlen])
  rw [hlen, Nat.add_zero, Nat.add_comm 3] at hfold
  exact hfold

theorem h264Made_of {byte : UInt64 → UInt8} {size n : ℕ}
    (hfits : ((h264Nals byte n).flatMap Nal.bytes).length ≤ size) :
    H264Made byte size n ((h264Nals byte n).flatMap Nal.bytes) := by
  have hfound : h264Found ((h264Nals byte n).flatMap Nal.bytes) =
      (headers 0 (h264Nals byte n)).map found := by
    rw [(h264Scan_units _).2, ← units_flatMap, List.map_map]
    rfl
  refine ⟨rfl, hfits, startsAt_flatMap _, hfound, ?_⟩
  rw [hfound, h264Nals, headers, headers, headers]
  simp only [List.map_cons, nalAt, found_sps, found_pps, found_idr, slices_headers]

/-- The name of a stream. -/
def h264WireName (sha256Hex : Bytes → Bytes) (stream : Bytes) : Bytes :=
  ascii "hs-" ++ (sha256Hex stream ++ ascii ".h264")

theorem h264TestfileNameSha_wireName {sha256Hex : Bytes → Bytes} {stream : Bytes}
    (h : HexDigest (sha256Hex stream)) :
    h264TestfileNameSha (h264WireName sha256Hex stream) = some (sha256Hex stream) :=
  nameSha_eq_some.mpr ⟨rfl, h.length, asciiIsxdigit_of_hexDigest h⟩

/-- **The generator and its check.** For every payload the generator ends with a stream as
promised, writes it if the file calls do, and the check accepts it under its name. -/
theorem h264TestfileGenerate_verifies {sha256Hex : Bytes → Bytes}
    (hsha : ∀ m, HexDigest (sha256Hex m)) (byte : UInt64 → UInt8) {size : UInt64}
    (hmin : 8192 ≤ size.toNat) (hmax : size.toNat ≤ 2 ^ 31) :
    ∃ n stream, H264Made byte size.toNat n stream ∧
      (∀ io dir, h264TestfileGenerateWith sha256Hex byte io (some dir) size =
        some (if io.openOk = true ∧ io.pwrite stream.length = stream.length then
          some ⟨Path.join dir (ascii "hsgen.h264"), h264WireName sha256Hex stream, stream⟩
          else none)) ∧
      h264TestfileVerify sha256Hex (some stream) (h264WireName sha256Hex stream) =
        (true, some ("sha ok; " ++ toString (n + 3) ++
          " NALs (SPS+PPS+IDR-led), start codes ok")) := by
  obtain ⟨n, hstream, hfits⟩ := h264Stream_eq byte hmin hmax
  have hmade := h264Made_of hfits
  set stream := (h264Nals byte n).flatMap Nal.bytes with hdef
  refine ⟨n, stream, hmade, ?_, ?_⟩
  · intro io dir
    have hsize : ¬ size < 8192 := by
      rw [UInt64.lt_iff_toNat_lt]
      exact Nat.not_lt.mpr hmin
    simp only [h264TestfileGenerateWith]
    rw [if_neg hsize, hstream, Option.map_some]
    refine congrArg some ?_
    cases io.openOk with
    | false => rfl
    | true =>
        have hopen : ¬ (!true) = true := Bool.false_ne_true
        by_cases hwrite : io.pwrite stream.length = stream.length
        · have hboth : true = true ∧ io.pwrite stream.length = stream.length := ⟨rfl, hwrite⟩
          rw [if_neg hopen, if_neg (not_not.mpr hwrite), if_pos hboth]
          rfl
        · have hnot : ¬ (true = true ∧ io.pwrite stream.length = stream.length) :=
            fun h => hwrite h.2
          rw [if_neg hopen, if_pos hwrite, if_neg hnot]
  · have hlen : ¬ stream.length < 10 := by
      obtain ⟨hlow, -⟩ := nalAt_length byte h264NalSps 0 h264SpsPayload
      rw [show 5 + h264SpsPayload = 22 from rfl] at hlow
      rw [hdef, h264Nals, List.flatMap_cons, List.length_append]
      omega
    have hname : h264TestfileNameSha (h264WireName sha256Hex stream) = some (sha256Hex stream) :=
      h264TestfileNameSha_wireName (hsha stream)
    simp only [h264TestfileVerify]
    rw [if_neg hlen, hmade.scan, hname]
    simp [String.append_assoc]

/-- The smallest budget, with SHA-256 and the bytes of seed 7. -/
theorem h264TestfileGenerate_verifies_seven : 8192 ≤ (8192 : UInt64).toNat ∧
    ∃ n stream, H264Made (h264Byte 7) (8192 : UInt64).toNat n stream ∧
      (∀ io dir, h264TestfileGenerateWith hashHex (h264Byte 7) io (some dir) 8192 =
        some (if io.openOk = true ∧ io.pwrite stream.length = stream.length then
          some ⟨Path.join dir (ascii "hsgen.h264"), h264WireName hashHex stream, stream⟩
          else none)) ∧
      h264TestfileVerify hashHex (some stream) (h264WireName hashHex stream) =
        (true, some ("sha ok; " ++ toString (n + 3) ++
          " NALs (SPS+PPS+IDR-led), start codes ok")) :=
  ⟨by decide, h264TestfileGenerate_verifies hashHex_hexDigest (h264Byte 7) (by decide) (by decide)⟩

end HwPhoneLink.Testfile
