import HwPhoneLink.Lib.BigEndian

/-!
# Test file names and the H.264 check

A wire name `ft-<64 hex>.bin` or `hs-<64 hex>.h264` carries the SHA-256 of the
content (`ft_testfile.c`, `h264_testfile.c`). `sha256Hex` stands for GLib's
checksum: the digest of a byte string as 64 lowercase hex digits.
-/

namespace HwPhoneLink.Testfile

open BigEndian

/-- The bytes of an ASCII literal. -/
def ascii (s : String) : Bytes := s.toList.map fun c => UInt8.ofNat c.toNat

/-- Bytes shown as text in a message. -/
def text (bs : Bytes) : String := String.ofList (bs.map fun b => Char.ofNat b.toNat)

/-- `g_ascii_isxdigit` -/
def asciiIsxdigit (b : UInt8) : Bool :=
  (48 ≤ b && b ≤ 57) || (65 ≤ b && b ≤ 70) || (97 ≤ b && b ≤ 102)

/-- The 64 hex digits between a prefix and a suffix, if the name has that form. -/
def nameSha (pre suf wireName : Bytes) : Option Bytes :=
  if wireName.length < pre.length + 64 + suf.length then none
  else if wireName.take pre.length ≠ pre then none
  else if wireName.drop (wireName.length - suf.length) ≠ suf then none
  else if wireName.length - pre.length - suf.length ≠ 64 then none
  else if (field 64 pre.length wireName).all asciiIsxdigit then
    some (field 64 pre.length wireName)
  else none

def ftTestfileNameSha (wireName : Bytes) : Option Bytes :=
  nameSha (ascii "ft-") (ascii ".bin") wireName

def h264TestfileNameSha (wireName : Bytes) : Option Bytes :=
  nameSha (ascii "hs-") (ascii ".h264") wireName

/-! ## Annex-B scan -/

/-- Progress of the scan. `st` is the structure expected next, 100 after a
violation. -/
structure H264Scan where
  firstNal : Option ℕ
  nals : ℕ
  firstTypes : List ℕ
  st : ℕ
deriving DecidableEq

/-- The state after a NAL of type `t`. -/
def h264ScanNext (st t : ℕ) : ℕ :=
  match st with
  | 0 => if t = 7 then 1 else 100
  | 1 => if t = 8 then 2 else 100
  | 2 => if t = 5 then 3 else if t ≠ 6 then 100 else 2
  | 3 => if t ≠ 1 ∧ t ≠ 5 ∧ t ≠ 6 ∧ t ≠ 7 ∧ t ≠ 8 then 100 else 3
  | st => st

/-- The scan loop from index `i`. The buffer ends in a NUL that the header byte
of a last start code may be read from. -/
def h264ScanFrom (data : Bytes) : ℕ → ℕ → H264Scan → H264Scan
  | 0, _, s => s
  | fuel + 1, i, s =>
      if i + 2 < data.length then
        if data[i]! = 0 ∧ data[i + 1]! = 0 ∧ data[i + 2]! = 1 then
          let t := ((data ++ [0])[i + 3]!).toNat % 32
          h264ScanFrom data fuel (i + 3)
            { firstNal := s.firstNal.or (some i), nals := s.nals + 1
              firstTypes := if s.nals < 3 then s.firstTypes.set s.nals t else s.firstTypes
              st := h264ScanNext s.st t }
        else h264ScanFrom data fuel (i + 1) s
      else s

def h264Scan (data : Bytes) : H264Scan :=
  h264ScanFrom data data.length 0 { firstNal := none, nals := 0, firstTypes := [0, 0, 0], st := 0 }

/-- The verdict and the details, which stay NULL for a file that is unreadable
or too short. -/
def h264TestfileVerify (sha256Hex : Bytes → Bytes) (content : Option Bytes) (wireName : Bytes) :
    Bool × Option String :=
  match content with
  | none => (false, none)
  | some data =>
      if data.length < 10 then (false, none)
      else
        let sha : Bool × String :=
          match h264TestfileNameSha wireName with
          | some expected =>
              let actual := sha256Hex data
              if actual ≠ expected then
                (false, "sha mismatch: got " ++ text actual ++ " want " ++ text expected)
              else (true, "sha ok; ")
          | none => (true, "sha unchecked (non-conventional name); ")
        let scan := h264Scan data
        let head : Bool × String :=
          if scan.firstNal ≠ some 0 ∧ scan.firstNal ≠ some 1 then
            (false, "no start code at file head; ")
          else (true, "")
        let nals : Bool × String :=
          if scan.st ≠ 3 ∨ scan.nals < 3 then
            (false, "bad NAL structure: " ++ toString scan.nals ++ " NALs, first types " ++
              toString (scan.firstTypes.getD 0 0) ++ "/" ++ toString (scan.firstTypes.getD 1 0) ++
              "/" ++ toString (scan.firstTypes.getD 2 0))
          else (true, toString scan.nals ++ " NALs (SPS+PPS+IDR-led), start codes ok")
        (sha.1 && head.1 && nals.1, some (sha.2 ++ head.2 ++ nals.2))

end HwPhoneLink.Testfile
