import HwPhoneLink.Lib.Path
import HwPhoneLink.Testfile.Verify
import Mathlib.Data.List.DropRight

/-!
# The DMSDP control text

`dmsdp_parse` of `dmsdp.c`: a start line, header lines and a trigger body. The
tables of the parser are functions of the header name; positions in the text are
the bytes from there on.

`scanInt` is the C library's conversion of a decimal number (`atoi`, `%d`): it
saturates at the bounds of `long`, and an `int` takes the low 32 bits.
-/

namespace HwPhoneLink.Dmsdp

open BigEndian Path HwPhoneLink.Testfile

/-! ## The C library -/

/-- `isspace` in the C locale. -/
def isSpace (b : UInt8) : Bool := b = 32 || (9 ≤ b && b ≤ 13)

def isDigit (b : UInt8) : Bool := 48 ≤ b && b ≤ 57

/-- The value of decimal digits. -/
def decimalValue (digits : Bytes) : ℕ := digits.foldl (fun n b => 10 * n + (b.toNat - 48)) 0

/-- The decimal number at the front of a C string, and what follows it. -/
def scanInt (s : Bytes) : Option (ℤ × Bytes) :=
  let s := s.dropWhile isSpace
  let negative := s.head? = some 45
  let s := if negative ∨ s.head? = some 43 then s.tail else s
  let digits := s.takeWhile isDigit
  if digits = [] then none
  else
    let n : ℤ := decimalValue digits
    some (max (-2 ^ 63) (min (2 ^ 63 - 1) (if negative then -n else n)), s.dropWhile isDigit)

/-- `(guint32)atoi(s)` -/
def atoi (s : Bytes) : UInt32 :=
  match scanInt s with
  | none => 0
  | some (v, _) => UInt32.ofInt v

/-- The position of the first occurrence. -/
def memmem (needle : Bytes) : Bytes → Option ℕ
  | [] => if needle = [] then some 0 else none
  | b :: bs => if needle <+: b :: bs then some 0 else (memmem needle bs).map (· + 1)

/-- `strncmp` finds no difference. Past the end of either string is a NUL. -/
def strncmpEq : ℕ → Bytes → Bytes → Bool
  | 0, _, _ => true
  | n + 1, a, b =>
      if a.headD 0 ≠ b.headD 0 then false
      else if a.headD 0 = 0 then true
      else strncmpEq n a.tail b.tail

/-! ## Tables -/

def crlf : Bytes := [13, 10]

/-- The start lines of the methods, in the order of their types. -/
def dmsdpMethodLines : List Bytes :=
  ["OPTIONS * DMSDP/1.0\r\n", "SETUP * DMSDP/1.0\r\n", "PLAY * DMSDP/1.0\r\n",
    "TEARDOWN * DMSDP/1.0\r\n", "SET_PARAMETER * DMSDP/1.0\r\n", "GET_PARAMETER * DMSDP/1.0\r\n",
    "RESETUP * DMSDP/1.0\r\n", "TRIGGER_RECONN * DMSDP/1.0\r\n"].map ascii

def dmsdpTriggerBodies : List Bytes :=
  ["msdp_trigger_method: SETUP\r\n", "msdp_trigger_method: TEARDOWN\r\n",
    "msdp_trigger_method: OPTIONS\r\n", "msdp_trigger_method: CLOSE\r\n",
    "msdp_trigger_method: RESETUP\r\n"].map ascii

def dmsdpTypeSetup : UInt32 := 1
def dmsdpTypePlay : UInt32 := 2
def dmsdpTypeResponse : UInt32 := 8

inductive DmsdpName : Type where
  | cSeq | contentLength | contentType | serviceId | serviceType | dataSessionId | cryptoVer
  | cryptoSwitch | cryptoAlg | cryptoAbility | udpKa | udpKaPort | fillp | codec | tcp
  | videoParameter | audioParameter | gpsParameter | videoMetaParameter | transport
  | timeServerPort | timeUsHigh | timeUsLow | deviceTraceId | kaRetry | multiTrans | backup
  | replyType | simple | polyPackage
deriving DecidableEq, Repr

/-- `dmsdp_names`, in the order of the table. -/
def dmsdpNames : List (DmsdpName × Bytes) :=
  [(.cSeq, "CSeq"), (.contentLength, "Content-Length"), (.contentType, "Content-Type"),
    (.serviceId, "ServiceID"), (.serviceType, "ServiceType"), (.dataSessionId, "DataSessionID"),
    (.cryptoVer, "CryptoVer"), (.cryptoSwitch, "CryptoSwitch"), (.cryptoAlg, "CryptoAlg"),
    (.cryptoAbility, "CryptoAbility"), (.udpKa, "UdpKA"), (.udpKaPort, "UdpKAport"),
    (.fillp, "Fillp"), (.codec, "Codec"), (.tcp, "TCP"), (.videoParameter, "VideoParameter"),
    (.audioParameter, "AudioParameter"), (.gpsParameter, "GpsParameter"),
    (.videoMetaParameter, "VideoMetaParameter"), (.transport, "Transport"),
    (.timeServerPort, "TimeServerPort"), (.timeUsHigh, "TimeUsHigh"), (.timeUsLow, "TimeUsLow"),
    (.deviceTraceId, "DeviceTraceId"), (.kaRetry, "KaRetry"), (.multiTrans, "MultiTrans"),
    (.backup, "Backup"), (.replyType, "ReplyType"), (.simple, "Simple"),
    (.polyPackage, "PolyPackage")].map fun p => (p.1, ascii p.2)

def DmsdpName.flag1 : DmsdpName → UInt32
  | .cSeq => 0x00000001
  | .serviceId => 0x00000400
  | .serviceType => 0x00000800
  | .dataSessionId => 0x00001000
  | .cryptoVer => 0x00000002
  | .cryptoSwitch => 0x00000004
  | .cryptoAlg => 0x00000008
  | .cryptoAbility => 0x00000010
  | .udpKa => 0x00000020
  | .udpKaPort => 0x00000040
  | .fillp => 0x00000080
  | .codec => 0x00000100
  | .tcp => 0x00000200
  | .videoParameter => 0x00008000
  | .audioParameter => 0x00010000
  | .gpsParameter => 0x00020000
  | .videoMetaParameter => 0x00040000
  | .transport => 0x00080000
  | .timeServerPort => 0x00100000
  | .deviceTraceId => 0x00200000
  | .kaRetry => 0x00400000
  | _ => 0

def DmsdpName.flag2 : DmsdpName → UInt32
  | .multiTrans => 0x1
  | .backup => 0x2
  | .replyType => 0x4
  | .simple => 0x8
  | .polyPackage => 0x10
  | _ => 0

/-- The value is a string. -/
def DmsdpName.special : DmsdpName → Bool
  | .contentType | .serviceId | .cryptoAlg | .videoParameter | .audioParameter | .gpsParameter
  | .videoMetaParameter | .transport | .deviceTraceId => true
  | _ => false

/-! ## The parsed message -/

structure DmsdpParsed where
  type : UInt32
  flags1 : UInt32
  flags2 : UInt32
  triggerIdx : UInt32
  responseFail : UInt32
  cseq : UInt32
  contentLength : UInt32
  cryptoVer : UInt8
  cryptoSwitch : UInt8
  cryptoAlg : Option Bytes
  cryptoAbility : UInt8
  udpKa : UInt8
  udpKaPort : UInt32
  gpsServerPort : UInt32
  fillp : UInt8
  tcp : UInt8
  serviceId : Option Bytes
  serviceType : UInt32
  dataSessionId : UInt32
  clientPortLo : UInt32
  clientPortHi : UInt32
  serverPortLo : UInt32
  serverPortHi : UInt32
  timeServerPort : UInt32
  timeUsHigh : UInt32
  timeUsLow : UInt32
  avParam : Option Bytes
  videoMeta : Option Bytes
  deviceTraceId : Option Bytes
  multiTrans : UInt32
  backup : UInt8
  replyType : UInt8
  simple : UInt8
  polyPackage : UInt8
deriving DecidableEq, Repr

def dmsdpParsedInit : DmsdpParsed where
  type := 0
  flags1 := 0
  flags2 := 0
  triggerIdx := 0
  responseFail := 0
  cseq := 0
  contentLength := 0
  cryptoVer := 0
  cryptoSwitch := 0
  cryptoAlg := none
  cryptoAbility := 0
  udpKa := 0
  udpKaPort := 0
  gpsServerPort := 0
  fillp := 0
  tcp := 0
  serviceId := none
  serviceType := 0
  dataSessionId := 0
  clientPortLo := 0
  clientPortHi := 0
  serverPortLo := 0
  serverPortHi := 0
  timeServerPort := 0
  timeUsHigh := 0
  timeUsLow := 0
  avParam := none
  videoMeta := none
  deviceTraceId := none
  multiTrans := 0
  backup := 0
  replyType := 0
  simple := 0
  polyPackage := 0

/-! ## Values -/

/-- The sign slot, `+` or `-`. -/
def isSignSlot (b : UInt8) : Bool := (b - 0x2b) &&& 0xfd = 0

def dmsdpParseInteger (str : Bytes) : Except ℤ UInt32 :=
  if str.length > 16 then .error (-9)
  else
    let buf := cString str
    if buf.length < 1 then .error (-1)
    else
      let rest := buf.dropWhile fun b => b = 32
      let signed := rest.head?.any isSignSlot
      if signed ∧ buf.length = 1 then .error (-1)
      else if (if signed then rest.tail else rest).all isDigit then .ok (atoi buf)
      else .error (-1)

/-- The range `lo-hi`, or one port; `none` for the code -5. -/
def dmsdpParsePortRange (s : Bytes) : Option (UInt32 × UInt32) :=
  if s.length ≥ 32 then none
  else
    match scanInt (cString s) with
    | none => none
    | some (a, rest) =>
        match if rest.head? = some 45 then scanInt rest.tail else none with
        | some (b, _) => some (UInt32.ofInt a, UInt32.ofInt b)
        | none => some (UInt32.ofInt a, 0)

/-- The first segment of the name; `none` when its range is malformed. -/
def dmsdpParseTransportAttr (val name : Bytes) (set : UInt32 × UInt32 → DmsdpParsed → DmsdpParsed)
    (out : DmsdpParsed) : Option DmsdpParsed :=
  match (val.splitOn 59).find? fun seg => seg.take 12 = name ++ [61] with
  | none => some out
  | some seg => (dmsdpParsePortRange (seg.drop 12)).map fun ports => set ports out

def dmsdpParseTransport (val : Bytes) (out : DmsdpParsed) : DmsdpParsed :=
  if val.take 20 ≠ ascii "RTP/AVP/UDP;unicast;" then out
  else
    match dmsdpParseTransportAttr val (ascii "client_port")
        (fun ports out => { out with clientPortLo := ports.1, clientPortHi := ports.2 }) out with
    | none => out
    | some out =>
        (dmsdpParseTransportAttr val (ascii "server_port")
          (fun ports out => { out with serverPortLo := ports.1, serverPortHi := ports.2 })
          out).getD out

def dmsdpParseGps (val : Bytes) (out : DmsdpParsed) : Except ℤ DmsdpParsed :=
  match memmem (ascii "ServerUdpPort") val with
  | none => .error (-5)
  | some pos =>
      let p := (val.drop (pos + 13)).dropWhile fun b => b = 32 ∨ b = 9 ∨ b = 10 ∨ b = 13 ∨ b = 61
      let seg := p.takeWhile (· ≠ 59)
      if seg.length ≥ 20 then .error (-5)
      else
        let v := atoi (cString seg)
        if v.toInt32.toInt ≤ 0 then .error (-5) else .ok { out with gpsServerPort := v }

def dmsdpAnalyzeString (idx : DmsdpName) (val : Bytes) (out : DmsdpParsed) :
    Except ℤ DmsdpParsed :=
  match idx with
  | .contentType => .ok out
  | .serviceId => .ok { out with serviceId := some val }
  | .cryptoAlg => .ok { out with cryptoAlg := some val }
  | .videoParameter | .audioParameter => .ok { out with avParam := some val }
  | .gpsParameter => dmsdpParseGps val out
  | .videoMetaParameter => .ok { out with videoMeta := some val }
  | .transport => .ok (dmsdpParseTransport val out)
  | .deviceTraceId => .ok { out with deviceTraceId := some val }
  | _ => .error (-10)

/-- A value of 32 bits, stored where `set` says. -/
def dmsdpInteger (val : Bytes) (set : UInt32 → DmsdpParsed) : Except ℤ DmsdpParsed :=
  (dmsdpParseInteger val).map set

def dmsdpAnalyzeInteger (idx : DmsdpName) (val : Bytes) (out : DmsdpParsed) :
    Except ℤ DmsdpParsed :=
  match idx with
  | .cSeq => dmsdpInteger val fun v => { out with cseq := v }
  | .contentLength => dmsdpInteger val fun v => { out with contentLength := v }
  | .serviceType => dmsdpInteger val fun v => { out with serviceType := v }
  | .dataSessionId => dmsdpInteger val fun v => { out with dataSessionId := v }
  | .cryptoVer => dmsdpInteger val fun v => { out with cryptoVer := v.toUInt8 }
  | .cryptoSwitch => dmsdpInteger val fun v => { out with cryptoSwitch := v.toUInt8 }
  | .cryptoAbility => dmsdpInteger val fun v => { out with cryptoAbility := v.toUInt8 }
  | .udpKa => dmsdpInteger val fun v => { out with udpKa := v.toUInt8 }
  | .udpKaPort => dmsdpInteger val fun v => { out with udpKaPort := v }
  | .fillp => dmsdpInteger val fun v => { out with fillp := v.toUInt8 }
  | .tcp => dmsdpInteger val fun v => { out with tcp := v.toUInt8 }
  | .timeServerPort => dmsdpInteger val fun v => { out with timeServerPort := v }
  | .timeUsHigh => dmsdpInteger val fun v => { out with timeUsHigh := v }
  | .timeUsLow => dmsdpInteger val fun v => { out with timeUsLow := v }
  | .multiTrans => dmsdpInteger val fun v => { out with multiTrans := v }
  | .backup => dmsdpInteger val fun v => { out with backup := v.toUInt8 }
  | .replyType => dmsdpInteger val fun v => { out with replyType := v.toUInt8 }
  | .simple => dmsdpInteger val fun v => { out with simple := v.toUInt8 }
  | .polyPackage => dmsdpInteger val fun v => { out with polyPackage := v.toUInt8 }
  | _ => .error (-10)

/-! ## Lines -/

/-- The first name that the trimmed key is a front of. -/
def dmsdpGetKeyword (key : Bytes) : Option DmsdpName :=
  let key := (key.dropWhile fun b => b = 32).rdropWhile fun b => b = 32
  if key.length = 0 then none
  else (dmsdpNames.find? fun p => strncmpEq key.length key p.2).map Prod.fst

/-- The bytes before the first colon. -/
def headerKey (line : Bytes) : Bytes := line.takeWhile (· ≠ 58)

/-- The bytes after the first colon. -/
def headerValue (line : Bytes) : Bytes := line.drop ((headerKey line).length + 1)

/-- The values of the two paths. -/
def dmsdpAnalyzeValue (idx : DmsdpName) (val : Bytes) (out : DmsdpParsed) :
    Except ℤ DmsdpParsed :=
  if idx.special then dmsdpAnalyzeString idx (val.dropWhile fun b => b = 32) out
  else dmsdpAnalyzeInteger idx val out

def dmsdpAnalyzeLine (line : Bytes) (out : DmsdpParsed) : Except ℤ DmsdpParsed :=
  let keylen := (headerKey line).length
  if keylen = line.length then .error (-5)
  else if keylen = 0 ∨ line.length ≤ 1 ∨ keylen ≥ line.length - 1 then .error (-5)
  else
    match dmsdpGetKeyword (headerKey line) with
    | none => .ok out
    | some idx =>
        let out := { out with flags1 := out.flags1 ||| idx.flag1, flags2 := out.flags2 ||| idx.flag2 }
        match dmsdpAnalyzeValue idx (headerValue line) out with
        | .ok out => .ok out
        | .error rc =>
            if rc = -10 then
              .ok { out with
                flags1 := out.flags1 &&& ~~~idx.flag1
                flags2 := out.flags2 &&& ~~~idx.flag2 }
            else .error rc

/-! ## The text -/

/-- The first line, without its line break. -/
def dmsdpStartLine (line : Bytes) : Option DmsdpParsed :=
  match dmsdpMethodLines.findIdx? fun method => line ++ crlf = method with
  | some i => some { dmsdpParsedInit with type := UInt32.ofNat i }
  | none =>
      if line.length < 10 ∨ line.take 10 ≠ ascii "DMSDP/1.0 " ∨ line.length - 10 > 12 then none
      else
        let digits := (line.drop 10).takeWhile isDigit
        let rest := (line.drop 10).dropWhile isDigit
        if digits = [] ∨ rest.head? ≠ some 32 then none
        else
          match dmsdpParseInteger digits with
          | .error _ => none
          | .ok status =>
              some { dmsdpParsedInit with
                type := dmsdpTypeResponse, responseFail := if status ≠ 200 then 1 else 0 }

/-- The header lines, and the body. Every line takes two bytes at least; the
length of the text is enough `fuel`. -/
def dmsdpHeaders : ℕ → Bytes → DmsdpParsed → Except ℤ (DmsdpParsed × Bytes)
  | 0, rest, out => .ok (out, rest)
  | fuel + 1, rest, out =>
      if rest = [] then .ok (out, [])
      else
        match memmem crlf rest with
        | some ll =>
            if ll = 0 then .ok (out, rest.drop 2)
            else
              match dmsdpAnalyzeLine (rest.take ll) out with
              | .error rc => .error rc
              | .ok out => dmsdpHeaders fuel (rest.drop (ll + 2)) out
        | none =>
            if rest.length < 2 then .error (-2)
            else
              match dmsdpAnalyzeLine rest out with
              | .error rc => .error rc
              | .ok out => .ok (out, [])

/-- The trigger body, for a text of `len` bytes. -/
def dmsdpBody (len : ℕ) (body : Bytes) (out : DmsdpParsed) : Except ℤ DmsdpParsed :=
  if out.contentLength > 0 then
    if body.length ≠ out.contentLength.toNat then .error (-2)
    else
      match dmsdpTriggerBodies.findIdx? fun trigger => body = trigger with
      | none => .error (-2)
      | some i => .ok { out with triggerIdx := UInt32.ofNat (i + 1) }
  -- a body that is the whole text: nothing has been parsed
  else if body.length = len then .error (-2)
  else .ok out

def dmsdpParse (buf : Bytes) : Except ℤ DmsdpParsed :=
  if buf.length = 0 then .error (-2)
  else
    match memmem crlf buf with
    | none => .error (-2)
    | some line1 =>
        match dmsdpStartLine (buf.take line1) with
        | none => .error (-2)
        | some out =>
            match dmsdpHeaders buf.length (buf.drop (line1 + 2)) out with
            | .error rc => .error rc
            | .ok (out, body) => dmsdpBody buf.length body out

/-! ## The header lines of a text -/

/-- The lines up to a blank one. -/
def headerLinesFrom : ℕ → Bytes → List Bytes
  | 0, _ => []
  | fuel + 1, rest =>
      if rest = [] then []
      else
        match memmem crlf rest with
        | some ll => if ll = 0 then [] else rest.take ll :: headerLinesFrom fuel (rest.drop (ll + 2))
        | none => [rest]

/-- The lines of a text after the first, up to a blank one. -/
def headerLines (text : Bytes) : List Bytes :=
  match memmem crlf text with
  | none => []
  | some line1 => headerLinesFrom text.length (text.drop (line1 + 2))

/-- The line is a header of the name. -/
def isHeader (name : DmsdpName) (line : Bytes) : Bool :=
  dmsdpGetKeyword (headerKey line) = some name

/-- A CSeq header of the text has the value. -/
def CSeqIs (text : Bytes) (v : UInt32) : Prop :=
  ∃ line ∈ headerLines text, isHeader .cSeq line = true ∧
    dmsdpParseInteger (headerValue line) = .ok v

/-- A bad number is not ignored. -/
theorem dmsdpParseInteger_error {val : Bytes} {rc : ℤ} (h : dmsdpParseInteger val = .error rc) :
    rc = -9 ∨ rc = -1 := by
  unfold dmsdpParseInteger at h
  simp only at h
  split at h
  · cases h
    exact Or.inl rfl
  split at h
  · cases h
    exact Or.inr rfl
  split at h
  · cases h
    exact Or.inr rfl
  split at h <;> split at h <;> cases h <;> exact Or.inr rfl

end HwPhoneLink.Dmsdp
