import HwPhoneLink.Lib.Memory
import HwPhoneLink.Dmsdp.Text

/-!
# The DMSDP parser and its memory

`dmsdp.c` once more, read by read. `mem` holds exactly the bytes of the message. A pointer
is a position in it, a local buffer is a list of its size. `none` is a read outside of the
message or of a buffer, a copy that overruns a buffer, or a C string without its NUL.
-/

namespace HwPhoneLink.Dmsdp.Checked

open BigEndian Path Memory HwPhoneLink.Testfile

/-! ## The C library -/

/-- The C string at the front of a buffer. -/
def cStr (buf : Bytes) : Option Bytes := if 0 ∈ buf then some (cString buf) else none

/-- `strncmp(mem + off, s, n) == 0` for a literal `s`, which ends with a NUL. -/
def strncmp (mem : Bytes) : ℕ → ℕ → Bytes → Option Bool
  | _, 0, _ => some true
  | off, n + 1, s => do
      let c ← mem[off]?
      if c ≠ s.headD 0 then some false
      else if c = 0 then some true
      else strncmp mem (off + 1) n s.tail

/-- `memcmp(mem + off, s, n) == 0` -/
def memcmp (mem : Bytes) (off : ℕ) (s : Bytes) (n : ℕ) : Option Bool := do
  let a ← load mem off n
  let b ← load s 0 n
  some (decide (a = b))

/-- `memmem(mem + off, len, needle)`, counted from `off`. -/
def memmem (mem : Bytes) (off len : ℕ) (needle : Bytes) : Option (Option ℕ) :=
  search mem needle off (len + 1 - needle.length)

/-- `sscanf(s, "%d-%d", &a, &b) == 2` -/
def scanPair (s : Bytes) : Option (ℤ × ℤ) :=
  match scanInt s with
  | none => none
  | some (a, rest) =>
      if rest.head? = some 45 then (scanInt rest.tail).map fun b => (a, b.1) else none

/-! ## Values -/

def dmsdpParseInteger (mem : Bytes) (str len : ℕ) : Option (Except ℤ UInt32) :=
  if len > 16 then some (.error (-9))
  else do
    let buf ← loadInto 17 0 mem str len
    let text ← cStr buf
    let sl := text.length
    if sl < 1 then some (.error (-1))
    else
      let sp ← skipWhile buf (fun b => b = 32) 0 sl
      let c ← buf[sp]?
      if isSignSlot c ∧ sl = 1 then some (.error (-1))
      else
        let sp := if isSignSlot c then sp + 1 else sp
        let digits ← skipWhile buf isDigit sp (sl - sp)
        if sp + digits < sl then some (.error (-1)) else some (.ok (atoi text))

def dmsdpParsePortRange (mem : Bytes) (s len : ℕ) : Option (Option (UInt32 × UInt32)) :=
  if len ≥ 32 then some none
  else do
    let buf ← loadInto 32 0 mem s len
    let text ← cStr buf
    match scanPair text with
    | some (a, b) => some (some (UInt32.ofInt a, UInt32.ofInt b))
    | none => some ((scanInt text).map fun a => (UInt32.ofInt a.1, 0))

/-- The segment is that of the name. -/
def attrMatches (mem name : Bytes) (p segLen : ℕ) : Option Bool :=
  if segLen ≥ 12 then do
    let c ← mem[p + 11]?
    if c = 61 then strncmp mem p 11 name else some false
  else some false

/-- The segments from `p` on. -/
def dmsdpParseTransportAttr (mem name : Bytes) (set : UInt32 × UInt32 → DmsdpParsed → DmsdpParsed)
    (out : DmsdpParsed) (p rem : ℕ) : Option (Option DmsdpParsed) :=
  if rem = 0 then some (some out)
  else do
    let segLen ← skipWhile mem (· ≠ 59) p rem
    let matched ← attrMatches mem name p segLen
    if matched then
      (dmsdpParsePortRange mem (p + 12) (segLen - 12)).map (Option.map fun ports => set ports out)
    else if segLen < rem then
      dmsdpParseTransportAttr mem name set out (p + (segLen + 1)) (rem - (segLen + 1))
    else some (some out)
termination_by rem

def dmsdpParseTransport (mem : Bytes) (val len : ℕ) (out : DmsdpParsed) : Option DmsdpParsed := do
  let unicast ← (if len < 20 then some false else strncmp mem val 20 (ascii "RTP/AVP/UDP;unicast;"))
  if unicast = false then some out
  else
    let client ← dmsdpParseTransportAttr mem (ascii "client_port")
      (fun ports out => { out with clientPortLo := ports.1, clientPortHi := ports.2 }) out val len
    match client with
    | none => some out
    | some out =>
        let server ← dmsdpParseTransportAttr mem (ascii "server_port")
          (fun ports out => { out with serverPortLo := ports.1, serverPortHi := ports.2 }) out
          val len
        some (server.getD out)

/-- What may stand between the name and the port. -/
def isGpsSkip (b : UInt8) : Bool :=
  b ≤ 0x3d && (b = 32 || b = 9 || b = 10 || b = 13 || b = 61)

def dmsdpParseGps (mem : Bytes) (val len : ℕ) (out : DmsdpParsed) :
    Option (Except ℤ DmsdpParsed) := do
  let found ← memmem mem val len (ascii "ServerUdpPort")
  match found with
  | none => some (.error (-5))
  | some pos =>
      let stop := val + len
      let p := val + (pos + 13)
      let skipped ← skipWhile mem isGpsSkip p (stop - p)
      let p := p + skipped
      let seg ← skipWhile mem (· ≠ 59) p (stop - p)
      if seg ≥ 20 then some (.error (-5))
      else
        let buf ← loadInto 21 0 mem p seg
        let text ← cStr buf
        let v := atoi text
        if v.toInt32.toInt ≤ 0 then some (.error (-5))
        else some (.ok { out with gpsServerPort := v })

def dmsdpAnalyzeString (mem : Bytes) (idx : DmsdpName) (val vlen : ℕ) (out : DmsdpParsed) :
    Option (Except ℤ DmsdpParsed) :=
  match idx with
  | .contentType => some (.ok out)
  | .serviceId => (load mem val vlen).map fun s => .ok { out with serviceId := some s }
  | .cryptoAlg => (load mem val vlen).map fun s => .ok { out with cryptoAlg := some s }
  | .videoParameter | .audioParameter =>
      (load mem val vlen).map fun s => .ok { out with avParam := some s }
  | .gpsParameter => dmsdpParseGps mem val vlen out
  | .videoMetaParameter => (load mem val vlen).map fun s => .ok { out with videoMeta := some s }
  | .transport => (dmsdpParseTransport mem val vlen out).map .ok
  | .deviceTraceId => (load mem val vlen).map fun s => .ok { out with deviceTraceId := some s }
  | _ => some (.error (-10))

/-- A value of 32 bits, stored where `set` says. -/
def dmsdpInteger (mem : Bytes) (val vlen : ℕ) (set : UInt32 → DmsdpParsed) :
    Option (Except ℤ DmsdpParsed) :=
  (dmsdpParseInteger mem val vlen).map (Except.map set)

def dmsdpAnalyzeInteger (mem : Bytes) (idx : DmsdpName) (val vlen : ℕ) (out : DmsdpParsed) :
    Option (Except ℤ DmsdpParsed) :=
  match idx with
  | .cSeq => dmsdpInteger mem val vlen fun v => { out with cseq := v }
  | .contentLength => dmsdpInteger mem val vlen fun v => { out with contentLength := v }
  | .serviceType => dmsdpInteger mem val vlen fun v => { out with serviceType := v }
  | .dataSessionId => dmsdpInteger mem val vlen fun v => { out with dataSessionId := v }
  | .cryptoVer => dmsdpInteger mem val vlen fun v => { out with cryptoVer := v.toUInt8 }
  | .cryptoSwitch => dmsdpInteger mem val vlen fun v => { out with cryptoSwitch := v.toUInt8 }
  | .cryptoAbility => dmsdpInteger mem val vlen fun v => { out with cryptoAbility := v.toUInt8 }
  | .udpKa => dmsdpInteger mem val vlen fun v => { out with udpKa := v.toUInt8 }
  | .udpKaPort => dmsdpInteger mem val vlen fun v => { out with udpKaPort := v }
  | .fillp => dmsdpInteger mem val vlen fun v => { out with fillp := v.toUInt8 }
  | .tcp => dmsdpInteger mem val vlen fun v => { out with tcp := v.toUInt8 }
  | .timeServerPort => dmsdpInteger mem val vlen fun v => { out with timeServerPort := v }
  | .timeUsHigh => dmsdpInteger mem val vlen fun v => { out with timeUsHigh := v }
  | .timeUsLow => dmsdpInteger mem val vlen fun v => { out with timeUsLow := v }
  | .multiTrans => dmsdpInteger mem val vlen fun v => { out with multiTrans := v }
  | .backup => dmsdpInteger mem val vlen fun v => { out with backup := v.toUInt8 }
  | .replyType => dmsdpInteger mem val vlen fun v => { out with replyType := v.toUInt8 }
  | .simple => dmsdpInteger mem val vlen fun v => { out with simple := v.toUInt8 }
  | .polyPackage => dmsdpInteger mem val vlen fun v => { out with polyPackage := v.toUInt8 }
  | _ => some (.error (-10))

/-! ## Lines -/

/-- The first name of a table that the key is a front of. -/
def findName (mem : Bytes) (key keylen : ℕ) :
    List (DmsdpName × Bytes) → Option (Option DmsdpName)
  | [] => some none
  | (idx, name) :: names => do
      let matched ← strncmp mem key keylen name
      if matched then some (some idx) else findName mem key keylen names

def dmsdpGetKeyword (mem : Bytes) (key keylen : ℕ) : Option (Option DmsdpName) := do
  let s ← skipWhile mem (fun b => b = 32) key keylen
  let tl ← skipBack mem (fun b => b = 32) (key + s) (keylen - s)
  if tl = 0 then some none else findName mem (key + s) tl dmsdpNames

def dmsdpAnalyzeValue (mem : Bytes) (idx : DmsdpName) (val vlen : ℕ) (out : DmsdpParsed) :
    Option (Except ℤ DmsdpParsed) :=
  if idx.special then do
    let sp ← skipWhile mem (fun b => b = 32) val vlen
    dmsdpAnalyzeString mem idx (val + sp) (vlen - sp) out
  else dmsdpAnalyzeInteger mem idx val vlen out

def dmsdpAnalyzeLine (mem : Bytes) (line len : ℕ) (out : DmsdpParsed) :
    Option (Except ℤ DmsdpParsed) := do
  let keylen ← skipWhile mem (· ≠ 58) line len
  if keylen = len then some (.error (-5))
  else if keylen = 0 ∨ len ≤ 1 ∨ keylen ≥ len - 1 then some (.error (-5))
  else
    let key ← dmsdpGetKeyword mem line keylen
    match key with
    | none => some (.ok out)
    | some idx =>
        let out := { out with flags1 := out.flags1 ||| idx.flag1, flags2 := out.flags2 ||| idx.flag2 }
        let r ← dmsdpAnalyzeValue mem idx (line + (keylen + 1)) (len - (keylen + 1)) out
        match r with
        | .ok out => some (.ok out)
        | .error rc =>
            if rc = -10 then
              some (.ok { out with
                flags1 := out.flags1 &&& ~~~idx.flag1
                flags2 := out.flags2 &&& ~~~idx.flag2 })
            else some (.error rc)

/-! ## The text -/

/-- The first literal of a table that `len` bytes from `off` are, all but its last `cut` bytes. -/
def findLiteral (mem : Bytes) (off len cut : ℕ) : List Bytes → Option (Option ℕ)
  | [] => some none
  | s :: rest => do
      let matched ← (if len = s.length - cut then memcmp mem off s len else some false)
      if matched then some (some 0) else (findLiteral mem off len cut rest).map (Option.map (· + 1))

/-- The first line, of so many bytes without its line break. -/
def dmsdpStartLine (mem : Bytes) (line1 : ℕ) : Option (Option DmsdpParsed) := do
  let isMethod ← findLiteral mem 0 line1 2 dmsdpMethodLines
  match isMethod with
  | some i => some (some { dmsdpParsedInit with type := UInt32.ofNat i })
  | none =>
      let response ← (if line1 < 10 then some false else memcmp mem 0 (ascii "DMSDP/1.0 ") 10)
      if response = false ∨ line1 - 10 > 12 then some none
      else
        let digits ← skipWhile mem isDigit 10 (line1 - 10)
        let d := 10 + digits
        if d = 10 ∨ d = line1 then some none
        else
          let c ← mem[d]?
          if c ≠ 32 then some none
          else
            let r ← dmsdpParseInteger mem 10 (d - 10)
            match r with
            | .error _ => some none
            | .ok status =>
                some (some { dmsdpParsedInit with
                  type := dmsdpTypeResponse, responseFail := if status ≠ 200 then 1 else 0 })

/-- The header lines from `pos` on, and the position of the body. -/
def dmsdpHeaders (mem : Bytes) (pos : ℕ) (out : DmsdpParsed) :
    Option (Except ℤ (DmsdpParsed × ℕ)) :=
  if pos < mem.length then do
    let found ← memmem mem pos (mem.length - pos) crlf
    match found with
    | some ll =>
        if ll = 0 then some (.ok (out, pos + 2))
        else
          let r ← dmsdpAnalyzeLine mem pos ll out
          match r with
          | .error rc => some (.error rc)
          | .ok out => dmsdpHeaders mem (pos + (ll + 2)) out
    | none =>
        let ll := mem.length - pos
        if ll < 2 then some (.error (-2))
        else
          let r ← dmsdpAnalyzeLine mem pos ll out
          match r with
          | .error rc => some (.error rc)
          | .ok out => some (.ok (out, mem.length))
  else some (.ok (out, pos))
termination_by mem.length - pos

def dmsdpBody (mem : Bytes) (bodyStart : ℕ) (out : DmsdpParsed) :
    Option (Except ℤ DmsdpParsed) :=
  if out.contentLength > 0 then
    let bodyLen := mem.length - bodyStart
    if bodyLen ≠ out.contentLength.toNat then some (.error (-2))
    else do
      let matched ← findLiteral mem bodyStart bodyLen 0 dmsdpTriggerBodies
      match matched with
      | none => some (.error (-2))
      | some i => some (.ok { out with triggerIdx := UInt32.ofNat (i + 1) })
  else if bodyStart = 0 then some (.error (-2))
  else some (.ok out)

def dmsdpParse (mem : Bytes) : Option (Except ℤ DmsdpParsed) :=
  if mem.length = 0 then some (.error (-2))
  else do
    let found ← memmem mem 0 mem.length crlf
    match found with
    | none => some (.error (-2))
    | some line1 =>
        let start ← dmsdpStartLine mem line1
        match start with
        | none => some (.error (-2))
        | some out =>
            let r ← dmsdpHeaders mem (line1 + 2) out
            match r with
            | .error rc => some (.error rc)
            | .ok (out, bodyStart) => dmsdpBody mem bodyStart out

end HwPhoneLink.Dmsdp.Checked
