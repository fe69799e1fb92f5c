import HwPhoneLink.Dmsdp.Text

/-!
# Building a DMSDP message

`dmsdp_build`, `dmsdp_frame` and the message helpers of `dmsdp.c`. The headers
come in a fixed order; a string that a set flag needs and that is NULL ends the
build.
-/

namespace HwPhoneLink.Dmsdp

open BigEndian Path HwPhoneLink.Testfile

def dmsdpFrameTypeNocrypto : UInt8 := 0
def dmsdpFrameMaxPayload : ℕ := 0x5dc
def dmsdpTextMax : ℕ := 0x578

def dmsdpFlagCseq : UInt32 := 0x00000001
def dmsdpFlagCryptoVer : UInt32 := 0x00000002
def dmsdpFlagCryptoSwitch : UInt32 := 0x00000004
def dmsdpFlagCryptoAlg : UInt32 := 0x00000008
def dmsdpFlagCryptoAbility : UInt32 := 0x00000010
def dmsdpFlagUdpKa : UInt32 := 0x00000020
def dmsdpFlagFillp : UInt32 := 0x00000080
def dmsdpFlagCodec : UInt32 := 0x00000100
def dmsdpFlagTcp : UInt32 := 0x00000200
def dmsdpFlagServiceId : UInt32 := 0x00000400
def dmsdpFlagServiceType : UInt32 := 0x00000800
def dmsdpFlagDataSessionId : UInt32 := 0x00001000
def dmsdpFlagTransportClient : UInt32 := 0x00002000
def dmsdpFlagTransportCombined : UInt32 := 0x00004000
def dmsdpFlagKaRetry : UInt32 := 0x00400000
def dmsdpFlag2Backup : UInt32 := 0x2
def dmsdpFlag2Simple : UInt32 := 0x8
def dmsdpFlag2PolyPackage : UInt32 := 0x10

structure DmsdpMsg where
  type : UInt32
  status : UInt32
  flags1 : UInt32
  flags2 : UInt32
  cseq : UInt32
  serviceId : Option Bytes
  serviceType : UInt32
  dataSessionId : UInt32
  cryptoVer : UInt8
  cryptoSwitch : UInt8
  cryptoAbility : UInt8
  cryptoAlg : Option Bytes
  udpKa : UInt8
  fillp : UInt8
  tcp : UInt8
  codec : UInt32
  kaRetry : UInt32
  backup : UInt32
  simple : UInt32
  polyPackage : UInt32
  clientPortLo : UInt32
  clientPortHi : UInt32
  serverPortLo : UInt32
  serverPortHi : UInt32
deriving DecidableEq, Repr

/-! ## Lines -/

/-- `%u` -/
def decimal (n : ℕ) : Bytes := ascii (toString n)

def headerLine (name : String) (value : Bytes) : Bytes := ascii name ++ ascii ": " ++ value ++ crlf

def unsignedLine (name : String) (n : ℕ) : Option Bytes := some (headerLine name (decimal n))

def stringLine (name : String) (s : Option Bytes) : Option Bytes :=
  s.map fun s => headerLine name (cString s)

/-- The range of a transport attribute. -/
def portRange (lo hi : UInt32) : Bytes := decimal lo.toNat ++ ascii "-" ++ decimal hi.toNat

/-- A line under a flag; `none` is the missing string. -/
def emitIf (set : Bool) (line : Option Bytes) : List (Option Bytes) := if set then [line] else []

/-- The emissions of a message, in order. -/
def dmsdpEmits (msg : DmsdpMsg) : List (Option Bytes) :=
  let has (flag : UInt32) : Bool := decide (msg.flags1 &&& flag ≠ 0)
  let has2 (flag : UInt32) : Bool := decide (msg.flags2 &&& flag ≠ 0)
  let client := ascii "client_port=" ++ portRange msg.clientPortLo msg.clientPortHi
  let server := ascii ";server_port=" ++ portRange msg.serverPortLo msg.serverPortHi
  [some (if msg.type = dmsdpTypeResponse then ascii "DMSDP/1.0 200 OK\r\n"
    else dmsdpMethodLines.getD msg.type.toNat [])] ++
  emitIf (has dmsdpFlagCseq) (unsignedLine "CSeq" msg.cseq.toNat) ++
  emitIf (has dmsdpFlagServiceId) (stringLine "ServiceID" msg.serviceId) ++
  emitIf (has dmsdpFlagServiceType) (unsignedLine "ServiceType" msg.serviceType.toNat) ++
  emitIf (has dmsdpFlagDataSessionId) (unsignedLine "DataSessionID" msg.dataSessionId.toNat) ++
  emitIf (has dmsdpFlagCryptoVer) (unsignedLine "CryptoVer" msg.cryptoVer.toNat) ++
  emitIf (has dmsdpFlagCryptoSwitch) (unsignedLine "CryptoSwitch" msg.cryptoSwitch.toNat) ++
  emitIf (has dmsdpFlagCryptoAbility) (unsignedLine "CryptoAbility" msg.cryptoAbility.toNat) ++
  emitIf (has dmsdpFlagCryptoAlg) (stringLine "CryptoAlg" msg.cryptoAlg) ++
  emitIf (has dmsdpFlagFillp) (unsignedLine "Fillp" msg.fillp.toNat) ++
  emitIf (has dmsdpFlagCodec) (unsignedLine "Codec" msg.codec.toNat) ++
  emitIf (has dmsdpFlagTcp) (unsignedLine "TCP" msg.tcp.toNat) ++
  emitIf (has2 dmsdpFlag2Backup) (unsignedLine "Backup" msg.backup.toNat) ++
  emitIf (has2 dmsdpFlag2Simple) (unsignedLine "Simple" msg.simple.toNat) ++
  emitIf (has2 dmsdpFlag2PolyPackage) (unsignedLine "PolyPackage" msg.polyPackage.toNat) ++
  emitIf (has dmsdpFlagUdpKa) (unsignedLine "UdpKA" msg.udpKa.toNat) ++
  emitIf (has dmsdpFlagKaRetry) (unsignedLine "KaRetry" msg.kaRetry.toNat) ++
  -- the combined line overrides the client's
  (if has dmsdpFlagTransportCombined then
    [some (headerLine "Transport" (ascii "RTP/AVP/UDP;unicast;" ++ client ++ server))]
  else
    emitIf (has dmsdpFlagTransportClient)
      (some (headerLine "Transport" (ascii "RTP/AVP/UDP;unicast;" ++ client)))) ++
  [some crlf]

/-- `EMIT`: the text must stay below the size of the buffer. -/
def emit (buf : Bytes) (line : Option Bytes) : Option Bytes :=
  line.bind fun line => if line.length ≥ dmsdpTextMax - buf.length then none else some (buf ++ line)

def dmsdpBuild (msg : DmsdpMsg) (cap : ℕ) : Option Bytes :=
  if msg.type > 8 then none
  else if msg.type = dmsdpTypeResponse ∧ msg.status ≠ 200 then none
  else ((dmsdpEmits msg).foldlM emit []).bind fun text =>
    if cap < text.length then none else some text

/-- A NULL buffer has no room. -/
def dmsdpFrame (text : Bytes) (cap : ℕ) : Option Bytes :=
  if text.length > dmsdpFrameMaxPayload then none
  else if cap < 3 + text.length then none
  else some (dmsdpFrameTypeNocrypto :: putU16 (UInt16.ofNat text.length) ++ text)

/-! ## Messages -/

def dmsdpMsgZero : DmsdpMsg where
  type := 0
  status := 0
  flags1 := 0
  flags2 := 0
  cseq := 0
  serviceId := none
  serviceType := 0
  dataSessionId := 0
  cryptoVer := 0
  cryptoSwitch := 0
  cryptoAbility := 0
  cryptoAlg := none
  udpKa := 0
  fillp := 0
  tcp := 0
  codec := 0
  kaRetry := 0
  backup := 0
  simple := 0
  polyPackage := 0
  clientPortLo := 0
  clientPortHi := 0
  serverPortLo := 0
  serverPortHi := 0

def dmsdpMsgSetup (cseq : UInt32) (serviceId : Option Bytes) (serviceType dataSessionId backup
    clientPortLo clientPortHi : UInt32) : DmsdpMsg :=
  { dmsdpMsgZero with
    type := dmsdpTypeSetup
    flags1 := 0x3c01
    flags2 := dmsdpFlag2Backup
    cseq := cseq
    serviceId := serviceId
    serviceType := serviceType
    dataSessionId := dataSessionId
    backup := backup
    clientPortLo := clientPortLo
    clientPortHi := clientPortHi }

def dmsdpMsgPlay (cseq : UInt32) (serviceId : Option Bytes) (serviceType dataSessionId : UInt32) :
    DmsdpMsg :=
  { dmsdpMsgZero with
    type := dmsdpTypePlay
    flags1 := 0x1c01
    cseq := cseq
    serviceId := serviceId
    serviceType := serviceType
    dataSessionId := dataSessionId }

end HwPhoneLink.Dmsdp
