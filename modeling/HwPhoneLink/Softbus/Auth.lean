import HwPhoneLink.Softbus.Crypto

/-!
# The authentication state machine

`softbus_auth.c` in PSK mode: `softbus_auth_begin_active`, `softbus_auth_feed`
and `softbus_auth_retry_due` on one context. What a call reads from its
surroundings (the clock, random bytes, whether the OpenSSL calls succeed, what
the signature buffer held before, whether the caller wants the reply) is its
`AuthEnv`. The discovered peer record is not read by these functions.

`transcript` is a history that the source does not keep: what the passive side
has computed its signature over, and what the active side has accepted one for.
-/

namespace HwPhoneLink.Softbus

open BigEndian

/-! ## Constants -/

def authNonceLen : ℕ := 16
def authSigLen : ℕ := 32
def softbusAuthStateTimeoutMs : UInt64 := 30000
def softbusAuthRetries : ℕ := 3
def softbusAuthTypePsk : Int64 := 3
def softbusProtoVersion : Int64 := 1

inductive SoftbusAuthState : Type where
  | idle | syncNegotiation | syncDeviceId | deviceAuth | syncDeviceInfo | done | failed
deriving DecidableEq, Repr

/-- The number of the state in messages. -/
def SoftbusAuthState.code : SoftbusAuthState → Int64
  | .idle => 0
  | .syncNegotiation => 1
  | .syncDeviceId => 2
  | .deviceAuth => 3
  | .syncDeviceInfo => 4
  | .done => 5
  | .failed => 6

inductive SoftbusAuthResult : Type where
  | noop | send | complete | failed
deriving DecidableEq, Repr

/-! ## State -/

structure AuthNonce where
  bytes : Bytes
  length_eq : bytes.length = authNonceLen
deriving DecidableEq

/-- What a signature is computed over. -/
structure AuthTranscript where
  nonceA : AuthNonce
  nonceP : AuthNonce
  idA : Bytes
  idP : Bytes
deriving DecidableEq

/-- The fields of the local device record that are sent. -/
structure SoftbusDevice where
  deviceId : Option Bytes
  deviceName : Option Bytes
  capabilities : UInt32
deriving DecidableEq

structure SoftbusAuth where
  device : SoftbusDevice
  psk : Option Bytes
  state : SoftbusAuthState
  isActive : Bool
  awaitingReply : Bool
  authId : UInt64
  retryCount : ℕ
  stateEnteredMs : UInt64
  peerDeviceId : Option Bytes
  activeNonce : AuthNonce
  controlKey : Bytes
  dataKey : Bytes
  keysReady : Bool
  -- history
  transcript : Option AuthTranscript
deriving DecidableEq

structure AuthEnv where
  nowMs : UInt64
  nonceP : AuthNonce
  hmacOk : Bool
  controlOk : Bool
  dataOk : Bool
  stack : Bytes
  stack_length : stack.length = authSigLen
  wantsReply : Bool

/-- `softbus_auth_new` with the auth id and the nonce it draws. -/
def softbusAuthNew (device : SoftbusDevice) (psk : Option Bytes) (authId : UInt64)
    (activeNonce : AuthNonce) : SoftbusAuth where
  device := device
  psk := psk
  state := .idle
  isActive := false
  awaitingReply := false
  authId := authId
  retryCount := 0
  stateEnteredMs := 0
  peerDeviceId := none
  activeNonce := activeNonce
  controlKey := List.replicate softbusSessionKeyLen 0
  dataKey := List.replicate softbusSessionKeyLen 0
  keysReady := false
  transcript := none

/-! ## Key getters -/

def softbusAuthGetControlKey (a : SoftbusAuth) : Option Bytes :=
  if a.keysReady then some a.controlKey else none

def softbusAuthGetDataKey (a : SoftbusAuth) : Option Bytes :=
  if a.keysReady then some a.dataKey else none

def softbusAuthGetKeyLen (a : SoftbusAuth) : ℕ :=
  if a.keysReady then softbusSessionKeyLen else 0

/-! ## Helpers -/

def enterState (env : AuthEnv) (a : SoftbusAuth) (s : SoftbusAuthState) : SoftbusAuth :=
  { a with state := s, retryCount := 0, stateEnteredMs := env.nowMs }

def authFail (a : SoftbusAuth) : SoftbusAuth := { a with state := .failed, awaitingReply := false }

/-- The header members of a message. -/
def newMsg (a : SoftbusAuth) (s : SoftbusAuthState) : JsonObject :=
  [("authState", .integer s.code), ("authId", .integer a.authId.toInt64)]

/-- A string member that is left out when it is NULL. -/
def stringMember (name : String) (value : Option Bytes) : JsonObject :=
  (value.map fun s => (name, JsonNode.string s)).toList

/-- A parsed message with its header. -/
structure AuthMsg where
  obj : JsonObject
  authState : Int32
  authId : UInt64

def parseHeader (json : JsonGlib) (text : Bytes) : Except String AuthMsg :=
  match json.parse text with
  | .error e => .error e
  | .ok (.object obj) =>
      .ok { obj := obj
            authState := (jsonObjectGetIntMember obj "authState").toInt32
            authId := (jsonObjectGetIntMember obj "authId").toUInt64 }
  | .ok _ => .error "auth msg is not a JSON object"

/-- `nonce_active || nonce_passive || id_active || id_passive` -/
def AuthTranscript.message (t : AuthTranscript) : Bytes :=
  t.nonceA.bytes ++ (t.nonceP.bytes ++ (t.idA ++ t.idP))

/-- Constant-time comparison (no early exit). -/
def constTimeEq (x y : Bytes) : Bool :=
  (x.zip y).foldl (fun diff p => diff ||| (p.1 ^^^ p.2)) 0 == 0

/-- A nonce in hex. -/
def nonceOfHex (hex : Bytes) : Option AuthNonce :=
  match softbusFromHex hex authNonceLen with
  | none => none
  | some bs => if h : bs.length = authNonceLen then some ⟨bs, h⟩ else none

/-- The signature buffer after decoding: a short signature leaves the end as it was. -/
def rxSig (env : AuthEnv) (sig : Bytes) : Bytes := sig ++ env.stack.drop sig.length

/-- The outcome of a call. -/
structure AuthReply where
  auth : SoftbusAuth
  result : SoftbusAuthResult
  outJson : Option Bytes
  error : Option String

/-- Fail the exchange. -/
def authFailed (a : SoftbusAuth) (error : String) : AuthReply :=
  ⟨authFail a, .failed, none, some error⟩

def authNoop (a : SoftbusAuth) (error : String) : AuthReply := ⟨a, .noop, none, some error⟩

section Feed

variable (crypto : SoftbusCrypto) (json : JsonGlib)

def computeSig (env : AuthEnv) (a : SoftbusAuth) (t : AuthTranscript) : Option Bytes :=
  match a.psk with
  | none => none
  | some psk => if env.hmacOk then some (crypto.hmacSha256 psk t.message) else none

/-- The control key is stored even when the data key fails. -/
def deriveKeys (env : AuthEnv) (a : SoftbusAuth) : SoftbusAuth :=
  match a.psk, a.peerDeviceId, a.device.deviceId with
  | some psk, some peerId, some localId =>
      let keys := softbusHkdfSessionKeys crypto localId peerId psk
      if env.controlOk then
        if env.dataOk then { a with controlKey := keys.1, dataKey := keys.2, keysReady := true }
        else { a with controlKey := keys.1 }
      else a
  | _, _, _ => a

/-- Send a message if the caller takes one. -/
def authSend (env : AuthEnv) (a : SoftbusAuth) (msg : JsonObject) : AuthReply :=
  if env.wantsReply then ⟨a, .send, some (json.generate msg), none⟩ else ⟨a, .noop, none, none⟩

/-! ## Active start -/

def softbusAuthBeginActive (env : AuthEnv) (a : SoftbusAuth) : AuthReply :=
  if a.state ≠ .idle then authNoop a "auth already started"
  else
    let a := enterState env { a with isActive := true, awaitingReply := true } .syncNegotiation
    authSend json env a
      (newMsg a .syncNegotiation ++ [("protoVersion", .integer softbusProtoVersion)])

/-! ## Feed -/

/-- Passive: receive negotiation. -/
def feedNegotiation (env : AuthEnv) (a : SoftbusAuth) (m : AuthMsg) : AuthReply :=
  let state := m.authState
  if a.isActive ∨ m.authState ≠ SoftbusAuthState.syncNegotiation.code.toInt32 then
    authFailed a s!"unexpected negotiation (state={state})"
  else
    let pv := jsonObjectGetIntMember m.obj "protoVersion"
    if jsonObjectHasMember m.obj "protoVersion" ∧ pv ≠ softbusProtoVersion then
      authFailed a s!"unsupported proto version {pv}"
    else
      let a := enterState env { a with isActive := false, awaitingReply := true } .syncDeviceId
      authSend json env a (newMsg a .syncDeviceId ++ stringMember "deviceId" a.device.deviceId)

/-- Active: receive device id. -/
def feedDeviceId (env : AuthEnv) (a : SoftbusAuth) (m : AuthMsg) : AuthReply :=
  let state := m.authState
  if a.isActive = false ∨ m.authState ≠ SoftbusAuthState.syncDeviceId.code.toInt32 then
    authFailed a s!"expected device-id, got state={state}"
  else
    match jsonObjectGetStringMember m.obj "deviceId" with
    | none => authFailed a "missing deviceId"
    | some peerId =>
        let a := enterState env { a with peerDeviceId := some peerId, awaitingReply := true }
          .deviceAuth
        authSend json env a (newMsg a .deviceAuth ++
          [("authType", .integer softbusAuthTypePsk),
            ("nonce", .string (softbusToHex a.activeNonce.bytes))] ++
          stringMember "deviceId" a.device.deviceId)

/-- Passive: receive auth request. -/
def feedAuthRequest (env : AuthEnv) (a : SoftbusAuth) (m : AuthMsg) : AuthReply :=
  let state := m.authState
  if a.isActive ∨ m.authState ≠ SoftbusAuthState.deviceAuth.code.toInt32 then
    authFailed a s!"expected auth-request, got state={state}"
  else
    match a.device.deviceId with
    | none => authFailed a "local device has no id"
    | some localId =>
        match jsonObjectGetStringMember m.obj "nonce" with
        | none => authFailed a "missing nonce"
        | some nonceHex =>
            match nonceOfHex nonceHex with
            | none => authFailed a "bad nonce encoding"
            | some nonceA =>
                let a := { a with peerDeviceId :=
                  (jsonObjectGetStringMember m.obj "deviceId").or a.peerDeviceId }
                match a.peerDeviceId with
                | none => authFailed a "missing peer deviceId"
                | some peerId =>
                    let t : AuthTranscript := ⟨nonceA, env.nonceP, peerId, localId⟩
                    match computeSig crypto env a t with
                    | none => authFailed a "signature compute failed"
                    | some sig =>
                        let a := { deriveKeys crypto env a with
                          awaitingReply := true, transcript := some t }
                        let a := enterState env a .syncDeviceInfo
                        authSend json env a (newMsg a .deviceAuth ++
                          [("authType", .integer softbusAuthTypePsk),
                            ("nonce", .string (softbusToHex env.nonceP.bytes)),
                            ("signature", .string (softbusToHex sig))])

/-- The device info that the active side sends last. -/
def deviceInfoMsg (a : SoftbusAuth) : JsonObject :=
  newMsg a .syncDeviceInfo ++ stringMember "deviceName" a.device.deviceName ++
    [("capabilities", .integer (Int64.ofNat a.device.capabilities.toNat)),
      ("sessionKeyLen", .integer (Int64.ofNat softbusSessionKeyLen))]

/-- What an auth response claims to be signed, and the signature buffer. -/
def authResponseFields (env : AuthEnv) (a : SoftbusAuth) (m : AuthMsg) :
    Except String (AuthTranscript × Bytes) :=
  match a.device.deviceId, a.peerDeviceId with
  | some localId, some peerId =>
      match jsonObjectGetStringMember m.obj "nonce",
        jsonObjectGetStringMember m.obj "signature" with
      | some nonceHex, some sigHex =>
          match nonceOfHex nonceHex with
          | none => .error "bad peer nonce"
          | some nonceP =>
              match softbusFromHex sigHex authSigLen with
              | none => .error "bad signature encoding"
              | some sig => .ok (⟨a.activeNonce, nonceP, localId, peerId⟩, rxSig env sig)
      | _, _ => .error "missing nonce/signature"
  | _, _ => .error "device ids unknown"

/-- Active: receive auth response. -/
def feedAuthResponse (env : AuthEnv) (a : SoftbusAuth) (m : AuthMsg) : AuthReply :=
  let state := m.authState
  if a.isActive = false ∨ m.authState ≠ SoftbusAuthState.deviceAuth.code.toInt32 then
    authFailed a s!"expected auth-response, got state={state}"
  else
    match authResponseFields env a m with
    | .error e => authFailed a e
    | .ok (t, sig) =>
        match computeSig crypto env a t with
        | none => authFailed a "signature mismatch (auth failed)"
        | some expSig =>
            if constTimeEq sig expSig then
              let a := deriveKeys crypto env a
              if a.keysReady then
                let a := { a with awaitingReply := false, state := .done, transcript := some t }
                ⟨a, .complete, if env.wantsReply then
                  some (json.generate (deviceInfoMsg a)) else none, none⟩
              else authFailed a "key derivation failed"
            else authFailed a "signature mismatch (auth failed)"

/-- Passive: receive device info. -/
def feedDeviceInfo (env : AuthEnv) (a : SoftbusAuth) (m : AuthMsg) : AuthReply :=
  let state := m.authState
  if a.isActive ∨ m.authState ≠ SoftbusAuthState.syncDeviceInfo.code.toInt32 then
    authFailed a s!"expected device-info, got state={state}"
  else if a.keysReady = false then authFailed a "keys not derived"
  else ⟨enterState env { a with awaitingReply := false } .done, .complete, none, none⟩

/-- The switch on the state, for a message that belongs to the exchange. -/
def feedMsg (env : AuthEnv) (a : SoftbusAuth) (m : AuthMsg) : AuthReply :=
  match a.state with
  | .idle => feedNegotiation json env a m
  | .syncNegotiation => feedDeviceId json env a m
  | .syncDeviceId => feedAuthRequest crypto json env a m
  | .deviceAuth => feedAuthResponse crypto json env a m
  | .syncDeviceInfo => feedDeviceInfo env a m
  | .done => authNoop a "unexpected state 5"
  | .failed => authNoop a "unexpected state 6"

def softbusAuthFeed (env : AuthEnv) (a : SoftbusAuth) (text : Bytes) : AuthReply :=
  if text = [] then authNoop a "empty message"
  else if a.isActive ∧ a.state = .idle then
    authNoop a "auth not started (call softbus_auth_begin_active first)"
  else if a.state = .done then authNoop a "auth already complete"
  else if a.state = .failed then authNoop a "auth already failed"
  else
    match parseHeader json text with
    | .error e => authNoop a e
    | .ok m =>
        -- the passive side takes the auth id of the first message
        if a.isActive = false ∧ a.state = .idle then
          feedMsg crypto json env { a with authId := m.authId } m
        else if m.authId ≠ a.authId then authFailed a "authId mismatch"
        else feedMsg crypto json env a m

end Feed

/-! ## Retry -/

def softbusAuthRetryDue (a : SoftbusAuth) (nowMs : UInt64) : SoftbusAuth × Bool :=
  if a.state = .failed ∨ a.state = .done then (a, false)
  else if a.awaitingReply = false then (a, false)
  else if nowMs < a.stateEnteredMs then (a, false)
  else if nowMs - a.stateEnteredMs < softbusAuthStateTimeoutMs then (a, false)
  else if a.retryCount ≥ softbusAuthRetries then (authFail a, false)
  else ({ a with retryCount := a.retryCount + 1, stateEnteredMs := nowMs }, true)

/-! ## Completion -/

section Completion

variable {crypto : SoftbusCrypto} {json : JsonGlib} (env : AuthEnv) (a : SoftbusAuth) (m : AuthMsg)

/-- A call that completes leaves the authentication done. -/
def AuthReply.Honest (r : AuthReply) : Prop := r.result = .complete → r.auth.state = .done

theorem AuthReply.honest_of_ne {r : AuthReply} (h : r.result ≠ .complete) : r.Honest :=
  fun hr => absurd hr h

theorem authFailed_honest (error : String) : (authFailed a error).Honest :=
  AuthReply.honest_of_ne (fun h => by cases h)

theorem authNoop_honest (error : String) : (authNoop a error).Honest :=
  AuthReply.honest_of_ne (fun h => by cases h)

theorem authSend_honest (msg : JsonObject) : (authSend json env a msg).Honest := by
  unfold authSend
  split
  · exact AuthReply.honest_of_ne (fun h => by cases h)
  · exact AuthReply.honest_of_ne (fun h => by cases h)

theorem feedNegotiation_honest : (feedNegotiation json env a m).Honest := by
  unfold feedNegotiation
  simp only
  split
  · exact authFailed_honest _ _
  split
  · exact authFailed_honest _ _
  · exact authSend_honest _ _ _

theorem feedDeviceId_honest : (feedDeviceId json env a m).Honest := by
  unfold feedDeviceId
  simp only
  split
  · exact authFailed_honest _ _
  split
  · exact authFailed_honest _ _
  · exact authSend_honest _ _ _

theorem feedAuthRequest_honest : (feedAuthRequest crypto json env a m).Honest := by
  unfold feedAuthRequest
  simp only
  split
  · exact authFailed_honest _ _
  split
  · exact authFailed_honest _ _
  split
  · exact authFailed_honest _ _
  split
  · exact authFailed_honest _ _
  split
  · exact authFailed_honest _ _
  split
  · exact authFailed_honest _ _
  · exact authSend_honest _ _ _

theorem feedAuthResponse_honest : (feedAuthResponse crypto json env a m).Honest := by
  unfold feedAuthResponse
  simp only
  split
  · exact authFailed_honest _ _
  split
  · exact authFailed_honest _ _
  split
  · exact authFailed_honest _ _
  split
  · split
    · exact fun _ => rfl
    · exact authFailed_honest _ _
  · exact authFailed_honest _ _

theorem feedDeviceInfo_honest : (feedDeviceInfo env a m).Honest := by
  unfold feedDeviceInfo
  simp only
  split
  · exact authFailed_honest _ _
  split
  · exact authFailed_honest _ _
  · exact fun _ => rfl

theorem feedMsg_honest : (feedMsg crypto json env a m).Honest := by
  unfold feedMsg
  split
  · exact feedNegotiation_honest env a m
  · exact feedDeviceId_honest env a m
  · exact feedAuthRequest_honest env a m
  · exact feedAuthResponse_honest env a m
  · exact feedDeviceInfo_honest env a m
  · exact authNoop_honest _ _
  · exact authNoop_honest _ _

theorem softbusAuthFeed_honest (text : Bytes) :
    (softbusAuthFeed crypto json env a text).Honest := by
  unfold softbusAuthFeed
  split
  · exact authNoop_honest _ _
  split
  · exact authNoop_honest _ _
  split
  · exact authNoop_honest _ _
  split
  · exact authNoop_honest _ _
  split
  · exact authNoop_honest _ _
  split
  · exact feedMsg_honest env _ _
  split
  · exact authFailed_honest _ _
  · exact feedMsg_honest env _ _

end Completion

end HwPhoneLink.Softbus
