import HwPhoneLink.Softbus.Passive

/-!
# An exchange from end to end

The messages of two contexts relayed in order, what a context that has ended
does with further calls, and what a message that does not belong does to a
context that has started. The JSON library only has to read back the five
messages of the exchange.
-/

namespace HwPhoneLink.Softbus

open BigEndian Transitions
open Fillp (Side)
open Testfile (ascii)

/-! ## Hex and the salt -/

theorem hexByte : ∀ b : Fin 256,
    (do let hi ← hexNibble (hexDigit (UInt8.ofNat b >>> 4))
        let lo ← hexNibble (hexDigit (UInt8.ofNat b &&& 0x0f))
        some (hi <<< 4 ||| lo)) = some (UInt8.ofNat b) := by
  decide +kernel

theorem fromHexLoop_toHex : ∀ data : Bytes, fromHexLoop (softbusToHex data) = some data
  | [] => rfl
  | b :: data => by
      have hbyte := hexByte ⟨b.toNat, b.toNat_lt⟩
      rw [UInt8.ofNat_toNat] at hbyte
      obtain ⟨hi, hhi, hbyte⟩ := Option.bind_eq_some_iff.mp hbyte
      obtain ⟨lo, hlo, hbyte⟩ := Option.bind_eq_some_iff.mp hbyte
      cases hbyte
      show fromHexLoop (_ :: _ :: softbusToHex data) = _
      rw [fromHexLoop, hhi, hlo, fromHexLoop_toHex data]
      rfl

theorem softbusToHex_length (data : Bytes) : (softbusToHex data).length = 2 * data.length := by
  induction data with
  | nil => rfl
  | cons b data ih =>
      show (softbusToHex data).length + 2 = _
      rw [ih, List.length_cons]
      omega

theorem softbusFromHex_toHex {data : Bytes} {outCap : ℕ} (h : data.length ≤ outCap) :
    softbusFromHex (softbusToHex data) outCap = some data := by
  have hlen := softbusToHex_length data
  rw [softbusFromHex, if_neg (by omega), if_neg (by omega), fromHexLoop_toHex]

theorem nonceOfHex_toHex (nonce : AuthNonce) : nonceOfHex (softbusToHex nonce.bytes) = some nonce := by
  rw [nonceOfHex, softbusFromHex_toHex nonce.length_eq.le]
  simp only
  rw [dif_pos nonce.length_eq]

/-- Both sides compute the same salt regardless of who is local. -/
theorem softbusSalt_comm (a b : Bytes) : softbusSalt a b = softbusSalt b a := by
  unfold softbusSalt
  by_cases hba : b < a
  · rw [if_pos hba, if_neg (List.lt_asymm hba)]
  by_cases hab : a < b
  · rw [if_neg hba, if_pos hab]
  · have : a = b := List.le_antisymm (List.not_lt.mp hba) (List.not_lt.mp hab)
    rw [this]

theorem softbusHkdfSessionKeys_comm (crypto : SoftbusCrypto) (a b ikm : Bytes) :
    softbusHkdfSessionKeys crypto a b ikm = softbusHkdfSessionKeys crypto b a ikm := by
  rw [softbusHkdfSessionKeys, softbusHkdfSessionKeys, softbusSalt_comm a b]

/-! ## The relay -/

/-- The library reads back what it writes for an object. -/
structure JsonGlib.Faithful (json : JsonGlib) (o : JsonObject) : Prop where
  nonempty : json.generate o ≠ []
  parse : json.parse (json.generate o) = .ok (.object o)

/-- Feed the message to the one side and its reply to the other, until there is none. -/
def relay (crypto : SoftbusCrypto) (json : JsonGlib) : List AuthEnv → SoftbusAuth → SoftbusAuth →
    Option Bytes → SoftbusAuth × SoftbusAuth
  | env :: envs, dst, src, some text =>
      let r := softbusAuthFeed crypto json env dst text
      (relay crypto json envs src r.auth r.outJson).swap
  | _, dst, src, _ => (dst, src)

/-- The messages between an active side `a` with the id `idA` and a passive side with the id
`idP`, which draws the nonce `nonceP`. -/
def exchangeMsgs (crypto : SoftbusCrypto) (a : SoftbusAuth) (idA idP psk : Bytes)
    (nonceP : AuthNonce) : List JsonObject :=
  [newMsg a .syncNegotiation ++ [("protoVersion", .integer softbusProtoVersion)],
    newMsg a .syncDeviceId ++ [("deviceId", .string idP)],
    newMsg a .deviceAuth ++ [("authType", .integer softbusAuthTypePsk),
      ("nonce", .string (softbusToHex a.activeNonce.bytes)), ("deviceId", .string idA)],
    newMsg a .deviceAuth ++ [("authType", .integer softbusAuthTypePsk),
      ("nonce", .string (softbusToHex nonceP.bytes)),
      ("signature", .string (softbusToHex (crypto.hmacSha256 psk
        (AuthTranscript.mk a.activeNonce nonceP idA idP).message)))],
    deviceInfoMsg a]

section Stages

variable {crypto : SoftbusCrypto} {json : JsonGlib} {env : AuthEnv} {a b : SoftbusAuth}
  {s : SoftbusAuthState} {rest : JsonObject}

/-- A message as its receiver sees it. -/
theorem parseHeader_newMsg (h : json.Faithful (newMsg b s ++ rest)) :
    parseHeader json (json.generate (newMsg b s ++ rest)) =
      .ok ⟨newMsg b s ++ rest, s.code.toInt32, b.authId⟩ := by
  rw [parseHeader, h.parse]
  have hstate : jsonObjectGetIntMember (newMsg b s ++ rest) "authState" = s.code := by
    rfl
  have hid : jsonObjectGetIntMember (newMsg b s ++ rest) "authId" = b.authId.toInt64 := by
    rfl
  simp only [hstate, hid, UInt64.toUInt64_toInt64]

variable (crypto env) in
theorem softbusAuthFeed_first (h : json.Faithful (newMsg b s ++ rest)) (hidle : a.state = .idle)
    (hpassive : a.isActive = false) :
    softbusAuthFeed crypto json env a (json.generate (newMsg b s ++ rest)) =
      feedNegotiation json env { a with authId := b.authId }
        ⟨newMsg b s ++ rest, s.code.toInt32, b.authId⟩ := by
  rw [softbusAuthFeed, if_neg h.nonempty, parseHeader_newMsg h]
  simp [hidle, hpassive, feedMsg]

variable (crypto env) in
theorem softbusAuthFeed_next (h : json.Faithful (newMsg b s ++ rest)) (hid : b.authId = a.authId)
    (hidle : a.state ≠ .idle) (hdone : a.state ≠ .done) (hfailed : a.state ≠ .failed) :
    softbusAuthFeed crypto json env a (json.generate (newMsg b s ++ rest)) =
      feedMsg crypto json env a ⟨newMsg b s ++ rest, s.code.toInt32, b.authId⟩ := by
  rw [softbusAuthFeed, if_neg h.nonempty, parseHeader_newMsg h]
  simp [hidle, hdone, hfailed, hid]

theorem newMsg_congr (h : b.authId = a.authId) (s : SoftbusAuthState) : newMsg b s = newMsg a s := by
  rw [newMsg, newMsg, h]

theorem authSend_wanted (hreply : env.wantsReply = true) (msg : JsonObject) :
    authSend json env a msg = ⟨a, .send, some (json.generate msg), none⟩ := by
  rw [authSend, if_pos hreply]

/-- The OpenSSL calls succeed and the caller takes the reply. -/
structure AuthEnv.Ready (env : AuthEnv) : Prop where
  crypto : env.CryptoOk
  wantsReply : env.wantsReply = true

variable (crypto) in
theorem computeSig_ready (h : env.Ready) {psk : Bytes} (hpsk : a.psk = some psk)
    (t : AuthTranscript) : computeSig crypto env a t = some (crypto.hmacSha256 psk t.message) := by
  simp only [computeSig, hpsk, h.crypto.1, if_true]

theorem deriveKeys_ready (h : env.Ready) {psk peerId localId : Bytes} (hpsk : a.psk = some psk)
    (hpeer : a.peerDeviceId = some peerId) (hlocal : a.device.deviceId = some localId) :
    deriveKeys crypto env a = { a with
      controlKey := (softbusHkdfSessionKeys crypto localId peerId psk).1
      dataKey := (softbusHkdfSessionKeys crypto localId peerId psk).2, keysReady := true } := by
  simp only [deriveKeys, hpsk, hpeer, hlocal, h.crypto.2.1, h.crypto.2.2, if_true]

/-- A context that was `x₀` in the middle of the exchange `authId`. -/
structure InExchange (x₀ : SoftbusAuth) (authId : UInt64) (isActive : Bool)
    (state : SoftbusAuthState) (x : SoftbusAuth) : Prop where
  device : x.device = x₀.device
  psk : x.psk = x₀.psk
  activeNonce : x.activeNonce = x₀.activeNonce
  authId : x.authId = authId
  isActive : x.isActive = isActive
  state : x.state = state

variable (json) in
theorem softbusAuthBeginActive_ready (h : env.Ready) (hidle : a.state = .idle) :
    ∃ a', softbusAuthBeginActive json env a = ⟨a', .send, some (json.generate
        (newMsg a .syncNegotiation ++ [("protoVersion", .integer softbusProtoVersion)])), none⟩ ∧
      InExchange a a.authId true .syncNegotiation a' := by
  rw [softbusAuthBeginActive, if_neg (by simp [hidle])]
  simp only
  rw [authSend_wanted h.wantsReply]
  exact ⟨_, rfl, rfl, rfl, rfl, rfl, rfl, rfl⟩

variable {p x : SoftbusAuth} {idA idP psk : Bytes}

variable (json) in
theorem feedNegotiation_ready (h : env.Ready) (hpassive : p.isActive = false)
    (hid : p.authId = a.authId) (hidP : p.device.deviceId = some idP) :
    ∃ p', feedNegotiation json env p
        ⟨newMsg a .syncNegotiation ++ [("protoVersion", .integer softbusProtoVersion)],
          SoftbusAuthState.syncNegotiation.code.toInt32, a.authId⟩ =
        ⟨p', .send, some (json.generate (newMsg a .syncDeviceId ++ [("deviceId", .string idP)])),
          none⟩ ∧
      InExchange p a.authId false .syncDeviceId p' ∧ p'.peerDeviceId = p.peerDeviceId := by
  have hversion : jsonObjectGetIntMember (newMsg a .syncNegotiation ++
      [("protoVersion", .integer softbusProtoVersion)]) "protoVersion" = softbusProtoVersion := by
    rfl
  rw [feedNegotiation, if_neg (by simp [hpassive])]
  simp only
  rw [if_neg (by simp [hversion]), authSend_wanted h.wantsReply]
  set p' := enterState env { p with isActive := false, awaitingReply := true } .syncDeviceId
  have hp : p'.device.deviceId = some idP := hidP
  refine ⟨p', ?_, ⟨rfl, rfl, rfl, hid, rfl, rfl⟩, rfl⟩
  rw [hp, newMsg_congr (show p'.authId = a.authId from hid)]
  rfl

variable (json idP) in
theorem feedDeviceId_ready (h : env.Ready) (hx : InExchange a a.authId true .syncNegotiation x)
    (hidA : a.device.deviceId = some idA) :
    ∃ x', feedDeviceId json env x ⟨newMsg a .syncDeviceId ++ [("deviceId", .string idP)],
          SoftbusAuthState.syncDeviceId.code.toInt32, a.authId⟩ =
        ⟨x', .send, some (json.generate (newMsg a .deviceAuth ++
          [("authType", .integer softbusAuthTypePsk),
            ("nonce", .string (softbusToHex a.activeNonce.bytes)), ("deviceId", .string idA)])),
          none⟩ ∧
      InExchange a a.authId true .deviceAuth x' ∧ x'.peerDeviceId = some idP := by
  have hpeer : jsonObjectGetStringMember (newMsg a .syncDeviceId ++ [("deviceId", .string idP)])
      "deviceId" = some idP := by
    rfl
  rw [feedDeviceId, if_neg (by simp [hx.isActive])]
  simp only [hpeer]
  rw [authSend_wanted h.wantsReply]
  set x' := enterState env { x with peerDeviceId := some idP, awaitingReply := true } .deviceAuth
  have hx' : InExchange a a.authId true .deviceAuth x' :=
    ⟨hx.device, hx.psk, hx.activeNonce, hx.authId, hx.isActive, rfl⟩
  refine ⟨x', ?_, hx', rfl⟩
  rw [hx'.device, hidA, hx'.activeNonce, newMsg_congr hx'.authId]
  rfl

/-- The keys of the two ids. -/
structure HasKeys (crypto : SoftbusCrypto) (idA idP psk : Bytes) (x : SoftbusAuth) : Prop where
  keysReady : x.keysReady = true
  controlKey : x.controlKey = (softbusHkdfSessionKeys crypto idA idP psk).1
  dataKey : x.dataKey = (softbusHkdfSessionKeys crypto idA idP psk).2

variable (crypto json idA) in
/-- The passive side signs and derives its keys. -/
theorem feedAuthRequest_ready (h : env.Ready) (hx : InExchange p a.authId false .syncDeviceId x)
    (hpsk : p.psk = some psk) (hidP : p.device.deviceId = some idP) :
    ∃ x', feedAuthRequest crypto json env x
        ⟨newMsg a .deviceAuth ++ [("authType", .integer softbusAuthTypePsk),
            ("nonce", .string (softbusToHex a.activeNonce.bytes)), ("deviceId", .string idA)],
          SoftbusAuthState.deviceAuth.code.toInt32, a.authId⟩ =
        ⟨x', .send, some (json.generate (newMsg a .deviceAuth ++
          [("authType", .integer softbusAuthTypePsk),
            ("nonce", .string (softbusToHex env.nonceP.bytes)),
            ("signature", .string (softbusToHex (crypto.hmacSha256 psk
              (AuthTranscript.mk a.activeNonce env.nonceP idA idP).message)))])), none⟩ ∧
      InExchange p a.authId false .syncDeviceInfo x' ∧ HasKeys crypto idA idP psk x' := by
  have hnonce : jsonObjectGetStringMember (newMsg a .deviceAuth ++
      [("authType", .integer softbusAuthTypePsk),
        ("nonce", .string (softbusToHex a.activeNonce.bytes)), ("deviceId", .string idA)])
      "nonce" = some (softbusToHex a.activeNonce.bytes) := by
    rfl
  have hpeer : jsonObjectGetStringMember (newMsg a .deviceAuth ++
      [("authType", .integer softbusAuthTypePsk),
        ("nonce", .string (softbusToHex a.activeNonce.bytes)), ("deviceId", .string idA)])
      "deviceId" = some idA := by
    rfl
  have hlocal : x.device.deviceId = some idP := hx.device ▸ hidP
  have hkey : x.psk = some psk := hx.psk.trans hpsk
  rw [feedAuthRequest, if_neg (by simp [hx.isActive])]
  simp only [hlocal, hnonce, hpeer, nonceOfHex_toHex, Option.some_or]
  -- the id of the request is recorded before anything is signed
  set y := { x with peerDeviceId := some idA } with hy
  have hysig := computeSig_ready crypto (a := y) h hkey
    ⟨a.activeNonce, env.nonceP, idA, idP⟩
  rw [hysig, deriveKeys_ready h (a := y) hkey rfl hlocal]
  simp only
  rw [authSend_wanted h.wantsReply]
  set x' := enterState env { y with
    controlKey := (softbusHkdfSessionKeys crypto idP idA psk).1
    dataKey := (softbusHkdfSessionKeys crypto idP idA psk).2
    keysReady := true, awaitingReply := true
    transcript := some ⟨a.activeNonce, env.nonceP, idA, idP⟩ } .syncDeviceInfo
  have hx' : InExchange p a.authId false .syncDeviceInfo x' :=
    ⟨hx.device, hx.psk, hx.activeNonce, hx.authId, hx.isActive, rfl⟩
  refine ⟨x', ?_, hx', rfl, ?_, ?_⟩
  · rw [newMsg_congr hx'.authId]
  · show (softbusHkdfSessionKeys crypto idP idA psk).1 = _
    rw [softbusHkdfSessionKeys_comm]
  · show (softbusHkdfSessionKeys crypto idP idA psk).2 = _
    rw [softbusHkdfSessionKeys_comm]

variable (crypto json) in
/-- The active side computes the same signature, and the same keys. -/
theorem feedAuthResponse_ready (h : env.Ready) (hx : InExchange a a.authId true .deviceAuth x)
    (hpeer : x.peerDeviceId = some idP) (hpsk : a.psk = some psk)
    (hidA : a.device.deviceId = some idA) (nonceP : AuthNonce) :
    ∃ x', feedAuthResponse crypto json env x
        ⟨newMsg a .deviceAuth ++ [("authType", .integer softbusAuthTypePsk),
            ("nonce", .string (softbusToHex nonceP.bytes)),
            ("signature", .string (softbusToHex (crypto.hmacSha256 psk
              (AuthTranscript.mk a.activeNonce nonceP idA idP).message)))],
          SoftbusAuthState.deviceAuth.code.toInt32, a.authId⟩ =
        ⟨x', .complete, some (json.generate (deviceInfoMsg a)), none⟩ ∧
      InExchange a a.authId true .done x' ∧ HasKeys crypto idA idP psk x' := by
  set t : AuthTranscript := ⟨a.activeNonce, nonceP, idA, idP⟩
  set m := newMsg a .deviceAuth ++ [("authType", .integer softbusAuthTypePsk),
    ("nonce", .string (softbusToHex nonceP.bytes)),
    ("signature", .string (softbusToHex (crypto.hmacSha256 psk t.message)))] with hm
  have hlocal : x.device.deviceId = some idA := hx.device ▸ hidA
  have hkey : x.psk = some psk := hx.psk.trans hpsk
  have hnonce : jsonObjectGetStringMember m "nonce" = some (softbusToHex nonceP.bytes) := by
    rfl
  have hsig : jsonObjectGetStringMember m "signature" =
      some (softbusToHex (crypto.hmacSha256 psk t.message)) := by
    rfl
  have hlen : (crypto.hmacSha256 psk t.message).length = authSigLen := crypto.hmac_length _ _
  have hfields : authResponseFields env x ⟨m, SoftbusAuthState.deviceAuth.code.toInt32, a.authId⟩ =
      .ok (t, crypto.hmacSha256 psk t.message) := by
    have hrx : rxSig env (crypto.hmacSha256 psk t.message) = crypto.hmacSha256 psk t.message := by
      rw [rxSig, hlen, List.drop_eq_nil_of_le env.stack_length.le, List.append_nil]
    simp only [authResponseFields, hlocal, hpeer, hnonce, hsig, nonceOfHex_toHex,
      softbusFromHex_toHex hlen.le, hrx, hx.activeNonce]
    rfl
  rw [feedAuthResponse, if_neg (by simp [hx.isActive])]
  simp only [hfields]
  rw [computeSig_ready crypto h hkey, deriveKeys_ready h hkey hpeer hlocal]
  simp only [(constTimeEq_eq_true rfl).mpr rfl, if_true, h.wantsReply]
  set x' := { x with
    controlKey := (softbusHkdfSessionKeys crypto idA idP psk).1
    dataKey := (softbusHkdfSessionKeys crypto idA idP psk).2
    keysReady := true, awaitingReply := false, state := .done, transcript := some t }
  have hx' : InExchange a a.authId true .done x' :=
    ⟨hx.device, hx.psk, hx.activeNonce, hx.authId, hx.isActive, rfl⟩
  refine ⟨x', ?_, hx', rfl, rfl, rfl⟩
  rw [deviceInfoMsg, newMsg_congr hx'.authId, hx'.device]
  rfl

variable (env) in
theorem feedDeviceInfo_ready (hx : InExchange p a.authId false .syncDeviceInfo x)
    (hkeys : HasKeys crypto idA idP psk x) (obj : JsonObject) (authId : UInt64) :
    ∃ x', feedDeviceInfo env x ⟨obj, SoftbusAuthState.syncDeviceInfo.code.toInt32, authId⟩ =
        ⟨x', .complete, none, none⟩ ∧
      x'.state = .done ∧ HasKeys crypto idA idP psk x' := by
  rw [feedDeviceInfo, if_neg (by simp [hx.isActive]), if_neg (by simp [hkeys.keysReady])]
  exact ⟨_, rfl, rfl, hkeys.keysReady, hkeys.controlKey, hkeys.dataKey⟩

end Stages

/-- Both sides are done with the same keys. -/
structure Agreed (x y : SoftbusAuth) : Prop where
  done : x.state = .done ∧ y.state = .done
  keysReady : x.keysReady = true ∧ y.keysReady = true
  controlKey : x.controlKey = y.controlKey
  dataKey : x.dataKey = y.dataKey

/-- **The relay completes**, whatever the ids, the nonces and the two auth ids are. -/
theorem relay_agreed {crypto : SoftbusCrypto} {json : JsonGlib} {a p : SoftbusAuth}
    {idA idP psk : Bytes} (hidA : a.device.deviceId = some idA)
    (hidP : p.device.deviceId = some idP) (hpskA : a.psk = some psk) (hpskP : p.psk = some psk)
    (hidleA : a.state = .idle) (hidleP : p.state = .idle) (hpassive : p.isActive = false)
    {e₀ e₁ e₂ e₃ e₄ e₅ : AuthEnv} (hready : ∀ e ∈ [e₀, e₁, e₂, e₃, e₄, e₅], e.Ready)
    (hjson : ∀ o ∈ exchangeMsgs crypto a idA idP psk e₃.nonceP, json.Faithful o)
    (es : List AuthEnv) :
    Agreed (relay crypto json (e₁ :: e₂ :: e₃ :: e₄ :: e₅ :: es) p
        (softbusAuthBeginActive json e₀ a).auth (softbusAuthBeginActive json e₀ a).outJson).1
      (relay crypto json (e₁ :: e₂ :: e₃ :: e₄ :: e₅ :: es) p
        (softbusAuthBeginActive json e₀ a).auth (softbusAuthBeginActive json e₀ a).outJson).2 := by
  simp only [List.forall_mem_cons] at hready
  obtain ⟨h₀, h₁, h₂, h₃, h₄, h₅, -⟩ := hready
  simp only [exchangeMsgs, List.forall_mem_cons] at hjson
  obtain ⟨j₁, j₂, j₃, j₄, j₅, -⟩ := hjson
  -- the active side starts
  obtain ⟨a₁, hbegin, ha₁⟩ := softbusAuthBeginActive_ready json h₀ hidleA
  rw [hbegin]
  -- negotiation
  obtain ⟨p₁, hp₁, hinP₁, -⟩ := feedNegotiation_ready json (a := a)
    (p := { p with authId := a.authId }) h₁ hpassive rfl hidP
  have hfeed₁ := softbusAuthFeed_first crypto e₁ (a := p) j₁ hidleP hpassive
  rw [hp₁] at hfeed₁
  -- the device id of the passive side
  obtain ⟨a₂, ha₂, hinA₂, hpeer⟩ := feedDeviceId_ready json idP h₂ ha₁ hidA
  have hfeed₂ := softbusAuthFeed_next crypto e₂ j₂ ha₁.authId.symm
    (by simp [ha₁.state]) (by simp [ha₁.state]) (by simp [ha₁.state])
  rw [feedMsg, ha₁.state] at hfeed₂
  rw [ha₂] at hfeed₂
  -- the auth request
  obtain ⟨p₂, hp₂, hinP₂, hkeysP⟩ := feedAuthRequest_ready crypto json idA h₃ hinP₁ hpskP hidP
  have hfeed₃ := softbusAuthFeed_next crypto e₃ j₃
    hinP₁.authId.symm (by simp [hinP₁.state]) (by simp [hinP₁.state]) (by simp [hinP₁.state])
  rw [feedMsg, hinP₁.state] at hfeed₃
  rw [hp₂] at hfeed₃
  -- the auth response
  obtain ⟨a₃, ha₃, hinA₃, hkeysA⟩ := feedAuthResponse_ready crypto json h₄ hinA₂ hpeer hpskA hidA e₃.nonceP
  have hfeed₄ := softbusAuthFeed_next crypto e₄ j₄
    hinA₂.authId.symm (by simp [hinA₂.state]) (by simp [hinA₂.state]) (by simp [hinA₂.state])
  rw [feedMsg, hinA₂.state] at hfeed₄
  rw [ha₃] at hfeed₄
  -- device info
  rw [deviceInfoMsg, List.append_assoc] at j₅
  obtain ⟨p₃, hp₃, hdone, hkeysP'⟩ := feedDeviceInfo_ready e₅ hinP₂ hkeysP
    (newMsg a .syncDeviceInfo ++ (stringMember "deviceName" a.device.deviceName ++
      [("capabilities", .integer (Int64.ofNat a.device.capabilities.toNat)),
        ("sessionKeyLen", .integer (Int64.ofNat softbusSessionKeyLen))])) a.authId
  have hfeed₅ := softbusAuthFeed_next crypto e₅ j₅
    hinP₂.authId.symm (by simp [hinP₂.state]) (by simp [hinP₂.state]) (by simp [hinP₂.state])
  rw [feedMsg, hinP₂.state] at hfeed₅
  rw [hp₃] at hfeed₅
  rw [← List.append_assoc, ← deviceInfoMsg] at hfeed₅
  have hends : relay crypto json (e₁ :: e₂ :: e₃ :: e₄ :: e₅ :: es) p a₁ (some (json.generate
      (newMsg a .syncNegotiation ++ [("protoVersion", .integer softbusProtoVersion)]))) =
      (p₃, a₃) := by
    rw [relay, hfeed₁]
    simp only
    rw [relay, hfeed₂]
    simp only
    rw [relay, hfeed₃]
    simp only
    rw [relay, hfeed₄]
    simp only
    rw [relay, hfeed₅]
    simp only
    cases es <;> rfl
  rw [hends]
  exact ⟨⟨hdone, hinA₃.state⟩, ⟨hkeysP'.keysReady, hkeysA.keysReady⟩,
    hkeysP'.controlKey.trans hkeysA.controlKey.symm, hkeysP'.dataKey.trans hkeysA.dataKey.symm⟩

/-! ## Calls after the end, and messages that do not belong -/

section Calls

variable {crypto : SoftbusCrypto} {json : JsonGlib} {a : SoftbusAuth}

/-- A context has ended. -/
def SoftbusAuth.Ended (a : SoftbusAuth) : Prop := a.state = .done ∨ a.state = .failed

instance (a : SoftbusAuth) : Decidable a.Ended := inferInstanceAs (Decidable (_ ∨ _))

theorem softbusAuthBeginActive_ended (h : a.Ended) (env : AuthEnv) :
    (softbusAuthBeginActive json env a).auth = a := by
  have hidle : a.state ≠ .idle := by
    rcases h with h | h <;> simp [h]
  rw [softbusAuthBeginActive, if_pos hidle]
  rfl

theorem softbusAuthFeed_ended (h : a.Ended) (env : AuthEnv) (text : Bytes) :
    (softbusAuthFeed crypto json env a text).auth = a := by
  unfold softbusAuthFeed
  split
  · rfl
  split
  · rfl
  split
  · rfl
  split
  · rfl
  rename_i hdone hfailed
  rcases h with h | h
  · exact absurd h hdone
  · exact absurd h hfailed

theorem softbusAuthRetryDue_ended (h : a.Ended) (nowMs : UInt64) :
    (softbusAuthRetryDue a nowMs).1 = a := by
  rw [softbusAuthRetryDue, if_pos h.symm]

theorem update_kept {ι : Type} [DecidableEq ι] {u : ι → SoftbusAuth} {i j : ι} {x : SoftbusAuth}
    (h : i = j → x = u i) : Function.update u j x i = u i := by
  rw [Function.update_apply]
  split
  · rename_i hj
    exact h hj
  · rfl

/-- No call on any context changes one that has ended. -/
theorem run_ended {ι : Type} [DecidableEq ι] {s t : ι → SoftbusAuth} {es : List (AuthNetEv ι)}
    (hrun : run (AuthNetEv.step crypto json) s es = some t) {i : ι} (hended : (s i).Ended) :
    t i = s i := by
  refine run_inv (fun u => u i = s i) (fun _ _ => True) ?_ rfl (meets_true es s) hrun
  rintro u e u' hu - hstep
  rw [← hu] at hended
  cases e with
  | begin j env =>
      cases hstep
      refine (update_kept ?_).trans hu
      rintro rfl
      rw [softbusAuthBeginActive_ended hended]
  | feed j env text =>
      cases hstep
      refine (update_kept ?_).trans hu
      rintro rfl
      rw [softbusAuthFeed_ended hended]
  | retry j nowMs =>
      cases hstep
      refine (update_kept ?_).trans hu
      rintro rfl
      rw [softbusAuthRetryDue_ended hended]

/-- The state of the message that a state waits for. -/
def SoftbusAuthState.expects : SoftbusAuthState → SoftbusAuthState
  | .idle => .syncNegotiation
  | .syncNegotiation => .syncDeviceId
  | .syncDeviceId => .deviceAuth
  | s => s

variable (crypto) in
/-- A message that does not belong fails the exchange, and nothing is sent. -/
theorem softbusAuthFeed_foreign (env : AuthEnv) {text : Bytes} {m : AuthMsg} (htext : text ≠ [])
    (hm : parseHeader json text = .ok m) (hidle : a.state ≠ .idle) (hended : ¬ a.Ended)
    (hforeign : m.authId ≠ a.authId ∨ m.authState ≠ a.state.expects.code.toInt32) :
    ∃ error, softbusAuthFeed crypto json env a text = authFailed a error := by
  rw [softbusAuthFeed, if_neg htext, if_neg (fun h => hidle h.2),
    if_neg (fun h => hended (.inl h)), if_neg (fun h => hended (.inr h)), hm]
  simp only
  rw [if_neg (fun h => hidle h.2)]
  by_cases hid : m.authId ≠ a.authId
  · rw [if_pos hid]
    exact ⟨_, rfl⟩
  rw [if_neg hid]
  have hstate := hforeign.resolve_left hid
  unfold feedMsg
  split
  · rename_i h
    exact absurd h hidle
  · rename_i h
    rw [h] at hstate
    rw [feedDeviceId, if_pos (.inr hstate)]
    exact ⟨_, rfl⟩
  · rename_i h
    rw [h] at hstate
    rw [feedAuthRequest, if_pos (.inr hstate)]
    exact ⟨_, rfl⟩
  · rename_i h
    rw [h] at hstate
    rw [feedAuthResponse, if_pos (.inr hstate)]
    exact ⟨_, rfl⟩
  · rename_i h
    rw [h] at hstate
    rw [feedDeviceInfo, if_pos (.inr hstate)]
    exact ⟨_, rfl⟩
  · rename_i h
    exact absurd (.inl h) hended
  · rename_i h
    exact absurd (.inr h) hended

end Calls

/-- **An exchange from end to end.** The relay brings both sides to the same keys; a
context that has ended stays as it is under every further call; and a started context
fails, without a reply, on every message with a foreign auth id or with an auth state
that is not the one it waits for, as `json_object_get_int_member` and the cast to `int`
read it. -/
theorem SoftbusAuth.psk_exchange (crypto : SoftbusCrypto) (json : JsonGlib) :
    (∀ (deviceA deviceP : SoftbusDevice) (idA idP psk : Bytes) (authIdA authIdP : UInt64)
      (nonceA nonceX : AuthNonce) (e₀ e₁ e₂ e₃ e₄ e₅ : AuthEnv) (es : List AuthEnv),
      deviceA.deviceId = some idA → deviceP.deviceId = some idP →
      (∀ e ∈ [e₀, e₁, e₂, e₃, e₄, e₅], e.Ready) →
      (∀ o ∈ exchangeMsgs crypto (softbusAuthNew deviceA (some psk) authIdA nonceA) idA idP psk
        e₃.nonceP, json.Faithful o) →
      let start := softbusAuthBeginActive json e₀ (softbusAuthNew deviceA (some psk) authIdA nonceA)
      let ends := relay crypto json (e₁ :: e₂ :: e₃ :: e₄ :: e₅ :: es)
        (softbusAuthNew deviceP (some psk) authIdP nonceX) start.auth start.outJson
      Agreed ends.1 ends.2) ∧
    (∀ (ι : Type) [DecidableEq ι] (s t : ι → SoftbusAuth) (es : List (AuthNetEv ι)) (i : ι),
      run (AuthNetEv.step crypto json) s es = some t → (s i).Ended → t i = s i) ∧
    ∀ (env : AuthEnv) (a : SoftbusAuth) (text : Bytes) (m : AuthMsg),
      text ≠ [] → parseHeader json text = .ok m → a.state ≠ .idle → ¬ a.Ended →
      (m.authId ≠ a.authId ∨ m.authState ≠ a.state.expects.code.toInt32) →
      (softbusAuthFeed crypto json env a text).auth.state = .failed ∧
        (softbusAuthFeed crypto json env a text).result = .failed ∧
        (softbusAuthFeed crypto json env a text).outJson = none := by
  refine ⟨?_, ?_, ?_⟩
  · intro deviceA deviceP idA idP psk authIdA authIdP nonceA nonceX e₀ e₁ e₂ e₃ e₄ e₅ es hidA hidP
      hready hjson
    exact relay_agreed hidA hidP rfl rfl rfl rfl rfl hready hjson es
  · intro ι _ s t es i hrun hended
    exact run_ended hrun hended
  · intro env a text m htext hm hidle hended hforeign
    obtain ⟨error, hfeed⟩ := softbusAuthFeed_foreign crypto env htext hm hidle
      hended hforeign
    rw [hfeed]
    exact ⟨rfl, rfl, rfl⟩

/-- The context of "pc" after its start. -/
def startedPc : SoftbusAuth :=
  (softbusAuthBeginActive exchangeJson exchangeEnv (exchangeStart .left)).auth

theorem exchangeMsgs_faithful : ∀ o ∈ exchangeMsgs exchangeCrypto (exchangeStart .left) (ascii "pc")
    (ascii "phone") (ascii "shared") phoneNonce, exchangeJson.Faithful o := by
  have hmsgs : exchangeMsgs exchangeCrypto (exchangeStart .left) (ascii "pc") (ascii "phone")
      (ascii "shared") phoneNonce =
      [negotiation, deviceIdMsg "phone", authRequest "pc", authResponse plainSig, deviceInfo] := by
    rfl
  have hbrace : ∀ o : JsonObject, jsonObjectText o ≠ [] := by
    intro o h
    have : ascii "\x7b" = [] := (List.append_eq_nil_iff.mp (List.append_eq_nil_iff.mp h).1).1
    cases this
  rw [hmsgs]
  simp only [List.forall_mem_cons]
  refine ⟨⟨hbrace _, rfl⟩, ⟨hbrace _, rfl⟩, ⟨hbrace _, rfl⟩, ⟨hbrace _, rfl⟩, ⟨hbrace _, rfl⟩, ?_⟩
  rintro o ⟨⟩

theorem exchangeEnv_ready : exchangeEnv.Ready := ⟨⟨rfl, rfl, rfl⟩, rfl⟩

/-- "pc" and "phone" agree, "pc" fails on a message of its own state, and stays failed. -/
theorem SoftbusAuth.psk_exchange_pc_phone :
    Agreed (relay exchangeCrypto exchangeJson (List.replicate 5 exchangeEnv) (exchangeStart .right)
        startedPc (softbusAuthBeginActive exchangeJson exchangeEnv (exchangeStart .left)).outJson).1
      (relay exchangeCrypto exchangeJson (List.replicate 5 exchangeEnv) (exchangeStart .right)
        startedPc (softbusAuthBeginActive exchangeJson exchangeEnv (exchangeStart .left)).outJson).2 ∧
    (∃ t, run (AuthNetEv.step exchangeCrypto exchangeJson) (fun _ => authFail startedPc)
        [.begin Side.left exchangeEnv, .feed .left exchangeEnv (jsonObjectText (deviceIdMsg "phone")),
          .retry .left 40000] = some t ∧ t .left = authFail startedPc) ∧
    (softbusAuthFeed exchangeCrypto exchangeJson exchangeEnv startedPc
      (jsonObjectText negotiation)).auth.state = .failed := by
  obtain ⟨hrelay, hended, hforeign⟩ := SoftbusAuth.psk_exchange exchangeCrypto exchangeJson
  refine ⟨?_, ?_, ?_⟩
  · refine hrelay ⟨some (ascii "pc"), none, 0⟩ ⟨some (ascii "phone"), none, 0⟩ (ascii "pc")
      (ascii "phone") (ascii "shared") 5 5 pcNonce pcNonce exchangeEnv exchangeEnv exchangeEnv
      exchangeEnv exchangeEnv exchangeEnv [] rfl rfl ?_ exchangeMsgs_faithful
    simp [exchangeEnv_ready]
  · have hrun : ∃ t, run (AuthNetEv.step exchangeCrypto exchangeJson) (fun _ => authFail startedPc)
        [.begin Side.left exchangeEnv, .feed .left exchangeEnv (jsonObjectText (deviceIdMsg "phone")),
          .retry .left 40000] = some t := ⟨_, rfl⟩
    obtain ⟨t, ht⟩ := hrun
    exact ⟨t, ht, hended Side _ t _ .left ht (.inr rfl)⟩
  · exact (hforeign exchangeEnv startedPc (jsonObjectText negotiation) ⟨negotiation, 1, 5⟩
      (fun h => by cases h) rfl (by decide) (by decide) (.inr (by decide))).1

/-- The device id of "phone" under an auth state that is 2 in the low 32 bits. -/
def wideDeviceId : JsonObject :=
  [("authState", .integer 4294967298), ("authId", .integer 5),
    ("deviceId", .string (ascii "phone"))]

def wideJson : JsonGlib where
  parse text :=
    if text = jsonObjectText wideDeviceId then .ok (.object wideDeviceId) else exchangeJson.parse text
  generate := jsonObjectText

/-- **The cast lets a wider auth state through**: "pc" waits for state 2 and goes on with
4294967298. -/
theorem SoftbusAuth.not_psk_exchange_wide :
    startedPc.state = .syncNegotiation ∧
    wideJson.parse (jsonObjectText wideDeviceId) = .ok (.object wideDeviceId) ∧
    jsonObjectGetIntMember wideDeviceId "authState" ≠ startedPc.state.expects.code ∧
    (softbusAuthFeed exchangeCrypto wideJson exchangeEnv startedPc
      (jsonObjectText wideDeviceId)).auth.state = .deviceAuth ∧
    (softbusAuthFeed exchangeCrypto wideJson exchangeEnv startedPc
      (jsonObjectText wideDeviceId)).result = .send := by
  refine ⟨rfl, rfl, by decide, rfl, rfl⟩

end HwPhoneLink.Softbus
