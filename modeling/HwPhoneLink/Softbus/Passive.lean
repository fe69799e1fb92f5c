import HwPhoneLink.Softbus.Agreement

/-!
# What the passive side asks for

The passive side signs and derives its keys, but no message has to prove
anything to it: whether it completes depends on the form of the first three
messages that it can read, and not on the key.
-/

namespace HwPhoneLink.Softbus

open BigEndian
open Testfile (ascii)

section Passive

variable (crypto : SoftbusCrypto) (json : JsonGlib)

/-- Feed texts one after the other. -/
def feedAll (a : SoftbusAuth) (texts : List (AuthEnv × Bytes)) : SoftbusAuth :=
  texts.foldl (fun a x => (softbusAuthFeed crypto json x.1 a x.2).auth) a

/-- The texts that are messages, parsed. -/
def readable (texts : List (AuthEnv × Bytes)) : List (AuthEnv × AuthMsg) :=
  texts.filterMap fun x =>
    if x.2 = [] then none else (parseHeader json x.2).toOption.map fun m => (x.1, m)

/-- A feed of a parsed message. -/
def feedParsed (a : SoftbusAuth) (x : AuthEnv × AuthMsg) : SoftbusAuth :=
  if a.isActive ∧ a.state = .idle then a
  else if a.state = .done ∨ a.state = .failed then a
  else if a.isActive = false ∧ a.state = .idle then
    (feedMsg crypto json x.1 { a with authId := x.2.authId } x.2).auth
  else if x.2.authId ≠ a.authId then authFail a
  else (feedMsg crypto json x.1 a x.2).auth

theorem softbusAuthFeed_parsed {env : AuthEnv} {a : SoftbusAuth} {text : Bytes} {m : AuthMsg}
    (htext : text ≠ []) (hm : parseHeader json text = .ok m) :
    (softbusAuthFeed crypto json env a text).auth = feedParsed crypto json a (env, m) := by
  unfold softbusAuthFeed feedParsed
  rw [if_neg htext, hm]
  split
  · rfl
  by_cases hdone : a.state = .done
  · rw [if_pos hdone, if_pos (.inl hdone)]
    rfl
  by_cases hfailed : a.state = .failed
  · rw [if_neg hdone, if_pos hfailed, if_pos (.inr hfailed)]
    rfl
  rw [if_neg hdone, if_neg hfailed, if_neg (by simp [hdone, hfailed])]
  simp only
  split
  · rfl
  split <;> rfl

/-- A text that is not a message changes nothing. -/
theorem softbusAuthFeed_unreadable {env : AuthEnv} {a : SoftbusAuth} {text : Bytes}
    (h : text = [] ∨ (parseHeader json text).toOption = none) :
    (softbusAuthFeed crypto json env a text).auth = a := by
  unfold softbusAuthFeed
  split
  · rfl
  rename_i htext
  split
  · rfl
  split
  · rfl
  split
  · rfl
  split
  · rfl
  · rename_i m hm
    rcases h with h | h
    · exact absurd h htext
    · rw [hm] at h
      cases h

theorem feedAll_eq_readable (texts : List (AuthEnv × Bytes)) : ∀ a : SoftbusAuth,
    feedAll crypto json a texts = (readable json texts).foldl (feedParsed crypto json) a := by
  induction texts with
  | nil => intro a; rfl
  | cons x texts ih =>
      intro a
      rw [feedAll, List.foldl_cons, ← feedAll, ih]
      by_cases htext : x.2 = []
      · have hskip : readable json (x :: texts) = readable json texts := by
          simp only [readable, List.filterMap_cons, if_pos htext]
        rw [hskip, softbusAuthFeed_unreadable crypto json (.inl htext)]
      cases hm : parseHeader json x.2 with
      | error e =>
          have hskip : readable json (x :: texts) = readable json texts := by
            simp only [readable, List.filterMap_cons, if_neg htext, hm]
            rfl
          rw [hskip, softbusAuthFeed_unreadable crypto json (.inr (by rw [hm]; rfl))]
      | ok m =>
          have hread : readable json (x :: texts) = (x.1, m) :: readable json texts := by
            simp only [readable, List.filterMap_cons, if_neg htext, hm]
            rfl
          rw [hread, List.foldl_cons, softbusAuthFeed_parsed crypto json htext hm]

end Passive

/-! ## The three messages -/

def IsNegotiation (m : AuthMsg) : Prop :=
  m.authState = SoftbusAuthState.syncNegotiation.code.toInt32 ∧
    (jsonObjectHasMember m.obj "protoVersion" = true →
      jsonObjectGetIntMember m.obj "protoVersion" = softbusProtoVersion)

/-- A nonce of 16 bytes and an id. -/
def IsAuthRequest (m : AuthMsg) : Prop :=
  m.authState = SoftbusAuthState.deviceAuth.code.toInt32 ∧
    (∃ hex nonce, jsonObjectGetStringMember m.obj "nonce" = some hex ∧
      nonceOfHex hex = some nonce) ∧
    ∃ peerId, jsonObjectGetStringMember m.obj "deviceId" = some peerId

def IsDeviceInfo (m : AuthMsg) : Prop :=
  m.authState = SoftbusAuthState.syncDeviceInfo.code.toInt32

/-- The OpenSSL calls made for a message succeed. -/
def AuthEnv.CryptoOk (env : AuthEnv) : Prop :=
  env.hmacOk = true ∧ env.controlOk = true ∧ env.dataOk = true

/-- Messages that anybody can write. -/
def PassiveScript (ms : List (AuthEnv × AuthMsg)) : Prop :=
  ∃ n r d rest, ms = n :: r :: d :: rest ∧ IsNegotiation n.2 ∧
    (r.2.authId = n.2.authId ∧ IsAuthRequest r.2 ∧ r.1.CryptoOk) ∧
    d.2.authId = n.2.authId ∧ IsDeviceInfo d.2

section Stages

variable {crypto : SoftbusCrypto} {json : JsonGlib} {a : SoftbusAuth} {device : SoftbusDevice}
  {psk : Option Bytes} {authId : UInt64}

structure AtDeviceId (device : SoftbusDevice) (psk : Option Bytes) (authId : UInt64)
    (a : SoftbusAuth) : Prop where
  state : a.state = .syncDeviceId
  isActive : a.isActive = false
  device : a.device = device
  psk : a.psk = psk
  authId : a.authId = authId
  peerDeviceId : a.peerDeviceId = none
  keysReady : a.keysReady = false

structure AtDeviceInfo (authId : UInt64) (a : SoftbusAuth) : Prop where
  state : a.state = .syncDeviceInfo
  isActive : a.isActive = false
  authId : a.authId = authId
  keysReady : a.keysReady = true

/-- The exchange will not complete. -/
def Stuck (a : SoftbusAuth) : Prop :=
  a.state = .failed ∨ (a.state = .syncDeviceInfo ∧ a.isActive = false ∧ a.keysReady = false)

variable (crypto json device psk authId) in
theorem feedParsed_first (x : AuthEnv × AuthMsg) (nonce : AuthNonce) :
    (IsNegotiation x.2 ∧ AtDeviceId device psk x.2.authId
      (feedParsed crypto json (softbusAuthNew device psk authId nonce) x)) ∨
    (¬ IsNegotiation x.2 ∧
      Stuck (feedParsed crypto json (softbusAuthNew device psk authId nonce) x)) := by
  have hfeed : feedParsed crypto json (softbusAuthNew device psk authId nonce) x =
      (feedNegotiation json x.1 { softbusAuthNew device psk authId nonce with
        authId := x.2.authId } x.2).auth := by
    simp [feedParsed, softbusAuthNew, feedMsg]
  rw [hfeed]
  unfold feedNegotiation
  simp only [softbusAuthNew, Bool.false_eq_true, false_or]
  split
  · rename_i hstate
    exact .inr ⟨fun h => hstate h.1, .inl rfl⟩
  rename_i hstate
  rw [Decidable.not_not] at hstate
  split
  · rename_i hversion
    exact .inr ⟨fun h => hversion.2 (h.2 hversion.1), .inl rfl⟩
  · rename_i hversion
    left
    rw [authSend_auth]
    refine ⟨⟨hstate, ?_⟩, ⟨rfl, rfl, rfl, rfl, rfl, rfl, rfl⟩⟩
    intro hmem
    by_contra hne
    exact hversion ⟨hmem, hne⟩

/-- A message in the middle of an exchange. -/
theorem feedParsed_exchange (hidle : a.state ≠ .idle) (hdone : a.state ≠ .done)
    (hfailed : a.state ≠ .failed) (x : AuthEnv × AuthMsg) :
    feedParsed crypto json a x =
      if x.2.authId ≠ a.authId then authFail a else (feedMsg crypto json x.1 a x.2).auth := by
  rw [feedParsed, if_neg (fun h => hidle h.2), if_neg (by simp [hdone, hfailed]),
    if_neg (fun h => hidle h.2)]

theorem deriveKeys_keysReady {env : AuthEnv} {psk peerId localId : Bytes}
    (hpsk : a.psk = some psk) (hpeer : a.peerDeviceId = some peerId)
    (hlocal : a.device.deviceId = some localId) (hready : a.keysReady = false) :
    (deriveKeys crypto env a).keysReady = true ↔ env.controlOk = true ∧ env.dataOk = true := by
  unfold deriveKeys
  rw [hpsk, hpeer, hlocal]
  simp only
  split
  · rename_i hcontrol
    split
    · rename_i hdata
      simp [hcontrol, hdata]
    · rename_i hdata
      simp [hready, hdata]
  · rename_i hcontrol
    simp [hready, hcontrol]

variable (crypto json) in
theorem feedParsed_second (h : AtDeviceId device psk authId a) (x : AuthEnv × AuthMsg) :
    ((psk.isSome ∧ device.deviceId.isSome) ∧
      (x.2.authId = authId ∧ IsAuthRequest x.2 ∧ x.1.CryptoOk) ∧
      AtDeviceInfo authId (feedParsed crypto json a x)) ∨
    (¬ ((psk.isSome ∧ device.deviceId.isSome) ∧
      (x.2.authId = authId ∧ IsAuthRequest x.2 ∧ x.1.CryptoOk)) ∧
      Stuck (feedParsed crypto json a x)) := by
  rw [feedParsed_exchange (by simp [h.state]) (by simp [h.state]) (by simp [h.state])]
  split
  · rename_i hid
    rw [h.authId] at hid
    exact .inr ⟨fun hall => hid hall.2.1, .inl rfl⟩
  rename_i hid
  rw [h.authId, Decidable.not_not] at hid
  have hmsg : feedMsg crypto json x.1 a x.2 = feedAuthRequest crypto json x.1 a x.2 := by
    rw [feedMsg, h.state]
  rw [hmsg]
  unfold feedAuthRequest
  simp only [h.isActive, Bool.false_eq_true, false_or, h.device, h.peerDeviceId, Option.or_none]
  split
  · rename_i hstate
    exact .inr ⟨fun hall => hstate hall.2.2.1.1, .inl rfl⟩
  rename_i hstate
  rw [Decidable.not_not] at hstate
  split
  · rename_i hlocal
    refine .inr ⟨?_, .inl rfl⟩
    rintro ⟨⟨-, hsome⟩, -⟩
    rw [hlocal] at hsome
    cases hsome
  rename_i localId hlocal
  split
  · rename_i hnone
    refine .inr ⟨?_, .inl rfl⟩
    rintro ⟨-, -, ⟨-, ⟨hex, -, hhex, -⟩, -⟩, -⟩
    rw [hnone] at hhex
    cases hhex
  rename_i hex hhex
  split
  · rename_i hbad
    refine .inr ⟨?_, .inl rfl⟩
    rintro ⟨-, -, ⟨-, ⟨hex', nonce, hhex', hnonce⟩, -⟩, -⟩
    rw [hhex] at hhex'
    cases hhex'
    rw [hbad] at hnonce
    cases hnonce
  rename_i nonce hnonce
  split
  · rename_i hnone
    refine .inr ⟨?_, .inl rfl⟩
    rintro ⟨-, -, ⟨-, -, peerId, hpeer⟩, -⟩
    rw [hnone] at hpeer
    cases hpeer
  rename_i peerId hpeer
  have hrequest : IsAuthRequest x.2 := ⟨hstate, ⟨hex, nonce, hhex, hnonce⟩, peerId, hpeer⟩
  split
  · rename_i hsig
    refine .inr ⟨?_, .inl rfl⟩
    rintro ⟨⟨hpsk, -⟩, -, -, hcrypto⟩
    obtain ⟨key, hkey⟩ := Option.isSome_iff_exists.mp hpsk
    rw [computeSig] at hsig
    simp only [h.psk, hkey, hcrypto.1, if_true] at hsig
    cases hsig
  · rename_i sig hsig
    obtain ⟨key, rfl, hhmac⟩ : ∃ key, psk = some key ∧ x.1.hmacOk = true := by
      rw [computeSig] at hsig
      simp only [h.psk] at hsig
      cases psk with
      | none => cases hsig
      | some key =>
          simp only at hsig
          split at hsig
          · rename_i hok
            exact ⟨key, rfl, hok⟩
          · cases hsig
    rw [authSend_auth]
    set b : SoftbusAuth := { a with
      device := device, isActive := false
      peerDeviceId := jsonObjectGetStringMember x.2.obj "deviceId" } with hb
    have hready : (deriveKeys crypto x.1 b).keysReady = true ↔
        x.1.controlOk = true ∧ x.1.dataOk = true :=
      deriveKeys_keysReady h.psk hpeer hlocal h.keysReady
    obtain ⟨control, data, ready, hkeys⟩ := deriveKeys_eq crypto x.1 b
    by_cases hok : x.1.controlOk = true ∧ x.1.dataOk = true
    · left
      refine ⟨⟨rfl, hlocal ▸ rfl⟩, ⟨hid, hrequest, hhmac, hok⟩, rfl, ?_, ?_, hready.mpr hok⟩
      · rw [hkeys]
        rfl
      · rw [hkeys]
        exact h.authId
    · right
      refine ⟨fun hall => hok hall.2.2.2.2, .inr ⟨rfl, ?_, ?_⟩⟩
      · rw [hkeys]
        rfl
      · rw [← Bool.not_eq_true]
        exact fun h => hok (hready.mp h)

variable (crypto json) in
theorem feedParsed_third (h : AtDeviceInfo authId a) (x : AuthEnv × AuthMsg) :
    ((x.2.authId = authId ∧ IsDeviceInfo x.2) ∧ (feedParsed crypto json a x).state = .done) ∨
    (¬ (x.2.authId = authId ∧ IsDeviceInfo x.2) ∧ Stuck (feedParsed crypto json a x)) := by
  rw [feedParsed_exchange (by simp [h.state]) (by simp [h.state]) (by simp [h.state])]
  split
  · rename_i hid
    rw [h.authId] at hid
    exact .inr ⟨fun hall => hid hall.1, .inl rfl⟩
  rename_i hid
  rw [h.authId, Decidable.not_not] at hid
  have hmsg : feedMsg crypto json x.1 a x.2 = feedDeviceInfo x.1 a x.2 := by
    rw [feedMsg, h.state]
  rw [hmsg]
  unfold feedDeviceInfo
  simp only [h.isActive, Bool.false_eq_true, false_or]
  split
  · rename_i hstate
    exact .inr ⟨fun hall => hstate hall.2, .inl rfl⟩
  rename_i hstate
  rw [Decidable.not_not] at hstate
  rw [if_neg (by simp [h.keysReady])]
  exact .inl ⟨⟨hid, hstate⟩, rfl⟩

theorem Stuck.feedParsed (h : Stuck a) (x : AuthEnv × AuthMsg) :
    Stuck (feedParsed crypto json a x) := by
  rcases h with hfailed | ⟨hstate, hpassive, hkeys⟩
  · have hid : Softbus.feedParsed crypto json a x = a := by
      rw [Softbus.feedParsed, if_neg (by simp [hfailed]), if_pos (.inr hfailed)]
    rw [hid]
    exact .inl hfailed
  · rw [feedParsed_exchange (by simp [hstate]) (by simp [hstate]) (by simp [hstate])]
    left
    split
    · rfl
    have hmsg : feedMsg crypto json x.1 a x.2 = feedDeviceInfo x.1 a x.2 := by
      rw [feedMsg, hstate]
    rw [hmsg]
    unfold feedDeviceInfo
    simp only [hpassive, Bool.false_eq_true, false_or, hkeys, if_true]
    split <;> rfl

theorem Stuck.foldl (ms : List (AuthEnv × AuthMsg)) : ∀ {a : SoftbusAuth}, Stuck a →
    Stuck (ms.foldl (Softbus.feedParsed crypto json) a) := by
  induction ms with
  | nil => exact fun h => h
  | cons x ms ih => exact fun h => ih (h.feedParsed x)

theorem foldl_feedParsed_done (ms : List (AuthEnv × AuthMsg)) : ∀ {a : SoftbusAuth},
    a.state = .done → ms.foldl (feedParsed crypto json) a = a := by
  induction ms with
  | nil => exact fun _ => rfl
  | cons x ms ih =>
      intro a h
      have hid : feedParsed crypto json a x = a := by
        rw [feedParsed, if_neg (by simp [h]), if_pos (.inl h)]
      rw [List.foldl_cons, hid, ih h]

theorem Stuck.ne_done (h : Stuck a) : a.state ≠ .done := by
  rcases h with h | ⟨h, -⟩ <;> simp [h]

/-- The messages that are read decide, and the key does not. -/
theorem foldl_feedParsed_done_iff (nonce : AuthNonce) (ms : List (AuthEnv × AuthMsg)) :
    (ms.foldl (feedParsed crypto json) (softbusAuthNew device psk authId nonce)).state = .done ↔
      (psk.isSome ∧ device.deviceId.isSome) ∧ PassiveScript ms := by
  rcases ms with _ | ⟨n, ms⟩
  · constructor
    · intro h
      cases h
    · rintro ⟨-, n, r, d, rest, h, -⟩
      cases h
  rw [List.foldl_cons]
  rcases feedParsed_first crypto json device psk authId n nonce with ⟨hn, h₁⟩ | ⟨hn, hstuck⟩
  swap
  · refine iff_of_false (hstuck.foldl ms).ne_done ?_
    rintro ⟨-, n', r, d, rest, h, hn', -⟩
    cases h
    exact hn hn'
  rcases ms with _ | ⟨r, ms⟩
  · refine iff_of_false (by simp [h₁.state]) ?_
    rintro ⟨-, n', r, d, rest, h, -⟩
    cases h
  rw [List.foldl_cons]
  rcases feedParsed_second crypto json h₁ r with ⟨hhas, hr, h₂⟩ | ⟨hr, hstuck⟩
  swap
  · refine iff_of_false (hstuck.foldl ms).ne_done ?_
    rintro ⟨hhas, n', r', d, rest, h, -, hr', -⟩
    cases h
    exact hr ⟨hhas, hr'⟩
  rcases ms with _ | ⟨d, ms⟩
  · refine iff_of_false (by simp [h₂.state]) ?_
    rintro ⟨-, n', r', d, rest, h, -⟩
    cases h
  rw [List.foldl_cons]
  rcases feedParsed_third crypto json h₂ d with ⟨hd, hdone⟩ | ⟨hd, hstuck⟩
  · rw [foldl_feedParsed_done ms hdone]
    exact iff_of_true hdone ⟨hhas, n, r, d, ms, rfl, hn, hr, hd⟩
  · refine iff_of_false (hstuck.foldl ms).ne_done ?_
    rintro ⟨-, n', r', d', rest, h, -, -, hd'⟩
    cases h
    exact hd hd'

end Stages

/-- **No proof is asked for.** A passive side with a key and an id completes exactly when
the messages that it can read start with a negotiation, an auth request and device info
under one auth id, and its own OpenSSL calls succeed. -/
theorem SoftbusAuth.passive_done_iff (crypto : SoftbusCrypto) (json : JsonGlib)
    (device : SoftbusDevice) (psk : Option Bytes) (authId : UInt64) (nonce : AuthNonce)
    (texts : List (AuthEnv × Bytes)) :
    (feedAll crypto json (softbusAuthNew device psk authId nonce) texts).state = .done ↔
      (psk.isSome ∧ device.deviceId.isSome) ∧ PassiveScript (readable json texts) := by
  rw [feedAll_eq_readable]
  exact foldl_feedParsed_done_iff nonce _

/-- The three messages of a sender who holds no key. -/
def strangerTexts : List (AuthEnv × Bytes) :=
  [negotiation, authRequest "pc", deviceInfo].map fun o => (exchangeEnv, jsonObjectText o)

/-- **A stranger completes the exchange**, whatever the key is. -/
theorem SoftbusAuth.passive_done_stranger : ∃ texts : List (AuthEnv × Bytes),
    ∀ (crypto : SoftbusCrypto) (psk : Bytes),
      (feedAll crypto exchangeJson
        (softbusAuthNew ⟨some (ascii "phone"), none, 0⟩ (some psk) 7 phoneNonce) texts).state =
          .done := by
  refine ⟨strangerTexts, ?_⟩
  intro crypto psk
  have hread : readable exchangeJson strangerTexts =
      [(exchangeEnv, ⟨negotiation, 1, 5⟩), (exchangeEnv, ⟨authRequest "pc", 3, 5⟩),
        (exchangeEnv, ⟨deviceInfo, 4, 5⟩)] := by
    rfl
  rw [feedAll_eq_readable, hread]
  refine (foldl_feedParsed_done_iff phoneNonce _).mpr ⟨⟨rfl, rfl⟩, _, _, _, [], rfl, ?_, ?_, ?_⟩
  · exact ⟨rfl, fun _ => rfl⟩
  · exact ⟨rfl, ⟨rfl, ⟨_, _, rfl, rfl⟩, _, rfl⟩, rfl, rfl, rfl⟩
  · exact ⟨rfl, rfl⟩

end HwPhoneLink.Softbus
