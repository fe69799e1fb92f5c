import HwPhoneLink.Softbus.Exchange

/-!
# The signature of an auth response

`softbus_from_hex` reports how many bytes it has decoded. The nonce is checked to be 16
bytes long, the signature is not checked to be 32: the comparison runs over the whole
buffer, with whatever stood behind a short signature.
-/

namespace HwPhoneLink.Softbus

open BigEndian
open Testfile (ascii)

section

variable {crypto : SoftbusCrypto} {json : JsonGlib} {env : AuthEnv} {a : SoftbusAuth}
  {m : AuthMsg} {t t' : AuthTranscript} {sig sig' : Bytes}

/-- The response offers the transcript, and its signature field decodes to `sig`. -/
structure Offers (a : SoftbusAuth) (m : AuthMsg) (t : AuthTranscript) (sig : Bytes) : Prop where
  nonceA : t.nonceA = a.activeNonce
  idA : a.device.deviceId = some t.idA
  idP : a.peerDeviceId = some t.idP
  nonceP : ∃ hex, jsonObjectGetStringMember m.obj "nonce" = some hex ∧
    softbusFromHex hex authNonceLen = some t.nonceP.bytes
  signature : ∃ hex, jsonObjectGetStringMember m.obj "signature" = some hex ∧
    softbusFromHex hex authSigLen = some sig

theorem nonceOfHex_eq_some {hex : Bytes} {nonce : AuthNonce} :
    nonceOfHex hex = some nonce ↔ softbusFromHex hex authNonceLen = some nonce.bytes := by
  unfold nonceOfHex
  cases hdecode : softbusFromHex hex authNonceLen with
  | none => simp
  | some bs =>
      simp only
      split
      · rw [Option.some.injEq, Option.some.injEq]
        constructor
        · rintro rfl
          rfl
        · intro h
          cases nonce
          cases h
          rfl
      · rename_i hlen
        constructor
        · intro h
          cases h
        · intro h
          cases h
          exact absurd nonce.length_eq hlen

/-- The fields of a response, if it has them. -/
theorem authResponseFields_eq_ok {buf : Bytes} :
    authResponseFields env a m = .ok (t, buf) ↔ ∃ sig, Offers a m t sig ∧ buf = rxSig env sig := by
  constructor
  · intro h
    unfold authResponseFields at h
    split at h
    · rename_i localId peerId hlocal hpeer
      split at h
      · rename_i nonceHex sigHex hnonce hsig
        split at h
        · cases h
        rename_i nonceP hnonceP
        split at h
        · cases h
        rename_i sig hdecode
        cases h
        exact ⟨sig, ⟨rfl, hlocal, hpeer, ⟨nonceHex, hnonce, nonceOfHex_eq_some.mp hnonceP⟩,
          sigHex, hsig, hdecode⟩, rfl⟩
      · cases h
    · cases h
  · rintro ⟨sig, ⟨hA, hidA, hidP, ⟨nonceHex, hnonce, hnonceP⟩, sigHex, hsig, hdecode⟩, rfl⟩
    simp only [authResponseFields, hidA, hidP, hnonce, hsig, nonceOfHex_eq_some.mpr hnonceP, hdecode,
      ← hA]

/-- A response offers one thing. -/
theorem Offers.unique (h : Offers a m t sig) (h' : Offers a m t' sig') : t = t' ∧ sig = sig' := by
  obtain ⟨nonceHex, hnonce, hnonceP⟩ := h.nonceP
  obtain ⟨sigHex, hsig, hdecode⟩ := h.signature
  obtain ⟨nonceHex', hnonce', hnonceP'⟩ := h'.nonceP
  obtain ⟨sigHex', hsig', hdecode'⟩ := h'.signature
  obtain rfl : nonceHex = nonceHex' := Option.some.inj (hnonce.symm.trans hnonce')
  obtain rfl : sigHex = sigHex' := Option.some.inj (hsig.symm.trans hsig')
  have hP : t.nonceP = t'.nonceP :=
    Option.some.inj ((nonceOfHex_eq_some.mpr hnonceP).symm.trans (nonceOfHex_eq_some.mpr hnonceP'))
  have hA : t.idA = t'.idA := Option.some.inj (h.idA.symm.trans h'.idA)
  have hidP : t.idP = t'.idP := Option.some.inj (h.idP.symm.trans h'.idP)
  have hnonceA : t.nonceA = t'.nonceA := h.nonceA.trans h'.nonceA.symm
  refine ⟨?_, Option.some.inj (hdecode.symm.trans hdecode')⟩
  cases t
  cases t'
  cases hP
  cases hA
  cases hidP
  cases hnonceA
  rfl

/-- The keys are there once the signature has been accepted. -/
def KeysFollow (env : AuthEnv) (a : SoftbusAuth) : Prop :=
  a.keysReady = true ∨ (env.controlOk = true ∧ env.dataOk = true)

theorem deriveKeys_follow {psk peerId localId : Bytes} (hpsk : a.psk = some psk)
    (hpeer : a.peerDeviceId = some peerId) (hlocal : a.device.deviceId = some localId) :
    (deriveKeys crypto env a).keysReady = true ↔ KeysFollow env a := by
  unfold deriveKeys KeysFollow
  rw [hpsk, hpeer, hlocal]
  simp only
  by_cases hcontrol : env.controlOk = true
  · rw [if_pos hcontrol]
    by_cases hdata : env.dataOk = true
    · rw [if_pos hdata]
      exact iff_of_true rfl (.inr ⟨hcontrol, hdata⟩)
    · rw [if_neg hdata]
      simp [hdata]
  · rw [if_neg hcontrol]
    simp [hcontrol]

/-- The response is for this exchange, and the OpenSSL calls made for it succeed. -/
structure Answers (env : AuthEnv) (a : SoftbusAuth) (m : AuthMsg) : Prop where
  authId : m.authId = a.authId
  authState : m.authState = SoftbusAuthState.deviceAuth.code.toInt32
  hmac : env.hmacOk = true
  keys : KeysFollow env a

/-- What the buffer holds after decoding is the HMAC of the transcript. -/
def Matches (crypto : SoftbusCrypto) (env : AuthEnv) (a : SoftbusAuth) (m : AuthMsg)
    (t : AuthTranscript) (sig : Bytes) : Prop :=
  Offers a m t sig ∧ ∃ psk, a.psk = some psk ∧ rxSig env sig = crypto.hmacSha256 psk t.message

theorem Matches.unique (h : Matches crypto env a m t sig) (h' : Matches crypto env a m t' sig') :
    t = t' ∧ sig = sig' :=
  h.1.unique h'.1

theorem Offers.length (h : Offers a m t sig) : sig.length ≤ authSigLen := by
  obtain ⟨hex, -, hdecode⟩ := h.signature
  exact softbusFromHex_length hdecode

theorem feedAuthResponse_complete (hactive : a.isActive = true) :
    (feedAuthResponse crypto json env a m).result = .complete ↔
      (m.authState = SoftbusAuthState.deviceAuth.code.toInt32 ∧ env.hmacOk = true ∧
        KeysFollow env a) ∧ ∃ t sig, Matches crypto env a m t sig := by
  unfold feedAuthResponse
  simp only [hactive, Bool.true_eq_false, false_or]
  split
  · rename_i hstate
    exact iff_of_false (fun h => by cases h) fun h => hstate h.1.1
  rename_i hstate
  rw [Decidable.not_not] at hstate
  split
  · rename_i e hfields
    refine iff_of_false (fun h => by cases h) ?_
    rintro ⟨-, t, sig, hoffers, -⟩
    rw [authResponseFields_eq_ok.mpr ⟨sig, hoffers, rfl⟩] at hfields
    cases hfields
  rename_i t buf hfields
  obtain ⟨sig, hoffers, rfl⟩ := authResponseFields_eq_ok.mp hfields
  split
  · rename_i hsig
    refine iff_of_false (fun h => by cases h) ?_
    rintro ⟨⟨-, hhmac, -⟩, -, -, -, psk, hpsk, -⟩
    rw [computeSig, hpsk] at hsig
    simp only [hhmac, if_true] at hsig
    cases hsig
  rename_i expSig hexp
  obtain ⟨psk, hpsk, hhmac, rfl⟩ : ∃ psk, a.psk = some psk ∧ env.hmacOk = true ∧
      expSig = crypto.hmacSha256 psk t.message := by
    unfold computeSig at hexp
    split at hexp
    · cases hexp
    · rename_i psk hpsk
      split at hexp
      · rename_i hhmac
        cases hexp
        exact ⟨psk, hpsk, hhmac, rfl⟩
      · cases hexp
  have hlen : (rxSig env sig).length = (crypto.hmacSha256 psk t.message).length :=
    (rxSig_length hoffers.length).trans (crypto.hmac_length _ _).symm
  have hready : (deriveKeys crypto env a).keysReady = true ↔ KeysFollow env a :=
    deriveKeys_follow hpsk hoffers.idP hoffers.idA
  split
  · rename_i heq
    rw [constTimeEq_eq_true hlen] at heq
    split
    · rename_i hkeys
      exact iff_of_true rfl ⟨⟨hstate, hhmac, hready.mp hkeys⟩, t, sig, hoffers, psk, hpsk, heq⟩
    · rename_i hkeys
      exact iff_of_false (fun h => by cases h) fun h => hkeys (hready.mpr h.1.2.2)
  · rename_i hne
    refine iff_of_false (fun h => by cases h) ?_
    rintro ⟨-, t', sig', hoffers', psk', hpsk', heq⟩
    obtain ⟨rfl, rfl⟩ := hoffers.unique hoffers'
    obtain rfl : psk = psk' := Option.some.inj (hpsk.symm.trans hpsk')
    exact hne ((constTimeEq_eq_true hlen).mpr heq)

variable (crypto json env) in
/-- **When a response completes the exchange.** -/
theorem softbusAuthFeed_complete (hstate : a.state = .deviceAuth) (hactive : a.isActive = true)
    (text : Bytes) :
    (softbusAuthFeed crypto json env a text).result = .complete ↔
      ∃ m, text ≠ [] ∧ parseHeader json text = .ok m ∧ Answers env a m ∧
        ∃ t sig, Matches crypto env a m t sig := by
  unfold softbusAuthFeed
  rw [hstate]
  simp only [reduceCtorEq, and_false, if_false]
  split
  · rename_i htext
    exact iff_of_false (fun h => by cases h) fun ⟨m, hne, _⟩ => hne htext
  rename_i htext
  split
  · rename_i e hm
    refine iff_of_false (fun h => by cases h) ?_
    rintro ⟨m, -, hm', -⟩
    rw [hm] at hm'
    cases hm'
  rename_i m hm
  have hmsg : ∀ m', parseHeader json text = .ok m' → m' = m := by
    intro m' hm'
    rw [hm] at hm'
    cases hm'
    rfl
  split
  · rename_i hid
    refine iff_of_false (fun h => by cases h) ?_
    rintro ⟨m', -, hm', hanswers, -⟩
    rw [hmsg m' hm'] at hanswers
    exact hid hanswers.authId
  · rename_i hid
    rw [Decidable.not_not] at hid
    have hfeed : feedMsg crypto json env a m = feedAuthResponse crypto json env a m := by
      rw [feedMsg, hstate]
    rw [hfeed, feedAuthResponse_complete hactive]
    constructor
    · rintro ⟨⟨hauth, hhmac, hkeys⟩, hmatches⟩
      exact ⟨m, htext, hm, ⟨hid, hauth, hhmac, hkeys⟩, hmatches⟩
    · rintro ⟨m', -, hm', hanswers, hmatches⟩
      obtain rfl := hmsg m' hm'
      exact ⟨⟨hanswers.authState, hanswers.hmac, hanswers.keys⟩, hmatches⟩

/-! ## Short signatures -/

/-- The text carries a nonce of 16 bytes, and as its signature the whole HMAC. -/
def Signed (crypto : SoftbusCrypto) (json : JsonGlib) (a : SoftbusAuth) (text : Bytes) : Prop :=
  ∃ m t psk, parseHeader json text = .ok m ∧ a.psk = some psk ∧
    Offers a m t (crypto.hmacSha256 psk t.message)

/-- The signature is a front of the HMAC, and the buffer held the rest of it. -/
def StaleSignature (crypto : SoftbusCrypto) (json : JsonGlib) (env : AuthEnv) (a : SoftbusAuth)
    (text : Bytes) : Prop :=
  text ≠ [] ∧ ∃ m t sig psk, parseHeader json text = .ok m ∧ Answers env a m ∧ Offers a m t sig ∧
    a.psk = some psk ∧ sig.length < authSigLen ∧
    crypto.hmacSha256 psk t.message = sig ++ env.stack.drop sig.length

/-- **Only a whole signature authenticates**, unless the buffer held the rest of it. -/
theorem SoftbusAuth.signed_iff (hstate : a.state = .deviceAuth) (hactive : a.isActive = true)
    (text : Bytes) :
    ((softbusAuthFeed crypto json env a text).result = .complete → Signed crypto json a text) ↔
      ¬ StaleSignature crypto json env a text := by
  rw [softbusAuthFeed_complete crypto json env hstate hactive]
  constructor
  · rintro hsigned ⟨htext, m, t, sig, psk, hm, hanswers, hoffers, hpsk, hshort, hstale⟩
    obtain ⟨m', t', psk', hm', hpsk', hoffers'⟩ :=
      hsigned ⟨m, htext, hm, hanswers, t, sig, hoffers, psk, hpsk, hstale.symm⟩
    obtain rfl : m = m' := by
      rw [hm] at hm'
      exact Except.ok.inj hm'
    obtain ⟨-, hsig⟩ := hoffers.unique hoffers'
    rw [hsig, crypto.hmac_length] at hshort
    exact absurd hshort (Nat.lt_irrefl _)
  · rintro hfresh ⟨m, htext, hm, hanswers, t, sig, hoffers, psk, hpsk, heq⟩
    refine ⟨m, t, psk, hm, hpsk, ?_⟩
    have hlong : authSigLen ≤ sig.length := by
      rw [← Nat.not_lt]
      intro hshort
      exact hfresh ⟨htext, m, t, sig, psk, hm, hanswers, hoffers, hpsk, hshort, heq.symm⟩
    have hwhole : rxSig env sig = sig := by
      rw [rxSig, List.drop_eq_nil_of_le (env.stack_length.trans_le hlong), List.append_nil]
    rw [← heq, hwhole]
    exact hoffers

end

/-- "pc" waits for the auth response. -/
def waitingPc : SoftbusAuth :=
  (softbusAuthFeed exchangeCrypto exchangeJson exchangeEnv startedPc
    (jsonObjectText (deviceIdMsg "phone"))).auth

theorem SoftbusAuth.signed_iff_pc :
    (softbusAuthFeed exchangeCrypto exchangeJson exchangeEnv waitingPc
        (jsonObjectText (authResponse plainSig))).result = .complete ∧
      Signed exchangeCrypto exchangeJson waitingPc (jsonObjectText (authResponse plainSig)) := by
  have hcomplete : (softbusAuthFeed exchangeCrypto exchangeJson exchangeEnv waitingPc
      (jsonObjectText (authResponse plainSig))).result = .complete := by decide +kernel
  refine ⟨hcomplete, (SoftbusAuth.signed_iff rfl rfl _).mpr ?_ hcomplete⟩
  rintro ⟨-, m, t, sig, psk, hm, -, hoffers, -, hshort, -⟩
  have hread : parseHeader exchangeJson (jsonObjectText (authResponse plainSig)) =
      .ok ⟨authResponse plainSig, 3, 5⟩ := by rfl
  rw [hread] at hm
  cases hm
  obtain ⟨hex, hhex, hdecode⟩ := hoffers.signature
  obtain rfl : softbusToHex plainSig = hex := Option.some.inj hhex
  rw [softbusFromHex_toHex (by decide)] at hdecode
  cases hdecode
  exact absurd hshort (by decide)

/-- The parser on a response with an empty signature. -/
def emptyJson : JsonGlib where
  parse text :=
    if text = jsonObjectText (authResponse []) then .ok (.object (authResponse []))
    else exchangeJson.parse text
  generate := jsonObjectText

/-- **An empty signature authenticates** where the buffer held the right one. -/
theorem SoftbusAuth.not_signed_empty :
    let env : AuthEnv := { exchangeEnv with stack := plainSig, stack_length := rfl }
    (softbusAuthFeed exchangeCrypto emptyJson env waitingPc
        (jsonObjectText (authResponse []))).result = .complete ∧
      ¬ Signed exchangeCrypto emptyJson waitingPc (jsonObjectText (authResponse [])) := by
  refine ⟨by decide +kernel, ?_⟩
  rintro ⟨m, t, psk, hm, -, hoffers⟩
  have hread : parseHeader emptyJson (jsonObjectText (authResponse [])) =
      .ok ⟨authResponse [], 3, 5⟩ := by rfl
  rw [hread] at hm
  cases hm
  obtain ⟨hex, hhex, hdecode⟩ := hoffers.signature
  obtain rfl : [] = hex := Option.some.inj hhex
  have hempty : [] = exchangeCrypto.hmacSha256 psk t.message := Option.some.inj hdecode
  have hlen := exchangeCrypto.hmac_length psk t.message
  rw [← hempty] at hlen
  cases hlen

end HwPhoneLink.Softbus
