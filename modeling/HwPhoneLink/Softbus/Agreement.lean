import HwPhoneLink.Softbus.Auth
import HwPhoneLink.Fillp.Link

/-!
# What the active side may conclude

Any number of contexts with one key, and an attacker who decides what each of
them is fed. A signature covers the two nonces and the two ids, written one
after the other without delimiters: an active side that completes agrees with
a passive side on the nonces and on the two ids joined together, and on each id
when they were cut at the same place.
-/

namespace HwPhoneLink.Softbus

open BigEndian Transitions

/-! ## Comparison and messages -/

theorem foldl_or_eq_zero : ∀ (l : List (UInt8 × UInt8)) (diff : UInt8),
    l.foldl (fun diff p => diff ||| (p.1 ^^^ p.2)) diff = 0 ↔
      diff = 0 ∧ ∀ p ∈ l, p.1 = p.2 := by
  intro l
  induction l with
  | nil => intro diff; simp
  | cons p l ih =>
      intro diff
      rw [List.foldl_cons, ih, UInt8.or_eq_zero_iff, UInt8.xor_eq_zero_iff, List.forall_mem_cons,
        and_assoc]

theorem constTimeEq_eq_true : ∀ {x y : Bytes}, x.length = y.length →
    (constTimeEq x y = true ↔ x = y) := by
  intro x y hlen
  rw [constTimeEq, beq_iff_eq, foldl_or_eq_zero]
  constructor
  · rintro ⟨-, hall⟩
    apply List.ext_getElem hlen
    intro i hx hy
    have hmem : (x[i], y[i]) ∈ x.zip y := by
      rw [← List.getElem_zip (h := by simpa [hlen] using hy)]
      exact List.getElem_mem _
    exact hall _ hmem
  · rintro rfl
    refine ⟨rfl, ?_⟩
    intro p hp
    obtain ⟨i, hi, rfl⟩ := List.mem_iff_getElem.mp hp
    rw [List.getElem_zip]

theorem rxSig_length {env : AuthEnv} {sig : Bytes} (h : sig.length ≤ authSigLen) :
    (rxSig env sig).length = authSigLen := by
  rw [rxSig, List.length_append, List.length_drop, env.stack_length]
  omega

/-- The nonces have a fixed width, the ids do not. -/
theorem AuthTranscript.message_inj {t t' : AuthTranscript} :
    t.message = t'.message ↔
      t.nonceA = t'.nonceA ∧ t.nonceP = t'.nonceP ∧ t.idA ++ t.idP = t'.idA ++ t'.idP := by
  have hnonce : ∀ n n' : AuthNonce, n.bytes = n'.bytes → n = n' := by
    intro n n' h
    cases n
    cases n'
    cases h
    rfl
  have hlen : ∀ n n' : AuthNonce, n.bytes.length = n'.bytes.length := by
    intro n n'
    rw [n.length_eq, n'.length_eq]
  constructor
  · intro h
    obtain ⟨ha, h⟩ := List.append_inj h (hlen _ _)
    obtain ⟨hp, h⟩ := List.append_inj h (hlen _ _)
    exact ⟨hnonce _ _ ha, hnonce _ _ hp, h⟩
  · rintro ⟨ha, hp, hids⟩
    rw [message, message, ha, hp, hids]

/-! ## One context -/

/-- The identity of a context, and a transcript that it has, stay. -/
structure AuthKeeps (a a' : SoftbusAuth) : Prop where
  device : a'.device = a.device
  psk : a'.psk = a.psk
  isActive : a'.isActive = a.isActive
  activeNonce : a'.activeNonce = a.activeNonce
  transcript : ∀ t, a.transcript = some t → a'.transcript = some t

theorem AuthKeeps.refl (a : SoftbusAuth) : AuthKeeps a a := ⟨rfl, rfl, rfl, rfl, fun _ h => h⟩

/-- The state goes with the role, and the transcript is about the recorded ids. -/
structure AuthInv (a : SoftbusAuth) : Prop where
  passive : a.state = .idle ∨ a.state = .syncDeviceId ∨ a.state = .syncDeviceInfo →
    a.isActive = false
  active : a.state = .syncNegotiation ∨ a.state = .deviceAuth → a.isActive = true
  fresh : a.state = .idle ∨ a.state = .syncNegotiation ∨ a.state = .syncDeviceId ∨
    a.state = .deviceAuth → a.transcript = none
  signed : a.isActive = false → ∀ t, a.transcript = some t →
    a.peerDeviceId = some t.idA ∧ a.device.deviceId = some t.idP
  accepted : a.isActive = true → ∀ t, a.transcript = some t →
    t.nonceA = a.activeNonce ∧ a.device.deviceId = some t.idA ∧ a.peerDeviceId = some t.idP
  done : a.isActive = true → a.state = .done → a.transcript.isSome

theorem softbusAuthNew_inv (device : SoftbusDevice) (psk : Option Bytes) (authId : UInt64)
    (nonce : AuthNonce) : AuthInv (softbusAuthNew device psk authId nonce) := by
  constructor <;> simp [softbusAuthNew]

/-- An invariant step of one context. -/
def AuthStep (a a' : SoftbusAuth) : Prop := AuthInv a' ∧ AuthKeeps a a'

theorem AuthInv.fail {a : SoftbusAuth} (h : AuthInv a) : AuthStep a (authFail a) := by
  refine ⟨⟨?_, ?_, ?_, h.signed, h.accepted, ?_⟩, ⟨rfl, rfl, rfl, rfl, fun _ ht => ht⟩⟩
  all_goals simp [authFail]

section Feed

variable {crypto : SoftbusCrypto} {json : JsonGlib} {env : AuthEnv} {a : SoftbusAuth}

@[simp] theorem authSend_auth (msg : JsonObject) : (authSend json env a msg).auth = a := by
  unfold authSend
  split <;> rfl

@[simp] theorem authFailed_auth (e : String) : (authFailed a e).auth = authFail a := rfl

@[simp] theorem authNoop_auth (e : String) : (authNoop a e).auth = a := rfl

/-- Key derivation stores keys and nothing else. -/
theorem deriveKeys_eq (crypto : SoftbusCrypto) (env : AuthEnv) (a : SoftbusAuth) :
    ∃ control data ready, deriveKeys crypto env a =
      { a with controlKey := control, dataKey := data, keysReady := ready } := by
  unfold deriveKeys
  split
  · simp only
    split
    · split
      · exact ⟨_, _, _, rfl⟩
      · exact ⟨_, _, _, rfl⟩
    · exact ⟨_, _, _, rfl⟩
  · exact ⟨_, _, _, rfl⟩

theorem feedNegotiation_step (h : AuthInv a) (hstate : a.state = .idle) (m : AuthMsg) :
    AuthStep a (feedNegotiation json env a m).auth := by
  have hpassive := h.passive (.inl hstate)
  have hfresh := h.fresh (.inl hstate)
  unfold feedNegotiation
  simp only
  split
  · exact h.fail
  split
  · exact h.fail
  · rw [authSend_auth]
    refine ⟨?_, ⟨rfl, rfl, hpassive.symm, rfl, fun _ ht => ht⟩⟩
    constructor <;> simp [enterState, hfresh]

theorem feedDeviceId_step (h : AuthInv a) (hstate : a.state = .syncNegotiation) (m : AuthMsg) :
    AuthStep a (feedDeviceId json env a m).auth := by
  have hactive := h.active (.inl hstate)
  have hfresh := h.fresh (.inr (.inl hstate))
  unfold feedDeviceId
  simp only
  split
  · exact h.fail
  split
  · exact h.fail
  · rw [authSend_auth]
    refine ⟨?_, ⟨rfl, rfl, rfl, rfl, fun _ ht => ht⟩⟩
    constructor <;> simp [enterState, hfresh, hactive]

theorem feedDeviceId_transcript (m : AuthMsg) :
    (feedDeviceId json env a m).auth.transcript = a.transcript := by
  unfold feedDeviceId
  simp only
  split
  · rfl
  split
  · rfl
  · rw [authSend_auth]
    rfl

theorem feedAuthRequest_step (h : AuthInv a) (hstate : a.state = .syncDeviceId) (m : AuthMsg) :
    AuthStep a (feedAuthRequest crypto json env a m).auth := by
  have hpassive := h.passive (.inr (.inl hstate))
  have hfresh := h.fresh (.inr (.inr (.inl hstate)))
  unfold feedAuthRequest
  simp only
  split
  · exact h.fail
  split
  · exact h.fail
  rename_i localId hlocal
  split
  · exact h.fail
  split
  · exact h.fail
  rename_i nonceA hnonce
  -- the id of the peer is recorded before anything is signed
  set b := { a with peerDeviceId :=
    (jsonObjectGetStringMember m.obj "deviceId").or a.peerDeviceId } with hb
  have hinv : AuthInv b := by
    constructor <;> simp [hb, hstate, hfresh, hpassive]
  have hkeep : AuthKeeps a b := ⟨rfl, rfl, rfl, rfl, fun _ ht => ht⟩
  have hfail : AuthStep a (authFail b) :=
    ⟨hinv.fail.1, ⟨rfl, rfl, rfl, rfl, hkeep.transcript⟩⟩
  split
  · exact hfail
  rename_i peerId hpeer
  split
  · exact hfail
  · rw [authSend_auth]
    obtain ⟨control, data, ready, hkeys⟩ := deriveKeys_eq crypto env b
    rw [hkeys]
    refine ⟨?_, ⟨rfl, rfl, rfl, rfl, ?_⟩⟩
    · constructor
      · exact fun _ => hpassive
      · simp [enterState]
      · simp [enterState]
      · rintro - t ht
        cases ht
        exact ⟨hpeer, hlocal⟩
      · intro hactive
        have : a.isActive = true := hactive
        rw [hpassive] at this
        cases this
      · simp [enterState]
    · intro t ht
      rw [hfresh] at ht
      cases ht

theorem authResponseFields_ids {m : AuthMsg} {t : AuthTranscript} {sig : Bytes}
    (h : authResponseFields env a m = .ok (t, sig)) :
    t.nonceA = a.activeNonce ∧ a.device.deviceId = some t.idA ∧ a.peerDeviceId = some t.idP ∧
      sig.length = authSigLen := by
  unfold authResponseFields at h
  split at h
  · rename_i localId peerId hlocal hpeer
    split at h
    · split at h
      · cases h
      split at h
      · cases h
      · rename_i hsig
        cases h
        exact ⟨rfl, hlocal, hpeer, rxSig_length (softbusFromHex_length hsig)⟩
    · cases h
  · cases h

/-- The active side takes a transcript only with its signature. -/
theorem feedAuthResponse_step (h : AuthInv a) (hstate : a.state = .deviceAuth) (m : AuthMsg) :
    AuthStep a (feedAuthResponse crypto json env a m).auth ∧
      ∀ t, (feedAuthResponse crypto json env a m).auth.transcript = some t →
        ∃ psk sig, a.psk = some psk ∧ authResponseFields env a m = .ok (t, sig) ∧
          sig = crypto.hmacSha256 psk t.message := by
  have hactive := h.active (.inr hstate)
  have hfresh := h.fresh (.inr (.inr (.inr hstate)))
  have hfailed : ∀ e : String, AuthStep a (authFailed a e).auth ∧
      ∀ t, (authFailed a e).auth.transcript = some t →
        ∃ psk sig, a.psk = some psk ∧ authResponseFields env a m = .ok (t, sig) ∧
          sig = crypto.hmacSha256 psk t.message := by
    intro e
    refine ⟨h.fail, ?_⟩
    intro t ht
    have : a.transcript = some t := ht
    rw [hfresh] at this
    cases this
  unfold feedAuthResponse
  simp only
  split
  · exact hfailed _
  split
  · exact hfailed _
  rename_i t sig hfields
  split
  · exact hfailed _
  rename_i expSig hexp
  split
  · rename_i heq
    obtain ⟨control, data, ready, hkeys⟩ := deriveKeys_eq crypto env a
    rw [hkeys]
    split
    · obtain ⟨hnonce, hlocal, hpeer, hlen⟩ := authResponseFields_ids hfields
      refine ⟨⟨?_, ⟨rfl, rfl, rfl, rfl, ?_⟩⟩, ?_⟩
      · constructor
        · simp
        · simp
        · simp
        · intro hpassive
          have : a.isActive = false := hpassive
          rw [hactive] at this
          cases this
        · rintro - t' ht'
          cases ht'
          exact ⟨hnonce, hlocal, hpeer⟩
        · exact fun _ _ => rfl
      · intro t' ht'
        rw [hfresh] at ht'
        cases ht'
      · intro t' ht'
        cases ht'
        unfold computeSig at hexp
        split at hexp
        · cases hexp
        rename_i psk hpsk
        split at hexp
        · cases hexp
          refine ⟨psk, sig, hpsk, hfields, ?_⟩
          exact (constTimeEq_eq_true (hlen.trans (crypto.hmac_length _ _).symm)).mp heq
        · cases hexp
    · have hinv : AuthInv { a with controlKey := control, dataKey := data, keysReady := ready } :=
        ⟨h.passive, h.active, h.fresh, h.signed, h.accepted, h.done⟩
      refine ⟨⟨hinv.fail.1, ⟨rfl, rfl, rfl, rfl, fun _ ht => ht⟩⟩, ?_⟩
      · intro t' ht'
        have : a.transcript = some t' := ht'
        rw [hfresh] at this
        cases this
  · exact hfailed _

theorem feedDeviceInfo_step (h : AuthInv a) (hstate : a.state = .syncDeviceInfo) (m : AuthMsg) :
    AuthStep a (feedDeviceInfo env a m).auth := by
  have hpassive := h.passive (.inr (.inr hstate))
  unfold feedDeviceInfo
  simp only
  split
  · exact h.fail
  split
  · exact h.fail
  · refine ⟨?_, ⟨rfl, rfl, rfl, rfl, fun _ ht => ht⟩⟩
    constructor
    · simp [enterState]
    · simp [enterState]
    · simp [enterState]
    · exact h.signed
    · exact h.accepted
    · intro hactive
      have : a.isActive = true := hactive
      rw [hpassive] at this
      cases this

/-- What a feed does to the transcript of an active side. -/
def Accepts (crypto : SoftbusCrypto) (env : AuthEnv) (a : SoftbusAuth) (m : AuthMsg)
    (t : AuthTranscript) : Prop :=
  a.transcript = some t ∨ ∃ psk sig, a.psk = some psk ∧
    authResponseFields env a m = .ok (t, sig) ∧ sig = crypto.hmacSha256 psk t.message

variable (crypto json env) in
theorem feedMsg_step (h : AuthInv a) (m : AuthMsg) :
    AuthStep a (feedMsg crypto json env a m).auth ∧
      (a.isActive = true → ∀ t, (feedMsg crypto json env a m).auth.transcript = some t →
        Accepts crypto env a m t) := by
  -- a passive side accepts nothing, and a handler that keeps the transcript is fine
  have hpassive : a.isActive = false → ∀ a' : SoftbusAuth, a.isActive = true →
      ∀ t, a'.transcript = some t → Accepts crypto env a m t := by
    intro hp a' hactive
    rw [hp] at hactive
    cases hactive
  unfold feedMsg
  split
  · rename_i hstate
    exact ⟨feedNegotiation_step h hstate m, hpassive (h.passive (.inl hstate)) _⟩
  · rename_i hstate
    refine ⟨feedDeviceId_step h hstate m, ?_⟩
    rintro - t ht
    rw [feedDeviceId_transcript] at ht
    exact .inl ht
  · rename_i hstate
    exact ⟨feedAuthRequest_step h hstate m, hpassive (h.passive (.inr (.inl hstate))) _⟩
  · rename_i hstate
    obtain ⟨hstep, haccept⟩ := feedAuthResponse_step h hstate m
    exact ⟨hstep, fun _ t ht => .inr (haccept t ht)⟩
  · rename_i hstate
    exact ⟨feedDeviceInfo_step h hstate m, hpassive (h.passive (.inr (.inr hstate))) _⟩
  · exact ⟨⟨h, .refl a⟩, fun _ t ht => .inl ht⟩
  · exact ⟨⟨h, .refl a⟩, fun _ t ht => .inl ht⟩

variable (crypto json env) in
/-- **One feed.** The invariant and the identity of the context stay, and an active
side takes a transcript only from a message with its signature. -/
theorem softbusAuthFeed_step (h : AuthInv a) (text : Bytes) :
    AuthStep a (softbusAuthFeed crypto json env a text).auth ∧
      (a.isActive = true → ∀ t, (softbusAuthFeed crypto json env a text).auth.transcript = some t →
        a.transcript = some t ∨ ∃ m, parseHeader json text = .ok m ∧ Accepts crypto env a m t) := by
  have hnoop : ∀ e : String, AuthStep a (authNoop a e).auth ∧
      (a.isActive = true → ∀ t, (authNoop a e).auth.transcript = some t →
        a.transcript = some t ∨ ∃ m, parseHeader json text = .ok m ∧ Accepts crypto env a m t) :=
    fun _ => ⟨⟨h, .refl a⟩, fun _ t ht => .inl ht⟩
  unfold softbusAuthFeed
  split
  · exact hnoop _
  split
  · exact hnoop _
  split
  · exact hnoop _
  split
  · exact hnoop _
  split
  · exact hnoop _
  rename_i m hm
  split
  · rename_i hidle
    obtain ⟨hpassive, -⟩ := hidle
    have hadopt : AuthInv { a with authId := m.authId } :=
      ⟨h.passive, h.active, h.fresh, h.signed, h.accepted, h.done⟩
    obtain ⟨hinv, hkeep⟩ := (feedMsg_step crypto json env hadopt m).1
    refine ⟨⟨hinv, ⟨hkeep.device, hkeep.psk, hkeep.isActive, hkeep.activeNonce,
      hkeep.transcript⟩⟩, ?_⟩
    intro hactive
    rw [hpassive] at hactive
    cases hactive
  split
  · exact ⟨h.fail, fun _ t ht => .inl ht⟩
  · obtain ⟨hstep, haccept⟩ := feedMsg_step crypto json env h m
    exact ⟨hstep, fun hactive t ht => .inr ⟨m, hm, haccept hactive t ht⟩⟩

end Feed

theorem softbusAuthBeginActive_step (json : JsonGlib) (env : AuthEnv) {a : SoftbusAuth}
    (h : AuthInv a) : AuthInv (softbusAuthBeginActive json env a).auth ∧
      (a.state = .idle ∨ (softbusAuthBeginActive json env a).auth = a) ∧
      (softbusAuthBeginActive json env a).auth.device = a.device ∧
      (softbusAuthBeginActive json env a).auth.psk = a.psk ∧
      (softbusAuthBeginActive json env a).auth.transcript = a.transcript := by
  unfold softbusAuthBeginActive
  split
  · exact ⟨h, .inr rfl, rfl, rfl, rfl⟩
  · rename_i hidle
    rw [ne_eq, Decidable.not_not] at hidle
    rw [authSend_auth]
    refine ⟨?_, .inl hidle, rfl, rfl, rfl⟩
    have hfresh := h.fresh (.inl hidle)
    constructor <;> simp [enterState, hfresh]

theorem softbusAuthRetryDue_step {a : SoftbusAuth} (h : AuthInv a) (nowMs : UInt64) :
    AuthStep a (softbusAuthRetryDue a nowMs).1 ∧
      (softbusAuthRetryDue a nowMs).1.transcript = a.transcript := by
  have hid : AuthStep a a ∧ a.transcript = a.transcript := ⟨⟨h, .refl a⟩, rfl⟩
  unfold softbusAuthRetryDue
  split
  · exact hid
  split
  · exact hid
  split
  · exact hid
  split
  · exact hid
  split
  · exact ⟨h.fail, rfl⟩
  · exact ⟨⟨⟨h.passive, h.active, h.fresh, h.signed, h.accepted, h.done⟩,
      ⟨rfl, rfl, rfl, rfl, fun _ ht => ht⟩⟩, rfl⟩

/-! ## Many contexts and an attacker -/

section Net

variable {ι : Type} [DecidableEq ι]

inductive AuthNetEv (ι : Type) : Type where
  | begin (i : ι) (env : AuthEnv)
  | feed (i : ι) (env : AuthEnv) (text : Bytes)
  | retry (i : ι) (nowMs : UInt64)

/-- A text that is fed comes from nowhere in particular. -/
def AuthNetEv.step (crypto : SoftbusCrypto) (json : JsonGlib) (s : ι → SoftbusAuth) :
    AuthNetEv ι → Option (ι → SoftbusAuth)
  | .begin i env => some (Function.update s i (softbusAuthBeginActive json env (s i)).auth)
  | .feed i env text =>
      some (Function.update s i (softbusAuthFeed crypto json env (s i) text).auth)
  | .retry i nowMs => some (Function.update s i (softbusAuthRetryDue (s i) nowMs).1)

/-- Fresh contexts with one key. -/
def FreshNet (psk : Bytes) (s : ι → SoftbusAuth) : Prop :=
  ∀ i, ∃ device authId nonce, s i = softbusAuthNew device (some psk) authId nonce

/-- **Unforgeable and free of collisions.** When a message fed to an active side offers
a transcript with the HMAC of it, a passive side has computed this HMAC; and no passive
side has computed it over anything else. -/
def Unforgeable (crypto : SoftbusCrypto) (json : JsonGlib) (psk : Bytes) (s : ι → SoftbusAuth) :
    AuthNetEv ι → Prop
  | .feed i env text => ∀ m t sig, (s i).isActive = true → parseHeader json text = .ok m →
      authResponseFields env (s i) m = .ok (t, sig) → sig = crypto.hmacSha256 psk t.message →
      (∃ j t', (s j).isActive = false ∧ (s j).transcript = some t' ∧
        crypto.hmacSha256 psk t'.message = sig) ∧
      ∀ j t', (s j).transcript = some t' → crypto.hmacSha256 psk t'.message = sig →
        t'.message = t.message
  | _ => True

/-- A passive side has signed the message that an active side has accepted. -/
structure NetInv (psk : Bytes) (s : ι → SoftbusAuth) : Prop where
  auth : ∀ i, AuthInv (s i)
  psk : ∀ i, (s i).psk = some psk
  signed : ∀ i t, (s i).isActive = true → (s i).transcript = some t →
    ∃ j t', (s j).isActive = false ∧ (s j).transcript = some t' ∧ t'.message = t.message

omit [DecidableEq ι] in
theorem FreshNet.inv {psk : Bytes} {s : ι → SoftbusAuth} (h : FreshNet psk s) : NetInv psk s := by
  refine ⟨?_, ?_, ?_⟩
  · intro i
    obtain ⟨device, authId, nonce, hi⟩ := h i
    rw [hi]
    exact softbusAuthNew_inv device _ authId nonce
  · intro i
    obtain ⟨device, authId, nonce, hi⟩ := h i
    rw [hi]
    rfl
  · intro i t hactive
    obtain ⟨device, authId, nonce, hi⟩ := h i
    rw [hi] at hactive
    cases hactive

/-- One context moves; what it accepts has been signed by another. -/
theorem NetInv.update {psk : Bytes} {s : ι → SoftbusAuth} (h : NetInv psk s) {i : ι}
    {a' : SoftbusAuth} (hinv : AuthInv a') (hpsk : a'.psk = (s i).psk)
    (hkeep : ∀ t, (s i).isActive = false → (s i).transcript = some t →
      a'.isActive = false ∧ a'.transcript = some t)
    (hsigned : ∀ t, a'.isActive = true → a'.transcript = some t →
      ∃ j t', (s j).isActive = false ∧ (s j).transcript = some t' ∧ t'.message = t.message) :
    NetInv psk (Function.update s i a') := by
  have hstays : ∀ j t, (s j).isActive = false → (s j).transcript = some t →
      (Function.update s i a' j).isActive = false ∧
        (Function.update s i a' j).transcript = some t := by
    intro j t hpassive ht
    by_cases hj : j = i
    · subst hj
      rw [Function.update_self]
      exact hkeep t hpassive ht
    · rw [Function.update_of_ne hj]
      exact ⟨hpassive, ht⟩
  refine ⟨?_, ?_, ?_⟩
  · intro j
    by_cases hj : j = i
    · subst hj
      rw [Function.update_self]
      exact hinv
    · rw [Function.update_of_ne hj]
      exact h.auth j
  · intro j
    by_cases hj : j = i
    · subst hj
      rw [Function.update_self, hpsk]
      exact h.psk j
    · rw [Function.update_of_ne hj]
      exact h.psk j
  · intro j t hactive ht
    have hold : ∃ k t', (s k).isActive = false ∧ (s k).transcript = some t' ∧
        t'.message = t.message := by
      by_cases hj : j = i
      · subst hj
        rw [Function.update_self] at hactive ht
        exact hsigned t hactive ht
      · rw [Function.update_of_ne hj] at hactive ht
        exact h.signed j t hactive ht
    obtain ⟨k, t', hpassive, ht', hmessage⟩ := hold
    obtain ⟨hpassive', ht''⟩ := hstays k t' hpassive ht'
    exact ⟨k, t', hpassive', ht'', hmessage⟩

/-- **Step lemma.** -/
theorem NetInv.step {crypto : SoftbusCrypto} {json : JsonGlib} {psk : Bytes}
    {s s' : ι → SoftbusAuth} {e : AuthNetEv ι} (h : NetInv psk s)
    (hok : Unforgeable crypto json psk s e) (hs : AuthNetEv.step crypto json s e = some s') :
    NetInv psk s' := by
  cases e with
  | begin i env =>
      cases hs
      obtain ⟨hinv, hidle, -, hpsk, htranscript⟩ :=
        softbusAuthBeginActive_step json env (h.auth i)
      refine h.update hinv hpsk ?_ ?_
      · intro t hpassive ht
        rcases hidle with hidle | hsame
        · rw [(h.auth i).fresh (.inl hidle)] at ht
          cases ht
        · rw [hsame]
          exact ⟨hpassive, ht⟩
      · intro t hactive ht
        rcases hidle with hidle | hsame
        · rw [htranscript, (h.auth i).fresh (.inl hidle)] at ht
          cases ht
        · rw [hsame] at hactive ht
          exact h.signed i t hactive ht
  | feed i env text =>
      cases hs
      obtain ⟨⟨hinv, hkeep⟩, haccept⟩ :=
        softbusAuthFeed_step crypto json env (h.auth i) text
      refine h.update hinv hkeep.psk ?_ ?_
      · intro t hpassive ht
        exact ⟨hkeep.isActive.trans hpassive, hkeep.transcript t ht⟩
      · intro t hactive ht
        rw [hkeep.isActive] at hactive
        rcases haccept hactive t ht with hold | ⟨m, hm, hold | ⟨psk', sig, hpsk, hfields, hsig⟩⟩
        · exact h.signed i t hactive hold
        · exact h.signed i t hactive hold
        · rw [h.psk i] at hpsk
          cases hpsk
          obtain ⟨⟨j, t', hpassive, ht', htag⟩, hfree⟩ := hok m t sig hactive hm hfields hsig
          exact ⟨j, t', hpassive, ht', hfree j t' ht' htag⟩
  | retry i nowMs =>
      cases hs
      obtain ⟨⟨hinv, hkeep⟩, htranscript⟩ := softbusAuthRetryDue_step (h.auth i) nowMs
      refine h.update hinv hkeep.psk ?_ ?_
      · intro t hpassive ht
        exact ⟨hkeep.isActive.trans hpassive, hkeep.transcript t ht⟩
      · intro t hactive ht
        rw [hkeep.isActive] at hactive
        rw [htranscript] at ht
        exact h.signed i t hactive ht

/-! ## Agreement -/

/-- The active side `a` accepted for `ta` the signature that the passive side `p` computed
over `tp`. -/
structure Agreement (crypto : SoftbusCrypto) (psk : Bytes) (a p : SoftbusAuth)
    (ta tp : AuthTranscript) : Prop where
  accepted : a.transcript = some ta
  signed : p.transcript = some tp
  passive : p.isActive = false
  signature : crypto.hmacSha256 psk tp.message = crypto.hmacSha256 psk ta.message
  activeNonce : tp.nonceA = a.activeNonce
  passiveNonce : tp.nonceP = ta.nonceP
  activeIds : a.device.deviceId = some ta.idA ∧ a.peerDeviceId = some ta.idP
  passiveIds : p.peerDeviceId = some tp.idA ∧ p.device.deviceId = some tp.idP
  joined : tp.idA ++ tp.idP = ta.idA ++ ta.idP
  cut : p.device.deviceId = a.peerDeviceId ∧ p.peerDeviceId = a.device.deviceId ↔
    tp.idA.length = ta.idA.length

omit [DecidableEq ι] in
theorem NetInv.agrees {crypto : SoftbusCrypto} {psk : Bytes} {s : ι → SoftbusAuth}
    (h : NetInv psk s) {i : ι} (hactive : (s i).isActive = true) (hdone : (s i).state = .done) :
    ∃ j ta tp, Agreement crypto psk (s i) (s j) ta tp := by
  obtain ⟨ta, hta⟩ := Option.isSome_iff_exists.mp ((h.auth i).done hactive hdone)
  obtain ⟨j, tp, hpassive, htp, hmessage⟩ := h.signed i ta hactive hta
  obtain ⟨hnonce, hlocal, hpeer⟩ := (h.auth i).accepted hactive ta hta
  obtain ⟨hpeer', hlocal'⟩ := (h.auth j).signed hpassive tp htp
  obtain ⟨hnonceA, hnonceP, hids⟩ := AuthTranscript.message_inj.mp hmessage
  refine ⟨j, ta, tp, hta, htp, hpassive, by rw [hmessage], hnonceA.trans hnonce, hnonceP,
    ⟨hlocal, hpeer⟩, ⟨hpeer', hlocal'⟩, hids, ?_⟩
  rw [hlocal, hpeer, hpeer', hlocal', Option.some_inj, Option.some_inj]
  constructor
  · rintro ⟨-, hA⟩
    rw [hA]
  · intro hlen
    obtain ⟨hA, hP⟩ := List.append_inj hids hlen
    exact ⟨hP, hA⟩

/-- **Agreement.** Behind every active side that completes there is a passive side that
computed the accepted signature with the same nonces and with ids that join to the same
string; they are the same ids when they are cut at the same place. -/
theorem AuthNet.agreement {crypto : SoftbusCrypto} {json : JsonGlib} {psk : Bytes}
    {s t : ι → SoftbusAuth} {es : List (AuthNetEv ι)} (hs : FreshNet psk s)
    (hok : Meets (AuthNetEv.step crypto json) (Unforgeable crypto json psk) s es)
    (hrun : run (AuthNetEv.step crypto json) s es = some t) {i : ι}
    (hactive : (t i).isActive = true) (hdone : (t i).state = .done) :
    ∃ j ta tp, Agreement crypto psk (t i) (t j) ta tp := by
  have hinv : NetInv psk t := run_inv (NetInv psk) (Unforgeable crypto json psk)
    (fun _ _ _ h hok he => h.step hok he) hs.inv hok hrun
  exact hinv.agrees hactive hdone

end Net

/-! ### Two exchanges -/

section Exchange

open Fillp (Side)
open Testfile (ascii)

/-- The compact text of a node without structure. -/
def jsonText : JsonNode → Bytes
  | .integer n => ascii (toString n.toInt)
  | .string s => ascii "\"" ++ s ++ ascii "\""
  | _ => ascii "null"

def jsonObjectText (o : JsonObject) : Bytes :=
  ascii "\x7b" ++ List.flatten (List.intersperse (ascii ",")
    (o.map fun m => ascii "\"" ++ ascii m.1 ++ ascii "\":" ++ jsonText m.2)) ++ ascii "\x7d"

/-- A message of exchange 5. -/
def authMsg (state : SoftbusAuthState) (members : JsonObject) : JsonObject :=
  [("authState", .integer state.code), ("authId", .integer 5)] ++ members

def pcNonce : AuthNonce := ⟨[0, 1, 2, 3, 4, 5, 6, 7, 8, 9, 10, 11, 12, 13, 14, 15], rfl⟩

def phoneNonce : AuthNonce :=
  ⟨[16, 17, 18, 19, 20, 21, 22, 23, 24, 25, 26, 27, 28, 29, 30, 31], rfl⟩

/-- HMAC-SHA256 under the key "shared" of the two nonces and "pcphone". -/
def plainSig : Bytes :=
  [179, 252, 104, 179, 241, 217, 114, 201, 145, 60, 209, 237, 8, 140, 148, 143, 7, 241, 210, 54,
    223, 72, 28, 183, 81, 180, 210, 230, 50, 54, 106, 7]

/-- HMAC-SHA256 under the key "shared" of the two nonces and "pcxphone". -/
def shiftedSig : Bytes :=
  [157, 254, 139, 51, 105, 100, 140, 42, 42, 147, 168, 210, 243, 130, 35, 132, 185, 217, 137, 2,
    97, 151, 151, 17, 69, 92, 155, 134, 154, 3, 136, 34]

/-- HMAC-SHA256 on the two messages, and HKDF-SHA256 with the salts "pcphone" and "pcxphone". -/
def exchangeCrypto : SoftbusCrypto where
  hmacSha256 _ data := if data.length = 39 then plainSig else shiftedSig
  hkdfSha256 _ salt info :=
    if salt.length = 7 then
      if info = softbusHkdfInfoControl then
        [254, 28, 174, 196, 47, 81, 242, 237, 165, 179, 222, 241, 105, 79, 88, 224, 76, 226, 56,
          165, 105, 189, 199, 89, 103, 18, 246, 205, 28, 173, 63, 48]
      else
        [30, 67, 89, 19, 185, 121, 226, 229, 30, 254, 27, 44, 10, 102, 57, 125, 89, 198, 60, 172,
          136, 192, 206, 116, 52, 70, 222, 34, 185, 208, 169, 88]
    else
      if info = softbusHkdfInfoControl then
        [109, 47, 251, 145, 228, 167, 184, 4, 45, 211, 115, 138, 221, 63, 30, 195, 4, 71, 32, 244,
          241, 247, 235, 104, 120, 32, 2, 114, 37, 240, 61, 89]
      else
        [70, 153, 60, 238, 1, 50, 205, 115, 39, 29, 41, 172, 77, 222, 8, 41, 68, 240, 252, 199, 29,
          142, 157, 68, 61, 88, 103, 217, 4, 176, 82, 142]
  hmac_length _ data := by
    split <;> rfl

def negotiation : JsonObject := authMsg .syncNegotiation [("protoVersion", .integer 1)]

def deviceIdMsg (peerId : String) : JsonObject :=
  authMsg .syncDeviceId [("deviceId", .string (ascii peerId))]

def authRequest (peerId : String) : JsonObject :=
  authMsg .deviceAuth [("authType", .integer 3),
    ("nonce", .string (softbusToHex pcNonce.bytes)), ("deviceId", .string (ascii peerId))]

def authResponse (sig : Bytes) : JsonObject :=
  authMsg .deviceAuth [("authType", .integer 3),
    ("nonce", .string (softbusToHex phoneNonce.bytes)), ("signature", .string (softbusToHex sig))]

def deviceInfo : JsonObject :=
  authMsg .syncDeviceInfo [("capabilities", .integer 0), ("sessionKeyLen", .integer 32)]

/-- The parser on the texts of the two exchanges. -/
def exchangeJson : JsonGlib where
  parse text :=
    match [negotiation, deviceIdMsg "phone", deviceIdMsg "xphone", authRequest "pc",
        authRequest "pcx", authResponse plainSig, authResponse shiftedSig, deviceInfo].find?
        fun o => jsonObjectText o == text with
    | some o => .ok (.object o)
    | none => .error "parse error"
  generate := jsonObjectText

def exchangeEnv : AuthEnv where
  nowMs := 0
  nonceP := phoneNonce
  hmacOk := true
  controlOk := true
  dataOk := true
  stack := List.replicate 32 0
  stack_length := rfl
  wantsReply := true

/-- The left side is "pc", the right one "phone". -/
def exchangeStart (x : Side) : SoftbusAuth :=
  softbusAuthNew ⟨some (ascii (if x = .left then "pc" else "phone")), none, 0⟩
    (some (ascii "shared")) 5 pcNonce

theorem exchangeStart_fresh : FreshNet (ascii "shared") exchangeStart :=
  fun _ => ⟨_, _, _, rfl⟩

/-- The exchange with the ids that the two sides are told. -/
def exchange (phoneId pcId : String) (sig : Bytes) : List (AuthNetEv Side) :=
  [.begin .left exchangeEnv, .feed .right exchangeEnv (jsonObjectText negotiation),
    .feed .left exchangeEnv (jsonObjectText (deviceIdMsg phoneId)),
    .feed .right exchangeEnv (jsonObjectText (authRequest pcId)),
    .feed .left exchangeEnv (jsonObjectText (authResponse sig))]

/-- A test for `Unforgeable`. -/
def forgeryTest (s : Side → SoftbusAuth) : AuthNetEv Side → Bool
  | .feed i env text =>
      match parseHeader exchangeJson text with
      | .error _ => true
      | .ok m =>
          match authResponseFields env (s i) m with
          | .error _ => true
          | .ok (t, _) =>
              (s i.other).transcript.any fun t' =>
                !(s i.other).isActive && decide ((s i).transcript = none) &&
                  decide (t'.message = t.message)
  | _ => true

theorem unforgeable_of_test (s : Side → SoftbusAuth) (e : AuthNetEv Side)
    (h : forgeryTest s e = true) :
    Unforgeable exchangeCrypto exchangeJson (ascii "shared") s e := by
  cases e with
  | feed i env text =>
      intro m t sig _ hm hfields hsig
      simp only [forgeryTest, hm, hfields] at h
      obtain ⟨t', ht', h⟩ := (Option.any_eq_true ..).mp h
      simp only [Bool.and_eq_true, Bool.not_eq_true', decide_eq_true_eq] at h
      obtain ⟨⟨hpassive, hnone⟩, hmessage⟩ := h
      refine ⟨⟨i.other, t', hpassive, ht', by rw [hmessage, hsig]⟩, ?_⟩
      intro j t'' hj _
      rcases Side.eq_or_eq_other i j with rfl | rfl
      · rw [hnone] at hj
        cases hj
      · rw [ht'] at hj
        cases hj
        exact hmessage
  | _ => trivial

/-- The run ends with the left side complete and with these recorded ids. -/
def exchangeEnds (es : List (AuthNetEv Side)) (phoneId pcId : Bytes) : Bool :=
  (run (AuthNetEv.step exchangeCrypto exchangeJson) exchangeStart es).any fun s =>
    (s .left).isActive && decide ((s .left).state = .done) &&
      decide ((s .left).device.deviceId = some (ascii "pc")) &&
      decide ((s .left).peerDeviceId = some phoneId) &&
      decide ((s .right).device.deviceId = some (ascii "phone")) &&
      decide ((s .right).peerDeviceId = some pcId)

theorem exchangeEnds_spec {es : List (AuthNetEv Side)} {phoneId pcId : Bytes}
    (h : exchangeEnds es phoneId pcId = true) :
    ∃ t, run (AuthNetEv.step exchangeCrypto exchangeJson) exchangeStart es = some t ∧
      (t .left).isActive = true ∧ (t .left).state = .done ∧
      (t .left).device.deviceId = some (ascii "pc") ∧ (t .left).peerDeviceId = some phoneId ∧
      (t .right).device.deviceId = some (ascii "phone") ∧
      (t .right).peerDeviceId = some pcId := by
  obtain ⟨t, hrun, ht⟩ := (Option.any_eq_true ..).mp h
  simp only [Bool.and_eq_true, decide_eq_true_eq, and_assoc] at ht
  exact ⟨t, hrun, ht⟩

/-- The exchange as it is meant. -/
theorem AuthNet.agreement_plain :
    ∃ t, run (AuthNetEv.step exchangeCrypto exchangeJson) exchangeStart
        (exchange "phone" "pc" plainSig) = some t ∧
      (t .left).isActive = true ∧ (t .left).state = .done ∧
      ∃ j ta tp, Agreement exchangeCrypto (ascii "shared") (t .left) (t j) ta tp := by
  obtain ⟨t, hrun, hactive, hdone, -⟩ := exchangeEnds_spec (show
    exchangeEnds (exchange "phone" "pc" plainSig) (ascii "phone") (ascii "pc") = true by
      decide +kernel)
  have hok : Meets (AuthNetEv.step exchangeCrypto exchangeJson)
      (Unforgeable exchangeCrypto exchangeJson (ascii "shared")) exchangeStart
      (exchange "phone" "pc" plainSig) := meets_of_test unforgeable_of_test _ (by decide +kernel)
  exact ⟨t, hrun, hactive, hdone, AuthNet.agreement exchangeStart_fresh hok hrun hactive hdone⟩

/-- **A letter moves from one id to the other.** "pc" completes with "xphone", while the
only passive side is "phone" and has recorded "pcx". -/
theorem AuthNet.not_same_ids :
    ∃ t, run (AuthNetEv.step exchangeCrypto exchangeJson) exchangeStart
        (exchange "xphone" "pcx" shiftedSig) = some t ∧
      Meets (AuthNetEv.step exchangeCrypto exchangeJson)
        (Unforgeable exchangeCrypto exchangeJson (ascii "shared")) exchangeStart
        (exchange "xphone" "pcx" shiftedSig) ∧
      (t .left).isActive = true ∧ (t .left).state = .done ∧
      ∀ j, (t j).isActive = false → (t j).device.deviceId ≠ (t .left).peerDeviceId ∧
        (t j).peerDeviceId ≠ (t .left).device.deviceId := by
  obtain ⟨t, hrun, hactive, hdone, hlocal, hpeer, hlocal', hpeer'⟩ := exchangeEnds_spec (show
    exchangeEnds (exchange "xphone" "pcx" shiftedSig) (ascii "xphone") (ascii "pcx") = true by
      decide +kernel)
  refine ⟨t, hrun, meets_of_test unforgeable_of_test _ (by decide +kernel), hactive, hdone, ?_⟩
  intro j hpassive
  rcases Side.eq_or_eq_other .left j with rfl | rfl
  · rw [hactive] at hpassive
    cases hpassive
  · show (t .right).device.deviceId ≠ _ ∧ (t .right).peerDeviceId ≠ _
    rw [hlocal, hpeer, hlocal', hpeer']
    constructor <;> decide

end Exchange

end HwPhoneLink.Softbus
