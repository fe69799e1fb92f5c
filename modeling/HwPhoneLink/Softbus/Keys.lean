import HwPhoneLink.Softbus.Calls

/-!
# When there are keys

The getters return keys from the moment they are derived. The active side derives them with its
last step, the passive side when it answers the auth request, two messages before the end.
-/

namespace HwPhoneLink.Softbus

open BigEndian Transitions

section

variable {crypto : SoftbusCrypto} {json : JsonGlib} {env : AuthEnv} {a : SoftbusAuth}

/-- The getters return keys exactly in the state DONE. -/
def KeysWhenDone (a : SoftbusAuth) : Prop :=
  ((softbusAuthGetControlKey a).isSome ↔ a.state = .done) ∧
  ((softbusAuthGetDataKey a).isSome ↔ a.state = .done) ∧
  (softbusAuthGetKeyLen a ≠ 0 ↔ a.state = .done)

theorem keysWhenDone_iff : KeysWhenDone a ↔ (a.keysReady = true ↔ a.state = .done) := by
  unfold KeysWhenDone softbusAuthGetControlKey softbusAuthGetDataKey softbusAuthGetKeyLen
  cases a.keysReady with
  | false => simp
  | true => simp [softbusSessionKeyLen]

/-- An auth request that a passive side answers, with its keys. -/
def GivesKeys (json : JsonGlib) (a : SoftbusAuth) : AuthCall → Prop
  | .feed env text => a.state = .syncDeviceId ∧ (a.psk.isSome ∧ a.device.deviceId.isSome) ∧
      text ≠ [] ∧ ∃ m, parseHeader json text = .ok m ∧ m.authId = a.authId ∧ IsAuthRequest m ∧
        env.CryptoOk
  | _ => False

/-- Before the auth request the passive side knows nothing of its peer. -/
structure NoKeys (a : SoftbusAuth) : Prop where
  keysReady : a.keysReady = true ↔ a.state = .done
  fresh : a.state = .idle ∨ a.state = .syncDeviceId →
    a.isActive = false ∧ a.peerDeviceId = none

theorem NoKeys.of_started {a' : SoftbusAuth} (hkeys : a'.keysReady = true ↔ a'.state = .done)
    (hidle : a'.state ≠ .idle) (hdeviceId : a'.state ≠ .syncDeviceId) : NoKeys a' := by
  refine ⟨hkeys, ?_⟩
  rintro (h | h)
  · exact absurd h hidle
  · exact absurd h hdeviceId

/-- No keys, in a state that is not the last. -/
theorem NoKeys.not_ready (h : NoKeys a) (hdone : a.state ≠ .done) : a.keysReady = false := by
  rw [← Bool.not_eq_true]
  exact fun hready => hdone (h.keysReady.mp hready)

theorem NoKeys.atDeviceId (h : NoKeys a) (hstate : a.state = .syncDeviceId) :
    AtDeviceId a.device a.psk a.authId a := by
  obtain ⟨hpassive, hpeer⟩ := h.fresh (.inr hstate)
  exact ⟨hstate, hpassive, rfl, rfl, rfl, hpeer, h.not_ready (by rw [hstate]; decide)⟩

/-- **A move keeps the keys away** unless it answers an auth request with them. -/
theorem NoKeys.move {a' : SoftbusAuth} (h : NoKeys a) (hmove : FeedMove env a a')
    (hrequested : a'.state = .syncDeviceInfo → a.isActive = false → a.state = .syncDeviceId →
      a'.keysReady = false) : NoKeys a' := by
  -- a state with no keys that is neither of the two first ones
  have hstarted : ∀ {s : SoftbusAuthState}, a'.state = s → a'.keysReady = false → s ≠ .done →
      s ≠ .idle → s ≠ .syncDeviceId → NoKeys a' := by
    rintro s rfl hready hdone hidle hdeviceId
    refine .of_started ?_ hidle hdeviceId
    rw [hready]
    exact iff_of_false Bool.false_ne_true hdone
  cases hmove with
  | same heq => exact heq ▸ h
  | failed hlive hstate hkeys =>
      have hready := hkeys.trans (h.not_ready fun hdone => hlive (.inl hdone))
      exact hstarted hstate hready (by decide) (by decide) (by decide)
  | negotiated hstate hpassive hstate' hkeys hpeer hentered =>
      have hready := hkeys.trans (h.not_ready (by rw [hstate]; decide))
      refine ⟨?_, fun _ => ⟨hentered.isActive.trans hpassive, ?_⟩⟩
      · rw [hready, hstate']
        decide
      · exact hpeer.trans (h.fresh (.inl hstate)).2
  | identified hstate _ hstate' hkeys =>
      have hready := hkeys.trans (h.not_ready (by rw [hstate]; decide))
      exact hstarted hstate' hready (by decide) (by decide) (by decide)
  | requested hstate hpassive hstate' =>
      exact hstarted hstate' (hrequested hstate' hpassive hstate) (by decide) (by decide)
        (by decide)
  | accepted _ _ hstate' hready =>
      refine .of_started ?_ (by rw [hstate']; decide) (by rw [hstate']; decide)
      exact iff_of_true hready hstate'
  | informed hstate _ hready =>
      rw [h.not_ready (by rw [hstate]; decide)] at hready
      cases hready

variable (crypto) in
/-- **What a feed in the state of the auth request gives.** -/
theorem NoKeys.feed_deviceId (h : NoKeys a) (hstate : a.state = .syncDeviceId) (text : Bytes) :
    (GivesKeys json a (.feed env text) ∧
      AtDeviceInfo a.authId (softbusAuthFeed crypto json env a text).auth) ∨
    (¬ GivesKeys json a (.feed env text) ∧
      NoKeys (softbusAuthFeed crypto json env a text).auth) := by
  by_cases htext : text = []
  · right
    rw [softbusAuthFeed_unreadable crypto json (.inl htext)]
    exact ⟨fun hgives => hgives.2.2.1 htext, h⟩
  cases hm : parseHeader json text with
  | error e =>
      right
      rw [softbusAuthFeed_unreadable crypto json (.inr (by rw [hm]; rfl))]
      refine ⟨?_, h⟩
      rintro ⟨-, -, -, m, hm', -⟩
      rw [hm] at hm'
      cases hm'
  | ok m =>
      have hmove := softbusAuthFeed_move crypto json env a text
      rw [softbusAuthFeed_parsed crypto json htext hm] at hmove ⊢
      rcases feedParsed_second crypto json (h.atDeviceId hstate) (env, m) with
        ⟨hpsk, hrequest, hinfo⟩ | ⟨hnot, hstuck⟩
      · exact .inl ⟨⟨hstate, hpsk, htext, m, hm, hrequest⟩, hinfo⟩
      right
      constructor
      · rintro ⟨-, hpsk, -, m', hm', hrequest⟩
        rw [hm] at hm'
        cases hm'
        exact hnot ⟨hpsk, hrequest⟩
      · refine h.move hmove fun hinfo _ _ => ?_
        rcases hstuck with hfailed | ⟨-, -, hready⟩
        · rw [hinfo] at hfailed
          cases hfailed
        · exact hready

/-- A call that is no such auth request keeps the keys away. -/
theorem NoKeys.call {c : AuthCall} (h : NoKeys a) (hnot : ¬ GivesKeys json a c) :
    NoKeys (a.call crypto json c) := by
  cases c with
  | begin env =>
      rw [SoftbusAuth.call]
      by_cases hidle : a.state = .idle
      · rw [softbusAuthBeginActive_eq hidle]
        have hready : a.keysReady = false := h.not_ready (by rw [hidle]; decide)
        refine .of_started ?_ SoftbusAuthState.noConfusion SoftbusAuthState.noConfusion
        show a.keysReady = true ↔ SoftbusAuthState.syncNegotiation = .done
        rw [hready]
        decide
      · rw [softbusAuthBeginActive_started hidle]
        exact h
  | feed env text =>
      rw [SoftbusAuth.call]
      by_cases hstate : a.state = .syncDeviceId
      · rcases h.feed_deviceId crypto hstate text with ⟨hgives, -⟩ | ⟨-, hkept⟩
        · exact absurd hgives hnot
        · exact hkept
      · exact h.move (softbusAuthFeed_move crypto json env a text)
          fun _ _ hrequest => absurd hrequest hstate
  | retry nowMs =>
      rw [SoftbusAuth.call]
      rcases softbusAuthRetryDue_cases a nowMs with heq | ⟨hlive, -, -, hcases⟩
      · rw [heq]
        exact h
      rcases hcases with ⟨-, heq⟩ | ⟨-, heq⟩
      · rw [heq]
        exact ⟨h.keysReady, h.fresh⟩
      · rw [heq]
        have hready : a.keysReady = false := h.not_ready fun hdone => hlive (.inl hdone)
        refine .of_started ?_ SoftbusAuthState.noConfusion SoftbusAuthState.noConfusion
        show a.keysReady = true ↔ SoftbusAuthState.failed = .done
        rw [hready]
        decide

/-- Keys before the last message. -/
theorem GivesKeys.early {c : AuthCall} (h : NoKeys a) (hgives : GivesKeys json a c) :
    ¬ KeysWhenDone (a.call crypto json c) := by
  cases c with
  | begin env => exact hgives.elim
  | feed env text =>
      rcases h.feed_deviceId crypto hgives.1 text with ⟨-, hinfo⟩ | ⟨hnot, -⟩
      · rw [SoftbusAuth.call, keysWhenDone_iff, hinfo.keysReady, hinfo.state]
        decide
      · exact absurd hgives hnot
  | retry nowMs => exact hgives.elim

/-- **The keys are there exactly in DONE** as long as no passive side answers an auth request. -/
theorem SoftbusAuth.keysWhenDone_iff_no_request (crypto : SoftbusCrypto) (json : JsonGlib)
    (device : SoftbusDevice) (psk : Option Bytes) (authId : UInt64) (nonce : AuthNonce)
    (cs : List AuthCall) :
    (∀ pre, pre <+: cs → ∀ t,
      run (SoftbusAuth.step crypto json) (softbusAuthNew device psk authId nonce) pre = some t →
      KeysWhenDone t) ↔
    Meets (SoftbusAuth.step crypto json) (fun a c => ¬ GivesKeys json a c)
      (softbusAuthNew device psk authId nonce) cs := by
  have hnew : NoKeys (softbusAuthNew device psk authId nonce) :=
    ⟨iff_of_false Bool.false_ne_true SoftbusAuthState.noConfusion, fun _ => ⟨rfl, rfl⟩⟩
  refine good_iff_meets NoKeys (fun a h => keysWhenDone_iff.mpr h.keysReady) ?_ ?_ hnew
  · rintro a c a' h hnot hstep
    cases hstep
    exact h.call hnot
  · intro a c h hnot
    exact ⟨_, rfl, (not_not.mp hnot).early h⟩

end

/-- "phone" has the keys once it has answered the auth request, and after it has failed. -/
theorem SoftbusAuth.not_keysWhenDone_phone :
    let cs : List AuthCall := [.feed exchangeEnv (jsonObjectText negotiation),
      .feed exchangeEnv (jsonObjectText (authRequest "pc")),
      .feed exchangeEnv (jsonObjectText negotiation)]
    let a := (exchangeStart .right).calls exchangeCrypto exchangeJson (cs.take 2)
    let a' := (exchangeStart .right).calls exchangeCrypto exchangeJson cs
    (a.state = .syncDeviceInfo ∧ ¬ KeysWhenDone a) ∧ a'.state = .failed ∧ ¬ KeysWhenDone a' := by
  intro cs a a'
  refine ⟨⟨by decide +kernel, ?_⟩, by decide +kernel, ?_⟩
  · rw [keysWhenDone_iff]
    decide +kernel
  · rw [keysWhenDone_iff]
    decide +kernel

end HwPhoneLink.Softbus
