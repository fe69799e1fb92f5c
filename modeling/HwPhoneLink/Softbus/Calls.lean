import HwPhoneLink.Softbus.Exchange

/-!
# The calls on one context

`softbus_auth_begin_active`, `softbus_auth_feed` and `softbus_auth_retry_due` in any order,
and what one call does to the state, the retry counter and the readiness of the keys.
-/

namespace HwPhoneLink.Softbus

open BigEndian Transitions

inductive AuthCall : Type where
  | begin (env : AuthEnv)
  | feed (env : AuthEnv) (text : Bytes)
  | retry (nowMs : UInt64)

/-- The clock of a call. -/
def AuthCall.time : AuthCall → UInt64
  | .begin env => env.nowMs
  | .feed env _ => env.nowMs
  | .retry nowMs => nowMs

/-- The call is a `softbus_auth_retry_due` that returns TRUE. -/
def AuthCall.due (a : SoftbusAuth) : AuthCall → Bool
  | .retry nowMs => (softbusAuthRetryDue a nowMs).2
  | _ => false

section

variable (crypto : SoftbusCrypto) (json : JsonGlib)

/-- The context after a call. -/
def SoftbusAuth.call (a : SoftbusAuth) : AuthCall → SoftbusAuth
  | .begin env => (softbusAuthBeginActive json env a).auth
  | .feed env text => (softbusAuthFeed crypto json env a text).auth
  | .retry nowMs => (softbusAuthRetryDue a nowMs).1

def SoftbusAuth.calls (a : SoftbusAuth) (cs : List AuthCall) : SoftbusAuth :=
  cs.foldl (SoftbusAuth.call crypto json) a

/-- The times at which a retry was due. -/
def SoftbusAuth.dues (a : SoftbusAuth) : List AuthCall → List UInt64
  | [] => []
  | c :: cs =>
      if c.due a then c.time :: SoftbusAuth.dues (a.call crypto json c) cs
      else SoftbusAuth.dues (a.call crypto json c) cs

/-- A call as a step. -/
def SoftbusAuth.step (a : SoftbusAuth) (c : AuthCall) : Option SoftbusAuth :=
  some (a.call crypto json c)

end

/-! ## What a feed does -/

/-- `_enter_state`, in the role it was in. -/
structure Entered (env : AuthEnv) (a a' : SoftbusAuth) : Prop where
  retryCount : a'.retryCount = 0
  stateEnteredMs : a'.stateEnteredMs = env.nowMs
  isActive : a'.isActive = a.isActive

inductive FeedMove (env : AuthEnv) (a a' : SoftbusAuth) : Prop where
  | same : a' = a → FeedMove env a a'
  | failed : ¬ a.Ended → a'.state = .failed → a'.keysReady = a.keysReady →
      a'.isActive = a.isActive → a'.stateEnteredMs = a.stateEnteredMs → FeedMove env a a'
  | negotiated : a.state = .idle → a.isActive = false → a'.state = .syncDeviceId →
      a'.keysReady = a.keysReady → a'.peerDeviceId = a.peerDeviceId → Entered env a a' →
      FeedMove env a a'
  | identified : a.state = .syncNegotiation → a.isActive = true → a'.state = .deviceAuth →
      a'.keysReady = a.keysReady → Entered env a a' → FeedMove env a a'
  | requested : a.state = .syncDeviceId → a.isActive = false → a'.state = .syncDeviceInfo →
      Entered env a a' → FeedMove env a a'
  | accepted : a.state = .deviceAuth → a.isActive = true → a'.state = .done →
      a'.keysReady = true → a'.isActive = a.isActive → a'.stateEnteredMs = a.stateEnteredMs →
      FeedMove env a a'
  | informed : a.state = .syncDeviceInfo → a.isActive = false → a.keysReady = true →
      a'.state = .done → a'.keysReady = true → Entered env a a' → FeedMove env a a'

section

variable {crypto : SoftbusCrypto} {json : JsonGlib} {env : AuthEnv} {a : SoftbusAuth}

theorem FeedMove.fail (h : ¬ a.Ended) : FeedMove env a (authFail a) :=
  .failed h rfl rfl rfl rfl

theorem not_ended_of_state {s : SoftbusAuthState} (h : a.state = s) (hdone : s ≠ .done)
    (hfailed : s ≠ .failed) : ¬ a.Ended := by
  rintro (hs | hs)
  · exact hdone (h.symm.trans hs)
  · exact hfailed (h.symm.trans hs)

theorem feedNegotiation_move (hstate : a.state = .idle) (m : AuthMsg) :
    FeedMove env a (feedNegotiation json env a m).auth := by
  have hlive : ¬ a.Ended := not_ended_of_state hstate (by decide) (by decide)
  unfold feedNegotiation
  simp only
  split
  · exact .fail hlive
  rename_i hrole
  rw [not_or, Bool.not_eq_true] at hrole
  split
  · exact .fail hlive
  · rw [authSend_auth]
    exact .negotiated hstate hrole.1 rfl rfl rfl ⟨rfl, rfl, hrole.1.symm⟩

/-- An idle side either negotiates or fails. -/
theorem feedNegotiation_left_idle (m : AuthMsg) :
    (feedNegotiation json env a m).auth.state ≠ .idle := by
  unfold feedNegotiation
  simp only
  split
  · exact SoftbusAuthState.noConfusion
  split
  · exact SoftbusAuthState.noConfusion
  · rw [authSend_auth]
    exact SoftbusAuthState.noConfusion

theorem feedDeviceId_move (hstate : a.state = .syncNegotiation) (m : AuthMsg) :
    FeedMove env a (feedDeviceId json env a m).auth := by
  have hlive : ¬ a.Ended := not_ended_of_state hstate (by decide) (by decide)
  unfold feedDeviceId
  simp only
  split
  · exact .fail hlive
  rename_i hrole
  rw [not_or, Bool.not_eq_false] at hrole
  split
  · exact .fail hlive
  · rw [authSend_auth]
    exact .identified hstate hrole.1 rfl rfl ⟨rfl, rfl, rfl⟩

theorem feedAuthRequest_move (hstate : a.state = .syncDeviceId) (m : AuthMsg) :
    FeedMove env a (feedAuthRequest crypto json env a m).auth := by
  have hlive : ¬ a.Ended := not_ended_of_state hstate (by decide) (by decide)
  unfold feedAuthRequest
  simp only
  split
  · exact .fail hlive
  rename_i hrole
  rw [not_or, Bool.not_eq_true] at hrole
  split
  · exact .fail hlive
  split
  · exact .fail hlive
  split
  · exact .fail hlive
  split
  · exact .failed hlive rfl rfl rfl rfl
  split
  · exact .failed hlive rfl rfl rfl rfl
  · rw [authSend_auth]
    set b := { a with peerDeviceId :=
      (jsonObjectGetStringMember m.obj "deviceId").or a.peerDeviceId }
    obtain ⟨control, data, ready, hkeys⟩ := deriveKeys_eq crypto env b
    rw [hkeys]
    exact .requested hstate hrole.1 rfl ⟨rfl, rfl, rfl⟩

/-- Keys that are not there afterwards were not there before. -/
theorem deriveKeys_not_ready (h : (deriveKeys crypto env a).keysReady ≠ true) :
    (deriveKeys crypto env a).keysReady = a.keysReady := by
  unfold deriveKeys at h ⊢
  split
  · rename_i hpsk hpeer hlocal
    simp only [hpsk, hpeer, hlocal] at h
    simp only
    split
    · rename_i hcontrol
      rw [if_pos hcontrol] at h
      split
      · rename_i hdata
        rw [if_pos hdata] at h
        exact absurd rfl h
      · rfl
    · rfl
  · rfl

theorem feedAuthResponse_move (hstate : a.state = .deviceAuth) (m : AuthMsg) :
    FeedMove env a (feedAuthResponse crypto json env a m).auth := by
  have hlive : ¬ a.Ended := not_ended_of_state hstate (by decide) (by decide)
  unfold feedAuthResponse
  simp only
  split
  · exact .fail hlive
  rename_i hrole
  rw [not_or, Bool.not_eq_false] at hrole
  split
  · exact .fail hlive
  split
  · exact .fail hlive
  split
  · obtain ⟨control, data, ready, hkeys⟩ := deriveKeys_eq crypto env a
    split
    · rename_i hready
      rw [hkeys] at hready ⊢
      exact .accepted hstate hrole.1 rfl hready rfl rfl
    · rename_i hready
      have hsame := deriveKeys_not_ready hready
      rw [hkeys] at hsame ⊢
      exact .failed hlive rfl hsame rfl rfl
  · exact .fail hlive

theorem feedDeviceInfo_move (hstate : a.state = .syncDeviceInfo) (m : AuthMsg) :
    FeedMove env a (feedDeviceInfo env a m).auth := by
  have hlive : ¬ a.Ended := not_ended_of_state hstate (by decide) (by decide)
  unfold feedDeviceInfo
  simp only
  split
  · exact .fail hlive
  rename_i hrole
  rw [not_or, Bool.not_eq_true] at hrole
  split
  · exact .fail hlive
  · rename_i hready
    rw [Bool.not_eq_false] at hready
    exact .informed hstate hrole.1 hready rfl hready ⟨rfl, rfl, rfl⟩

variable (crypto json env) in
theorem feedMsg_move (m : AuthMsg) : FeedMove env a (feedMsg crypto json env a m).auth := by
  unfold feedMsg
  split
  · rename_i hstate
    exact feedNegotiation_move hstate m
  · rename_i hstate
    exact feedDeviceId_move hstate m
  · rename_i hstate
    exact feedAuthRequest_move hstate m
  · rename_i hstate
    exact feedAuthResponse_move hstate m
  · rename_i hstate
    exact feedDeviceInfo_move hstate m
  · exact .same rfl
  · exact .same rfl

variable (crypto json env a) in
/-- **One feed.** -/
theorem softbusAuthFeed_move (text : Bytes) :
    FeedMove env a (softbusAuthFeed crypto json env a text).auth := by
  unfold softbusAuthFeed
  split
  · exact .same rfl
  split
  · exact .same rfl
  rename_i hactive
  split
  · exact .same rfl
  rename_i hdone
  split
  · exact .same rfl
  rename_i hfailed
  have hlive : ¬ a.Ended := by
    rintro (h | h)
    · exact hdone h
    · exact hfailed h
  split
  · exact .same rfl
  rename_i m _
  split
  · rename_i hidle
    obtain ⟨hpassive, hidle⟩ := hidle
    have hmove := feedMsg_move crypto json env (a := { a with authId := m.authId }) m
    cases hmove with
    | same heq =>
        have hnegotiation : feedMsg crypto json env { a with authId := m.authId } m =
            feedNegotiation json env { a with authId := m.authId } m := by
          rw [feedMsg, hidle]
        rw [hnegotiation] at heq
        exact absurd ((congrArg SoftbusAuth.state heq).trans hidle)
          (feedNegotiation_left_idle m)
    | failed _ hstate hkeys hrole htime => exact .failed hlive hstate hkeys hrole htime
    | negotiated _ _ hstate hkeys hpeer hentered =>
        exact .negotiated hidle hpassive hstate hkeys hpeer
          ⟨hentered.retryCount, hentered.stateEnteredMs, hentered.isActive⟩
    | identified h => exact absurd (hidle.symm.trans h) (by decide)
    | requested h => exact absurd (hidle.symm.trans h) (by decide)
    | accepted h => exact absurd (hidle.symm.trans h) (by decide)
    | informed h => exact absurd (hidle.symm.trans h) (by decide)
  split
  · exact .fail hlive
  · exact feedMsg_move crypto json env m

/-! ## What a start and a retry do -/

theorem softbusAuthBeginActive_eq (hidle : a.state = .idle) :
    (softbusAuthBeginActive json env a).auth =
      enterState env { a with isActive := true, awaitingReply := true } .syncNegotiation := by
  rw [softbusAuthBeginActive, if_neg (fun h => h hidle)]
  simp only
  rw [authSend_auth]

theorem softbusAuthBeginActive_started (hidle : a.state ≠ .idle) :
    (softbusAuthBeginActive json env a).auth = a := by
  rw [softbusAuthBeginActive, if_pos hidle]
  rfl

/-- **One look at the clock**: no time has passed, a retry, or the end. -/
theorem softbusAuthRetryDue_cases (a : SoftbusAuth) (nowMs : UInt64) :
    softbusAuthRetryDue a nowMs = (a, false) ∨
    (¬ a.Ended ∧ a.awaitingReply = true ∧
      a.stateEnteredMs.toNat + softbusAuthStateTimeoutMs.toNat ≤ nowMs.toNat ∧
      ((a.retryCount < softbusAuthRetries ∧ softbusAuthRetryDue a nowMs =
          ({ a with retryCount := a.retryCount + 1, stateEnteredMs := nowMs }, true)) ∨
        (softbusAuthRetries ≤ a.retryCount ∧
          softbusAuthRetryDue a nowMs = (authFail a, false)))) := by
  unfold softbusAuthRetryDue
  split
  · exact .inl rfl
  rename_i hlive
  split
  · exact .inl rfl
  rename_i hawaits
  split
  · exact .inl rfl
  rename_i hpast
  split
  · exact .inl rfl
  rename_i helapsed
  have hdue : a.stateEnteredMs.toNat + softbusAuthStateTimeoutMs.toNat ≤ nowMs.toNat := by
    rw [UInt64.lt_iff_toNat_lt, Nat.not_lt] at hpast helapsed
    rw [UInt64.toNat_sub_of_le _ _ (UInt64.le_iff_toNat_le.mpr hpast)] at helapsed
    omega
  right
  refine ⟨fun h => hlive h.symm, by simpa using hawaits, hdue, ?_⟩
  split
  · rename_i hspent
    exact .inr ⟨hspent, rfl⟩
  · rename_i hleft
    exact .inl ⟨Nat.not_le.mp hleft, rfl⟩

end

end HwPhoneLink.Softbus
