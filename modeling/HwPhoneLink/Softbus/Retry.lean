import HwPhoneLink.Softbus.Calls
import Mathlib.Data.List.Infix

/-!
# The retry budget

Between two changes of the state at most three retries are due, any two of them at least a
timeout apart, and the next time one would be due the exchange fails.
-/

namespace HwPhoneLink.Softbus

open BigEndian

section

variable {crypto : SoftbusCrypto} {json : JsonGlib} {a : SoftbusAuth} {c : AuthCall}

/-! ## One call -/

variable (crypto json) in
/-- **A retry that is due** is within the budget and a timeout after the last one. -/
theorem AuthCall.due_spec (h : c.due a = true) :
    a.awaitingReply = true ∧ ¬ a.Ended ∧ a.retryCount < softbusAuthRetries ∧
      a.stateEnteredMs.toNat + softbusAuthStateTimeoutMs.toNat ≤ c.time.toNat ∧
      a.call crypto json c =
        { a with retryCount := a.retryCount + 1, stateEnteredMs := c.time } := by
  cases c with
  | begin env => cases h
  | feed env text => cases h
  | retry nowMs =>
      have htrue : (softbusAuthRetryDue a nowMs).2 = true := h
      rcases softbusAuthRetryDue_cases a nowMs with heq | ⟨hlive, hawaits, hdue, hcases⟩
      · rw [heq] at htrue
        cases htrue
      rcases hcases with ⟨hleft, heq⟩ | ⟨-, heq⟩
      · refine ⟨hawaits, hlive, hleft, hdue, ?_⟩
        rw [SoftbusAuth.call, heq]
        rfl
      · rw [heq] at htrue
        cases htrue

/-- The clock of the context is its own or that of the call. -/
theorem SoftbusAuth.call_entered (c : AuthCall) :
    (a.call crypto json c).stateEnteredMs = a.stateEnteredMs ∨
      (a.call crypto json c).stateEnteredMs = c.time := by
  cases c with
  | begin env =>
      by_cases hidle : a.state = .idle
      · right
        rw [SoftbusAuth.call, softbusAuthBeginActive_eq hidle]
        rfl
      · left
        rw [SoftbusAuth.call, softbusAuthBeginActive_started hidle]
  | feed env text =>
      rw [SoftbusAuth.call]
      cases softbusAuthFeed_move crypto json env a text with
      | same heq => exact .inl (congrArg SoftbusAuth.stateEnteredMs heq)
      | failed _ _ _ _ htime => exact .inl htime
      | negotiated _ _ _ _ _ hentered => exact .inr hentered.stateEnteredMs
      | identified _ _ _ _ hentered => exact .inr hentered.stateEnteredMs
      | requested _ _ _ hentered => exact .inr hentered.stateEnteredMs
      | accepted _ _ _ _ _ htime => exact .inl htime
      | informed _ _ _ _ _ hentered => exact .inr hentered.stateEnteredMs
  | retry nowMs =>
      rw [SoftbusAuth.call]
      rcases softbusAuthRetryDue_cases a nowMs with heq | ⟨-, -, -, ⟨-, heq⟩ | ⟨-, heq⟩⟩
      · exact .inl (by rw [heq])
      · exact .inr (by rw [heq]; rfl)
      · exact .inl (by rw [heq]; rfl)

/-- A call that keeps the state is a retry that is due, or does nothing. -/
theorem SoftbusAuth.call_kept (hkept : (a.call crypto json c).state = a.state)
    (hdue : ¬ c.due a = true) : a.call crypto json c = a := by
  cases c with
  | begin env =>
      by_cases hidle : a.state = .idle
      · rw [SoftbusAuth.call, softbusAuthBeginActive_eq hidle] at hkept
        have hstate : SoftbusAuthState.syncNegotiation = .idle := hkept.trans hidle
        cases hstate
      · exact softbusAuthBeginActive_started hidle
  | feed env text =>
      rw [SoftbusAuth.call] at hkept ⊢
      have hleft : ∀ {s s' : SoftbusAuthState}, a.state = s →
          (softbusAuthFeed crypto json env a text).auth.state = s' → s = s' :=
        fun hs hs' => hs.symm.trans (hkept.symm.trans hs')
      cases softbusAuthFeed_move crypto json env a text with
      | same heq => exact heq
      | failed hlive hstate => exact absurd (.inr (hkept.symm.trans hstate)) hlive
      | negotiated hstate _ hstate' => cases hleft hstate hstate'
      | identified hstate _ hstate' => cases hleft hstate hstate'
      | requested hstate _ hstate' => cases hleft hstate hstate'
      | accepted hstate _ hstate' => cases hleft hstate hstate'
      | informed hstate _ _ hstate' => cases hleft hstate hstate'
  | retry nowMs =>
      rw [SoftbusAuth.call] at hkept ⊢
      have hfalse : ¬ (softbusAuthRetryDue a nowMs).2 = true := hdue
      rcases softbusAuthRetryDue_cases a nowMs with heq | ⟨hlive, -, -, hcases⟩
      · rw [heq]
      rcases hcases with ⟨-, heq⟩ | ⟨-, heq⟩
      · rw [heq] at hfalse
        exact absurd rfl hfalse
      · rw [heq] at hkept
        have hfailed : SoftbusAuthState.failed = a.state := hkept
        exact absurd (.inr hfailed.symm) hlive

/-! ## Calls that keep the state -/

variable (crypto json) in
/-- No call of the list changes the state. -/
def SoftbusAuth.Keeps (a : SoftbusAuth) (cs : List AuthCall) : Prop :=
  ∀ pre, pre <+: cs → (a.calls crypto json pre).state = a.state

theorem SoftbusAuth.Keeps.head {cs : List AuthCall} (h : a.Keeps crypto json (c :: cs)) :
    (a.call crypto json c).state = a.state :=
  h [c] ⟨cs, rfl⟩

theorem SoftbusAuth.Keeps.tail {cs : List AuthCall} (h : a.Keeps crypto json (c :: cs)) :
    (a.call crypto json c).Keeps crypto json cs := by
  intro pre hpre
  have hcons : c :: pre <+: c :: cs := List.cons_prefix_cons.mpr ⟨rfl, hpre⟩
  exact (h (c :: pre) hcons).trans h.head.symm

theorem SoftbusAuth.dues_cons_due {cs : List AuthCall} (h : c.due a = true) :
    a.dues crypto json (c :: cs) = c.time :: (a.call crypto json c).dues crypto json cs := by
  rw [SoftbusAuth.dues, if_pos h]

theorem SoftbusAuth.dues_cons_not {cs : List AuthCall} (h : ¬ c.due a = true) :
    a.dues crypto json (c :: cs) = (a.call crypto json c).dues crypto json cs := by
  rw [SoftbusAuth.dues, if_neg h]

/-- **Between two changes of the state** the context only counts its retries. -/
theorem SoftbusAuth.Keeps.calls_eq {cs : List AuthCall} : ∀ {a : SoftbusAuth},
    a.Keeps crypto json cs → a.calls crypto json cs =
      { a with
        retryCount := a.retryCount + (a.dues crypto json cs).length
        stateEnteredMs := (a.dues crypto json cs).getLastD a.stateEnteredMs } := by
  induction cs with
  | nil =>
      intro a _
      rfl
  | cons c cs ih =>
      intro a h
      show (a.call crypto json c).calls crypto json cs = _
      rw [ih h.tail]
      by_cases hdue : c.due a = true
      · obtain ⟨-, -, -, -, hcall⟩ := AuthCall.due_spec crypto json hdue
        rw [dues_cons_due hdue, hcall, List.length_cons, List.getLastD_cons]
        simp only
        rw [Nat.add_assoc, Nat.add_comm 1]
      · rw [dues_cons_not hdue, call_kept h.head hdue]

/-- A retry that was due was within the budget. -/
theorem SoftbusAuth.Keeps.due {cs : List AuthCall} : ∀ {a : SoftbusAuth},
    a.Keeps crypto json cs → a.dues crypto json cs ≠ [] →
      a.awaitingReply = true ∧ ¬ a.Ended ∧
        a.retryCount + (a.dues crypto json cs).length ≤ softbusAuthRetries := by
  induction cs with
  | nil =>
      intro a _ hnone
      exact absurd rfl hnone
  | cons c cs ih =>
      intro a h hsome
      by_cases hdue : c.due a = true
      · obtain ⟨hawaits, hlive, hleft, -, hcall⟩ := AuthCall.due_spec crypto json hdue
        refine ⟨hawaits, hlive, ?_⟩
        rw [dues_cons_due hdue, List.length_cons]
        by_cases hrest : (a.call crypto json c).dues crypto json cs = []
        · rw [hrest]
          exact hleft
        · obtain ⟨-, -, hbudget⟩ := ih h.tail hrest
          rw [hcall] at hbudget ⊢
          rw [Nat.add_comm _ 1, ← Nat.add_assoc]
          exact hbudget
      · rw [dues_cons_not hdue] at hsome ⊢
        have hsame := call_kept h.head hdue
        have hrest := ih h.tail hsome
        rw [hsame] at hrest ⊢
        exact hrest

theorem SoftbusAuth.Keeps.dues_length {cs : List AuthCall} (h : a.Keeps crypto json cs) :
    (a.dues crypto json cs).length ≤ softbusAuthRetries := by
  by_cases hnone : a.dues crypto json cs = []
  · rw [hnone]
    exact Nat.zero_le _
  · exact Nat.le_trans (Nat.le_add_left _ _) (h.due hnone).2.2

/-! ## The times -/

/-- **Retries that are due lie a timeout apart**, from the clock of the context on. -/
theorem SoftbusAuth.dues_spaced {cs : List AuthCall} : ∀ {a : SoftbusAuth},
    (∀ c ∈ cs, a.stateEnteredMs ≤ c.time) → cs.Pairwise (fun c d => c.time ≤ d.time) →
    (∀ t ∈ a.dues crypto json cs,
      a.stateEnteredMs.toNat + softbusAuthStateTimeoutMs.toNat ≤ t.toNat) ∧
    (a.dues crypto json cs).Pairwise
      (fun t u => t.toNat + softbusAuthStateTimeoutMs.toNat ≤ u.toNat) := by
  induction cs with
  | nil =>
      intro a _ _
      refine ⟨?_, List.Pairwise.nil⟩
      intro t ht
      cases ht
  | cons c cs ih =>
      intro a hclock hsorted
      obtain ⟨hnext, hsorted'⟩ := List.pairwise_cons.mp hsorted
      have hc : a.stateEnteredMs ≤ c.time := hclock c List.mem_cons_self
      have hle : a.stateEnteredMs ≤ (a.call crypto json c).stateEnteredMs := by
        rcases a.call_entered c with heq | heq
        · exact heq ▸ UInt64.le_refl _
        · exact heq ▸ hc
      have hclock' : ∀ d ∈ cs, (a.call crypto json c).stateEnteredMs ≤ d.time := by
        intro d hd
        rcases a.call_entered c with heq | heq
        · rw [heq]
          exact hclock d (List.mem_cons_of_mem c hd)
        · rw [heq]
          exact hnext d hd
      obtain ⟨hlater, hspaced⟩ := ih hclock' hsorted'
      have hlater' : ∀ t ∈ (a.call crypto json c).dues crypto json cs,
          a.stateEnteredMs.toNat + softbusAuthStateTimeoutMs.toNat ≤ t.toNat :=
        fun t ht => Nat.le_trans
          (Nat.add_le_add_right (UInt64.le_iff_toNat_le.mp hle) _) (hlater t ht)
      by_cases hdue : c.due a = true
      · obtain ⟨-, -, -, hpast, hcall⟩ := AuthCall.due_spec crypto json hdue
        have hentered : (a.call crypto json c).stateEnteredMs = c.time := by rw [hcall]
        rw [dues_cons_due hdue]
        constructor
        · intro t ht
          rcases List.mem_cons.mp ht with rfl | ht
          · exact hpast
          · exact hlater' t ht
        · refine List.pairwise_cons.mpr ⟨?_, hspaced⟩
          rw [← hentered]
          exact hlater
      · rw [dues_cons_not hdue]
        exact ⟨hlater', hspaced⟩

variable (crypto json a) in
theorem SoftbusAuth.calls_append (cs ds : List AuthCall) :
    a.calls crypto json (cs ++ ds) = (a.calls crypto json cs).calls crypto json ds :=
  List.foldl_append

/-- **The retry budget of a context.** The calls `during` are between two changes of the
state, at times that do not decrease. -/
theorem SoftbusAuth.retry_budget (crypto : SoftbusCrypto) (json : JsonGlib)
    (device : SoftbusDevice) (psk : Option Bytes) (authId : UInt64) (nonce : AuthNonce)
    (before during : List AuthCall)
    (hclock : (before ++ during).Pairwise fun c d => c.time ≤ d.time)
    (hkeeps : ((softbusAuthNew device psk authId nonce).calls crypto json before).Keeps
      crypto json during) :
    let a := softbusAuthNew device psk authId nonce
    let b := a.calls crypto json before
    let b' := a.calls crypto json (before ++ during)
    (b.dues crypto json during).length ≤ softbusAuthRetries ∧
    (a.dues crypto json (before ++ during)).Pairwise
      (fun t u => t.toNat + softbusAuthStateTimeoutMs.toNat ≤ u.toNat) ∧
    (∀ last ∈ (b.dues crypto json during).getLast?,
      (b.dues crypto json during).length = softbusAuthRetries → ∀ nowMs,
        (nowMs.toNat < last.toNat + softbusAuthStateTimeoutMs.toNat →
          softbusAuthRetryDue b' nowMs = (b', false)) ∧
        (last.toNat + softbusAuthStateTimeoutMs.toNat ≤ nowMs.toNat →
          softbusAuthRetryDue b' nowMs = (authFail b', false))) ∧
    ∀ env text, text = [] ∨ (parseHeader json text).toOption = none →
      (softbusAuthFeed crypto json env b' text).auth = b' := by
  intro a b b'
  have hb' : b' = b.calls crypto json during := a.calls_append crypto json before during
  refine ⟨hkeeps.dues_length, ?_, ?_, fun env text h => softbusAuthFeed_unreadable crypto json h⟩
  · exact (dues_spaced (fun c _ => UInt64.le_iff_toNat_le.mpr (Nat.zero_le _)) hclock).2
  intro last hlast hspent nowMs
  have hsome : b.dues crypto json during ≠ [] := by
    rintro hnone
    rw [hnone] at hlast
    cases hlast
  obtain ⟨hawaits, hlive, -⟩ := hkeeps.due hsome
  have hentered : b'.stateEnteredMs = last := by
    rw [hb', hkeeps.calls_eq]
    show (b.dues crypto json during).getLastD b.stateEnteredMs = last
    rw [List.getLastD_eq_getLast?, Option.mem_def.mp hlast]
    rfl
  have hcount : softbusAuthRetries ≤ b'.retryCount := by
    rw [hb', hkeeps.calls_eq, ← hspent]
    exact Nat.le_add_left _ _
  have hawaits' : b'.awaitingReply = true := by
    rw [hb', hkeeps.calls_eq]
    exact hawaits
  have hlive' : ¬ b'.Ended := by
    rw [hb', hkeeps.calls_eq]
    exact hlive
  have hnotDue : ¬ (b'.state = .failed ∨ b'.state = .done) := fun h => hlive' h.symm
  constructor
  · intro hearly
    rcases softbusAuthRetryDue_cases b' nowMs with heq | ⟨-, -, hlate, -⟩
    · exact heq
    · rw [hentered] at hlate
      exact absurd hearly (Nat.not_lt.mpr hlate)
  · intro hlate
    have hpast : ¬ nowMs < b'.stateEnteredMs := by
      rw [UInt64.lt_iff_toNat_lt, hentered]
      omega
    have helapsed : ¬ nowMs - b'.stateEnteredMs < softbusAuthStateTimeoutMs := by
      rw [UInt64.lt_iff_toNat_lt, UInt64.toNat_sub_of_le _ _ (UInt64.not_lt.mp hpast), hentered]
      omega
    rw [softbusAuthRetryDue, if_neg hnotDue, if_neg (by rw [hawaits']; decide), if_neg hpast,
      if_neg helapsed, if_pos hcount]

end

/-- "pc" starts at one second, and hears nothing. -/
def retryCalls : List AuthCall :=
  [.begin { exchangeEnv with nowMs := 1000 }, .retry 31000, .retry 61000, .retry 91000]

/-- Three retries, and the fourth look at the clock fails the exchange. -/
theorem SoftbusAuth.retry_budget_pc :
    let a := (exchangeStart .left).calls exchangeCrypto exchangeJson retryCalls
    (exchangeStart .left).dues exchangeCrypto exchangeJson retryCalls = [31000, 61000, 91000] ∧
      softbusAuthRetryDue a 121000 = (authFail a, false) := by
  refine ⟨by decide +kernel, ?_⟩
  have hkeeps : ((exchangeStart .left).calls exchangeCrypto exchangeJson
      (retryCalls.take 1)).Keeps exchangeCrypto exchangeJson (retryCalls.drop 1) := by
    intro pre hpre
    rw [← List.mem_inits] at hpre
    revert pre
    decide +kernel
  exact ((SoftbusAuth.retry_budget exchangeCrypto exchangeJson _ _ _ _ (retryCalls.take 1)
    (retryCalls.drop 1) (by decide +kernel) hkeeps).2.2.1 91000 (by decide +kernel)
    (by decide +kernel) 121000).2 (by decide)

end HwPhoneLink.Softbus
