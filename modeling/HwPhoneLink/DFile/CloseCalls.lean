import HwPhoneLink.Fillp.CloseCalls
import Mathlib.Data.List.Count

/-!
# Close calls and the lock of a DFile connection

`dfile_conn_close` holds `c->lock` while `g_main_context_invoke_full` runs
`close_impl`, on the engine thread at once. `shutdown_common` takes no lock, but it
calls the application back, which may close again: that call finds the lock held
by its own thread.

The steps are as for the fillp engine (`HwPhoneLink.Fillp.CloseCalls`). Here a close
stays on the stack of the engine thread while its shutdown calls back.
-/

namespace HwPhoneLink.DFile

open Transitions

inductive DcCallback : Type where
  | onResult | onClosed
deriving DecidableEq, Repr

/-- A call that the engine thread is in: engine code that may call back, a callback,
`shutdown_common` with the callbacks that it will make, or `dfile_conn_close` with
the lock. -/
inductive DcFrame : Type where
  | source | callback | close
  | shutdown (todo : List DcCallback)
deriving DecidableEq, Repr

/-- The engine thread: not started, before its loop, in the loop, behind it, and
after `dc_teardown`. -/
inductive DcStage : Type where
  | created | starting | looping | left | done
deriving DecidableEq, Repr

/-- `tx` and `rx` tell that there is a transfer that can still fail. `queued` counts the
invocations of `close_impl` that wait for the loop. -/
structure DcCalls where
  mutex : Mutex
  threadStarted : Bool
  threadDone : Bool
  closeRequested : Bool
  closing : Bool
  tx : Bool
  rx : Bool
  quit : Bool
  stage : DcStage
  stack : List DcFrame
  queued : ℕ
deriving DecidableEq, Repr

def dcCallsNew : DcCalls :=
  ⟨Mutex.init, false, false, false, false, false, false, false, .created, [], 0⟩

inductive DcCallEv : Type where
  /-- Another thread. -/
  | otherClose
  /-- `engine_thread` -/
  | threadStart
  | loopRun
  | loopExit
  | teardown
  /-- The loop. -/
  | dispatch
  | dispatchInvoked
  /-- Transfers begin and end. -/
  | transfers (tx rx : Bool)
  /-- An error that ends the connection. -/
  | fatal
  | callback
  /-- The next callback of a shutdown, and one that is not set. -/
  | shutdownCallback
  | shutdownSkip
  | callReturn
  /-- A callback closes. -/
  | close
deriving DecidableEq, Repr

namespace DcCalls

/-- Up to the first callback. -/
def shutdownCommon (s : DcCalls) : DcCalls :=
  if s.closing then s
  else
    let results := if s.tx then [DcCallback.onResult] else []
    let results := if s.rx then results ++ [.onResult] else results
    { s with closing := true, tx := false, rx := false
             stack := .shutdown (results ++ [.onClosed]) :: s.stack }

/-- `close_impl` in the section returns to it: the frame `close` unlocks. -/
def dfileConnClose (s : DcCalls) (owner : Bool) : DcCalls :=
  let s := { s with mutex := s.mutex.lock }
  if s.closeRequested ∨ s.threadDone then { s with mutex := s.mutex.unlock }
  else
    let s := { s with closeRequested := true }
    if s.threadStarted then
      if owner then { s with stack := .close :: s.stack }.shutdownCommon
      else { s with queued := s.queued + 1, mutex := s.mutex.unlock }
    else { s with mutex := s.mutex.unlock }

/-- The engine thread owns the context in its loop. -/
def owner (s : DcCalls) : Bool := s.stage = .looping

/-- A thread that has relocked hangs, and the others at its lock. -/
def step (s : DcCalls) (e : DcCallEv) : Option DcCalls :=
  if s.mutex.relocked then none
  else
    match e with
    | .otherClose => if s.mutex.held then none else some (s.dfileConnClose false)
    | .threadStart =>
        if s.stage = .created then
          if s.closeRequested then
            some { s with mutex := s.mutex.pass, stage := .starting }.shutdownCommon
          else
            -- the local SETTING is sent before the loop
            some { s with
              mutex := s.mutex.pass, threadStarted := true, stage := .starting
              stack := [.source] }
        else none
    | .loopRun =>
        if s.stage = .starting ∧ s.stack = [] then
          some { s with stage := if s.closing then .left else .looping }
        else none
    | .loopExit =>
        if s.stage = .looping ∧ s.stack = [] ∧ s.quit then some { s with stage := .left } else none
    | .teardown =>
        if s.stage = .left then
          some { s with
            mutex := s.mutex.pass, threadDone := true, threadStarted := false, stage := .done }
        else none
    | .dispatch =>
        if s.stage = .looping ∧ s.stack = [] then some { s with stack := [.source] } else none
    | .dispatchInvoked =>
        if s.stage = .looping ∧ s.stack = [] ∧ s.queued > 0 then
          some { s with queued := s.queued - 1 }.shutdownCommon
        else none
    | .transfers tx rx =>
        if s.closing ∨ s.stack = [] then none else some { s with tx := tx, rx := rx }
    | .fatal =>
        match s.stack with
        | .source :: _ => some s.shutdownCommon
        | _ => none
    | .callback =>
        match s.stack with
        | .source :: _ => some { s with stack := .callback :: s.stack }
        | _ => none
    | .shutdownCallback =>
        match s.stack with
        | .shutdown (_ :: todo) :: stack =>
            some { s with stack := .callback :: .shutdown todo :: stack }
        | _ => none
    | .shutdownSkip =>
        match s.stack with
        | .shutdown (_ :: todo) :: stack => some { s with stack := .shutdown todo :: stack }
        | _ => none
    | .callReturn =>
        match s.stack with
        | .close :: stack => some { s with stack := stack, mutex := s.mutex.unlock }
        | .shutdown [] :: stack => some { s with stack := stack, quit := true }
        | .shutdown (_ :: _) :: _ => none
        | _ :: stack => some { s with stack := stack }
        | [] => none
    | .close =>
        match s.stack with
        | .callback :: _ => some (s.dfileConnClose s.owner)
        | _ => none

variable {s s' : DcCalls}

/-! ## What the functions do to the lock -/

@[simp] theorem shutdownCommon_mutex (s : DcCalls) : s.shutdownCommon.mutex = s.mutex := by
  unfold shutdownCommon
  split
  · rfl
  · rfl

@[simp] theorem shutdownCommon_stage (s : DcCalls) : s.shutdownCommon.stage = s.stage := by
  unfold shutdownCommon
  split
  · rfl
  · rfl

theorem shutdownCommon_stack (s : DcCalls) :
    s.shutdownCommon.stack = s.stack ∨ ∃ todo, s.shutdownCommon.stack = .shutdown todo :: s.stack := by
  unfold shutdownCommon
  split
  · exact Or.inl rfl
  · exact Or.inr ⟨_, rfl⟩

theorem shutdownCommon_count (s : DcCalls) :
    s.shutdownCommon.stack.count .close = s.stack.count .close := by
  rcases s.shutdownCommon_stack with heq | ⟨todo, heq⟩
  · rw [heq]
  · rw [heq]
    exact List.count_cons_of_ne (fun h => by cases h)

theorem dfileConnClose_relocked (s : DcCalls) (owner : Bool) :
    (s.dfileConnClose owner).mutex.relocked = (s.mutex.relocked || s.mutex.held) := by
  unfold dfileConnClose
  simp only
  split
  · rfl
  split
  · split
    · rw [shutdownCommon_mutex]
      rfl
    · rfl
  · rfl

theorem dfileConnClose_stage (s : DcCalls) (owner : Bool) :
    (s.dfileConnClose owner).stage = s.stage := by
  unfold dfileConnClose
  simp only
  split
  · rfl
  split
  · split
    · rw [shutdownCommon_stage]
    · rfl
  · rfl

/-! ## Between two steps -/

/-- The engine thread holds the lock where one of its calls is a close, and it has
not taken it twice. -/
structure Inv (s : DcCalls) : Prop where
  once : s.mutex.relocked = false
  lock : s.stack.count .close = if s.mutex.held then 1 else 0
  calls : s.stack ≠ [] → s.stage = .starting ∨ s.stage = .looping

theorem inv_new : dcCallsNew.Inv where
  once := rfl
  lock := rfl
  calls := fun h => absurd rfl h

theorem Inv.held_iff (h : s.Inv) : s.mutex.held = true ↔ .close ∈ s.stack := by
  rw [← List.count_pos_iff, h.lock]
  cases s.mutex.held with
  | false =>
      constructor
      · exact fun hheld => absurd hheld Bool.false_ne_true
      · exact fun hpos => absurd hpos (Nat.lt_irrefl 0)
  | true =>
      constructor
      · exact fun _ => Nat.zero_lt_one
      · exact fun _ => rfl

/-- Without calls the lock is free. -/
theorem Inv.free (h : s.Inv) (hstack : s.stack = []) : s.mutex.held = false := by
  rw [← Bool.not_eq_true, h.held_iff, hstack]
  exact List.not_mem_nil

theorem Inv.empty (h : s.Inv) (hstarting : s.stage ≠ .starting) (hlooping : s.stage ≠ .looping) :
    s.stack = [] := by
  by_contra hne
  rcases h.calls hne with hstage | hstage
  · exact hstarting hstage
  · exact hlooping hstage

/-- A step that leaves the closes on the stack. -/
theorem Inv.congr (h : s.Inv) (hmutex : s'.mutex = s.mutex)
    (hcount : s'.stack.count .close = s.stack.count .close)
    (hcalls : s'.stack ≠ [] → s'.stage = .starting ∨ s'.stage = .looping) : s'.Inv where
  once := hmutex ▸ h.once
  lock := by rw [hcount, hmutex, h.lock]
  calls := hcalls

theorem Inv.shutdownCommon (h : s.Inv) (hstage : s.stage = .starting ∨ s.stage = .looping) :
    s.shutdownCommon.Inv := by
  refine h.congr s.shutdownCommon_mutex s.shutdownCommon_count (fun _ => ?_)
  rw [shutdownCommon_stage]
  exact hstage

/-- A close that finds the lock free. -/
theorem Inv.dfileConnClose (h : s.Inv) (hfree : s.mutex.held = false) (owner : Bool)
    (howner : owner = true → s.stage = .looping) : (s.dfileConnClose owner).Inv := by
  have hnone : s.stack.count .close = 0 := by
    rw [h.lock, hfree]
    rfl
  have honce := s.dfileConnClose_relocked owner
  rw [h.once, hfree] at honce
  refine ⟨honce, ?_, ?_⟩
  · unfold DcCalls.dfileConnClose
    simp only
    split
    · exact hnone
    split
    · split
      · -- the lock stays taken, and the close on the stack
        rw [shutdownCommon_count, shutdownCommon_mutex]
        show (DcFrame.close :: s.stack).count .close = 1
        rw [List.count_cons_self, hnone]
      · exact hnone
    · exact hnone
  · intro hne
    rw [dfileConnClose_stage]
    unfold DcCalls.dfileConnClose at hne
    simp only at hne
    split at hne
    · exact h.calls hne
    split at hne
    · split at hne
      · rename_i hown
        exact Or.inr (howner hown)
      · exact h.calls hne
    · exact h.calls hne

/-- A callback closes only where no call below it is a close. -/
def Unnested (s : DcCalls) (e : DcCallEv) : Prop :=
  e = .close → ∀ stack, s.stack = .callback :: stack → .close ∉ stack

theorem Inv.step {e : DcCallEv} (h : s.Inv) (hok : s.Unnested e) (hstep : s.step e = some s') :
    s'.Inv := by
  simp only [DcCalls.step, h.once, Bool.false_eq_true, if_false] at hstep
  cases e with
  | otherClose =>
      simp only at hstep
      split at hstep
      · cases hstep
      · rename_i hfree
        cases hstep
        exact h.dfileConnClose (Bool.not_eq_true _ ▸ hfree) false (fun h => by cases h)
  | threadStart =>
      simp only at hstep
      split at hstep
      · rename_i hcreated
        have hstack := h.empty (fun hstage => by rw [hcreated] at hstage; cases hstage)
          (fun hstage => by rw [hcreated] at hstage; cases hstage)
        have hpass := Mutex.pass_eq (h.free hstack)
        split at hstep
        · cases hstep
          have hstarting : ({ s with mutex := s.mutex.pass, stage := .starting } : DcCalls).Inv :=
            h.congr hpass rfl (fun _ => Or.inl rfl)
          exact hstarting.shutdownCommon (Or.inl rfl)
        · cases hstep
          refine h.congr hpass ?_ (fun _ => Or.inl rfl)
          rw [hstack]
          rfl
      · cases hstep
  | loopRun =>
      simp only at hstep
      split at hstep
      · rename_i hready
        cases hstep
        exact h.congr rfl rfl (fun hne => absurd hready.2 hne)
      · cases hstep
  | loopExit =>
      simp only at hstep
      split at hstep
      · rename_i hquit
        cases hstep
        exact h.congr rfl rfl (fun hne => absurd hquit.2.1 hne)
      · cases hstep
  | teardown =>
      simp only at hstep
      split at hstep
      · rename_i hleft
        have hstack := h.empty (fun hstage => by rw [hleft] at hstage; cases hstage)
          (fun hstage => by rw [hleft] at hstage; cases hstage)
        cases hstep
        exact h.congr (Mutex.pass_eq (h.free hstack)) rfl (fun hne => absurd hstack hne)
      · cases hstep
  | dispatch =>
      simp only at hstep
      split at hstep
      · rename_i hidle
        cases hstep
        refine h.congr rfl ?_ (fun _ => Or.inr hidle.1)
        rw [hidle.2]
        rfl
      · cases hstep
  | dispatchInvoked =>
      simp only at hstep
      split at hstep
      · rename_i hidle
        cases hstep
        have hpopped : ({ s with queued := s.queued - 1 } : DcCalls).Inv :=
          h.congr rfl rfl h.calls
        exact hpopped.shutdownCommon (Or.inr hidle.1)
      · cases hstep
  | transfers tx rx =>
      simp only at hstep
      split at hstep
      · cases hstep
      · cases hstep
        exact h.congr rfl rfl h.calls
  | fatal =>
      simp only at hstep
      split at hstep
      · rename_i stack hstack
        cases hstep
        exact h.shutdownCommon (h.calls (hstack ▸ List.cons_ne_nil _ _))
      · cases hstep
  | callback =>
      simp only at hstep
      split at hstep
      · rename_i stack hstack
        cases hstep
        refine h.congr rfl ?_ (fun _ => h.calls (hstack ▸ List.cons_ne_nil _ _))
        exact List.count_cons_of_ne (fun h => by cases h)
      · cases hstep
  | shutdownCallback =>
      simp only at hstep
      split at hstep
      · rename_i cb todo stack hstack
        cases hstep
        refine h.congr rfl ?_ (fun _ => h.calls (hstack ▸ List.cons_ne_nil _ _))
        rw [hstack]
        rfl
      · cases hstep
  | shutdownSkip =>
      simp only at hstep
      split at hstep
      · rename_i cb todo stack hstack
        cases hstep
        refine h.congr rfl ?_ (fun _ => h.calls (hstack ▸ List.cons_ne_nil _ _))
        rw [hstack]
        rfl
      · cases hstep
  | callReturn =>
      simp only at hstep
      split at hstep
      · -- the close unlocks
        rename_i stack hstack
        cases hstep
        have hheld : s.mutex.held = true := h.held_iff.mpr (hstack ▸ List.mem_cons_self)
        refine ⟨h.once, ?_, fun _ => h.calls (hstack ▸ List.cons_ne_nil _ _)⟩
        have hcount := h.lock
        rw [hheld, hstack, List.count_cons_self] at hcount
        exact Nat.succ.inj hcount
      · rename_i stack hstack
        cases hstep
        refine h.congr rfl ?_ (fun _ => h.calls (hstack ▸ List.cons_ne_nil _ _))
        rw [hstack]
        rfl
      · cases hstep
      · rename_i top stack hclose _ _ hstack
        cases hstep
        refine h.congr rfl ?_ (fun _ => h.calls (hstack ▸ List.cons_ne_nil _ _))
        rw [hstack]
        exact (List.count_cons_of_ne (fun heq => hclose heq)).symm
      · cases hstep
  | close =>
      simp only at hstep
      split at hstep
      · rename_i stack hstack
        cases hstep
        refine h.dfileConnClose ?_ _ (fun hown => of_decide_eq_true hown)
        rw [← Bool.not_eq_true, h.held_iff, hstack]
        intro hmem
        rcases List.mem_cons.mp hmem with heq | hmem
        · cases heq
        · exact hok rfl stack hstack hmem
      · cases hstep

theorem Inv.step_nested {e : DcCallEv} (h : s.Inv) (hbad : ¬ s.Unnested e) :
    ∃ s', s.step e = some s' ∧ ¬ s'.mutex.relocked = false := by
  simp only [Unnested, Classical.not_imp, not_forall, not_not] at hbad
  obtain ⟨rfl, stack, hstack, hclose⟩ := hbad
  have hheld : s.mutex.held = true :=
    h.held_iff.mpr (hstack ▸ List.mem_cons_of_mem _ hclose)
  refine ⟨s.dfileConnClose s.owner, ?_, ?_⟩
  · simp only [DcCalls.step, h.once, Bool.false_eq_true, if_false, hstack]
  · rw [dfileConnClose_relocked, hheld, Bool.or_true]
    exact Bool.false_ne_true ∘ Eq.symm

/-- The engine thread does not take the lock that it holds, exactly as long as no callback
that a close has made closes again. -/
theorem relocked_iff (es : List DcCallEv) :
    (∀ pre, pre <+: es → ∀ t, run DcCalls.step dcCallsNew pre = some t →
        t.mutex.relocked = false) ↔ Meets DcCalls.step Unnested dcCallsNew es := by
  apply good_iff_meets Inv
  · exact fun _ h => h.once
  · exact fun _ _ _ h hok hstep => h.step hok hstep
  · exact fun _ _ h hbad => h.step_nested hbad
  · exact inv_new

end DcCalls

/-! ## Both engines -/

open HwPhoneLink.Fillp in
/-- **No thread takes the lock of an engine that it holds**, along a run of calls, exactly
as long as no callback closes the fillp engine before its close was requested, and none
closes the DFile connection while a close of it is on the stack. -/
theorem close_relocked_iff (fs : List FpCallEv) (ds : List DcCallEv) :
    ((∀ pre, pre <+: fs → ∀ t, run FpCalls.step fpCallsNew pre = some t →
          t.mutex.relocked = false) ∧
        ∀ pre, pre <+: ds → ∀ t, run DcCalls.step dcCallsNew pre = some t →
          t.mutex.relocked = false) ↔
      Meets FpCalls.step FpCalls.Asked fpCallsNew fs ∧
        Meets DcCalls.step DcCalls.Unnested dcCallsNew ds := by
  rw [FpCalls.relocked_iff, DcCalls.relocked_iff]

/-- The `on_tx_complete` of a stream closes the engine. -/
def closeOnTxComplete : List HwPhoneLink.Fillp.FpCallEv :=
  [.threadStart, .loopRun, .dispatch, .callback, .engineClose]

/-- A callback closes the connection, and the `on_closed` that follows closes it again. -/
def closeOnClosed : List DcCallEv :=
  [.threadStart, .callReturn, .loopRun, .dispatch, .callback, .close, .shutdownCallback, .close]

open HwPhoneLink.Fillp in
/-- **Each engine has a run in which its thread takes the lock twice.** -/
theorem not_close_unrelocked :
    (¬ ∀ es t, run FpCalls.step fpCallsNew es = some t → t.mutex.relocked = false) ∧
      ¬ ∀ es t, run DcCalls.step dcCallsNew es = some t → t.mutex.relocked = false := by
  constructor
  · intro h
    obtain ⟨t, hrun, hrelocked⟩ := Option.map_eq_some_iff.mp (show
      (run FpCalls.step fpCallsNew closeOnTxComplete).map (fun t => t.mutex.relocked) =
        some true by decide)
    rw [h _ t hrun] at hrelocked
    cases hrelocked
  · intro h
    obtain ⟨t, hrun, hrelocked⟩ := Option.map_eq_some_iff.mp (show
      (run DcCalls.step dcCallsNew closeOnClosed).map (fun t => t.mutex.relocked) =
        some true by decide)
    rw [h _ t hrun] at hrelocked
    cases hrelocked

end HwPhoneLink.DFile
