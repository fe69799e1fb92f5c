import HwPhoneLink.Lib.Mutex
import HwPhoneLink.Lib.Transitions

/-!
# Close calls and the lock of the fillp engine

`fillp_engine_close` and `fillp_peer_close` hand their work to the engine thread
while they hold `e->lock`, and on the engine thread `g_main_context_invoke_full`
runs it at once. The peer's part takes no lock. The engine's part does, so the
engine thread closes its engine only after someone else has asked for it.

A step is a call that another thread makes, or one step of the engine thread, with
the calls that it is in on its stack. Callbacks are application code: what is
called from them, and in which order, is up to the run.
-/

namespace HwPhoneLink.Fillp

open Transitions

/-- A call that the engine thread is in: a source of its loop, a callback, or
`fp_engine_shutdown`. -/
inductive FpFrame : Type where
  | source | callback | shutdown
deriving DecidableEq, Repr

/-- The functions that are handed to the context. -/
inductive FpInvoke : Type where
  | engineClose | peerClose
deriving DecidableEq, Repr

/-- The engine thread: not started, adding its sources, in the loop, behind it, and
after `fp_engine_teardown`. -/
inductive FpStage : Type where
  | created | starting | looping | left | done
deriving DecidableEq, Repr

structure FpCalls where
  mutex : Mutex
  threadStarted : Bool
  threadDone : Bool
  closeRequested : Bool
  closeInProgress : Bool
  quit : Bool
  stage : FpStage
  stack : List FpFrame
  queue : List FpInvoke
deriving DecidableEq, Repr

def fpCallsNew : FpCalls := ⟨Mutex.init, false, false, false, false, false, .created, [], []⟩

inductive FpCallEv : Type where
  /-- Other threads; `idle` tells that the peer is closing or closed. -/
  | otherEngineClose
  | otherPeerClose (idle : Bool)
  | otherConnect
  /-- `fp_engine_thread` -/
  | threadStart
  | loopRun
  | loopExit
  | teardown
  /-- The loop. -/
  | dispatch
  | dispatchInvoked
  | callback
  /-- A section of engine code or of `fillp_engine_connect`. -/
  | locked
  | callReturn
  /-- A callback closes. -/
  | engineClose
  | peerClose (idle : Bool)
deriving DecidableEq, Repr

namespace FpCalls

/-- Up to the first callback. The section is the one around the snapshot. -/
def fpEngineShutdown (s : FpCalls) : FpCalls :=
  if s.closeInProgress then s
  else { s with closeInProgress := true, mutex := s.mutex.pass, stack := .shutdown :: s.stack }

/-- `fp_peer_request_close` takes no lock and calls nothing back. -/
def fpInvoked (s : FpCalls) : FpInvoke → FpCalls
  | .engineClose => s.fpEngineShutdown
  | .peerClose => s

/-- `g_main_context_invoke_full` -/
def invokeFull (s : FpCalls) (owner : Bool) (f : FpInvoke) : FpCalls :=
  if owner then s.fpInvoked f else { s with queue := s.queue ++ [f] }

/-- A shutdown that is run in the section ends at its lock, so the stack that it
leaves does not matter. -/
def fillpEngineClose (s : FpCalls) (owner : Bool) : FpCalls :=
  let s := { s with mutex := s.mutex.lock }
  if s.closeRequested ∨ s.threadDone then { s with mutex := s.mutex.unlock }
  else
    let s := { s with closeRequested := true }
    let s := if s.threadStarted then s.invokeFull owner .engineClose else s
    { s with mutex := s.mutex.unlock }

def fillpPeerClose (s : FpCalls) (owner idle : Bool) : FpCalls :=
  let s := { s with mutex := s.mutex.lock }
  if idle ∨ s.threadDone then { s with mutex := s.mutex.unlock }
  else
    let s := if s.threadStarted then s.invokeFull owner .peerClose else s
    { s with mutex := s.mutex.unlock }

/-- The engine thread owns the context in its loop. -/
def owner (s : FpCalls) : Bool := s.stage = .looping

/-- A thread that has relocked hangs, and the others at its lock. -/
def step (s : FpCalls) (e : FpCallEv) : Option FpCalls :=
  if s.mutex.relocked then none
  else
    match e with
    | .otherEngineClose => if s.mutex.held then none else some (s.fillpEngineClose false)
    | .otherPeerClose idle => if s.mutex.held then none else some (s.fillpPeerClose false idle)
    | .otherConnect => if s.mutex.held then none else some { s with mutex := s.mutex.pass }
    | .threadStart =>
        if s.stage = .created then
          if s.closeRequested then some { s with mutex := s.mutex.pass, stage := .left }
          else some { s with mutex := s.mutex.pass, threadStarted := true, stage := .starting }
        else none
    | .loopRun => if s.stage = .starting then some { s with stage := .looping } else none
    | .loopExit =>
        if s.stage = .looping ∧ s.stack = [] ∧ s.quit then some { s with stage := .left } else none
    | .teardown =>
        if s.stage = .left then
          some { s with
            mutex := s.mutex.pass, threadDone := true, threadStarted := false, stage := .done }
        else none
    | .dispatch =>
        if s.stage = .looping ∧ s.stack = [] then some { s with stack := [.source] } else none
    | .dispatchInvoked =>
        if s.stage = .looping ∧ s.stack = [] then
          match s.queue with
          | [] => none
          | f :: queue => some ({ s with queue := queue }.fpInvoked f)
        else none
    | .callback =>
        match s.stack with
        | .source :: _ => some { s with stack := .callback :: s.stack }
        | .shutdown :: _ => some { s with stack := .callback :: s.stack }
        | _ => none
    | .locked =>
        match s.stack with
        | [] => none
        | _ :: _ => some { s with mutex := s.mutex.pass }
    | .callReturn =>
        match s.stack with
        | .shutdown :: stack => some { s with stack := stack, quit := true }
        | _ :: stack => some { s with stack := stack }
        | [] => none
    | .engineClose =>
        match s.stack with
        | .callback :: _ => some (s.fillpEngineClose s.owner)
        | _ => none
    | .peerClose idle =>
        match s.stack with
        | .callback :: _ => some (s.fillpPeerClose s.owner idle)
        | _ => none

/-! ## Between two steps -/

/-- The lock is free, calls are in the loop only, and the engine is closed because
this was asked for. -/
structure Inv (s : FpCalls) : Prop where
  free : s.mutex = Mutex.init
  asked : s.closeInProgress = true → s.closeRequested = true
  queued : .engineClose ∈ s.queue → s.closeRequested = true
  calls : s.stack ≠ [] → s.stage = .looping
  running : s.stage = .starting ∨ s.stage = .looping → s.threadStarted = true
  done : s.threadDone = true → s.stage = .done

theorem inv_new : fpCallsNew.Inv where
  free := rfl
  asked := fun h => by cases h
  queued := fun h => by cases h
  calls := fun h => absurd rfl h
  running := fun h => by rcases h with h | h <;> cases h
  done := fun h => by cases h

variable {s s' : FpCalls}

/-- A section of a free lock. -/
theorem Inv.pass (h : s.Inv) : { s with mutex := s.mutex.pass } = s := by
  obtain ⟨mutex, _⟩ := s
  obtain rfl : mutex = Mutex.init := h.free
  rfl

theorem Inv.fillpPeerClose (h : s.Inv) (owner idle : Bool) : (s.fillpPeerClose owner idle).Inv := by
  obtain ⟨hfree, hasked, hqueued, hcalls, hrunning, hdone⟩ := h
  have hpass : (s.mutex.lock).unlock = Mutex.init := by
    rw [hfree]
    rfl
  unfold FpCalls.fillpPeerClose
  simp only
  split
  · exact ⟨hpass, hasked, hqueued, hcalls, hrunning, hdone⟩
  split
  · cases owner with
    | true => exact ⟨hpass, hasked, hqueued, hcalls, hrunning, hdone⟩
    | false =>
        refine ⟨hpass, hasked, fun hmem => ?_, hcalls, hrunning, hdone⟩
        rcases List.mem_append.mp hmem with hold | hnew
        · exact hqueued hold
        · cases List.mem_singleton.mp hnew
  · exact ⟨hpass, hasked, hqueued, hcalls, hrunning, hdone⟩

/-- Another thread asks for the close. -/
theorem Inv.otherEngineClose (h : s.Inv) : (s.fillpEngineClose false).Inv := by
  obtain ⟨hfree, hasked, hqueued, hcalls, hrunning, hdone⟩ := h
  have hpass : (s.mutex.lock).unlock = Mutex.init := by
    rw [hfree]
    rfl
  unfold FpCalls.fillpEngineClose
  simp only
  split
  · exact ⟨hpass, hasked, hqueued, hcalls, hrunning, hdone⟩
  split
  · exact ⟨hpass, fun _ => rfl, fun _ => rfl, hcalls, hrunning, hdone⟩
  · exact ⟨hpass, fun _ => rfl, fun _ => rfl, hcalls, hrunning, hdone⟩

/-- A close that has been asked for already. -/
theorem Inv.fillpEngineClose_again (h : s.Inv) (hasked : s.closeRequested = true) (owner : Bool) :
    s.fillpEngineClose owner = s :=
  (if_pos (Or.inl hasked)).trans h.pass

/-- **A close from a callback that nobody has asked for before.** -/
theorem Inv.fillpEngineClose_relocked (h : s.Inv) (hnot : s.closeRequested = false)
    (hstage : s.stage = .looping) : (s.fillpEngineClose s.owner).mutex.relocked = true := by
  have hstarted := h.running (Or.inr hstage)
  have hdone : s.threadDone = false := by
    cases hd : s.threadDone with
    | false => rfl
    | true =>
        rw [h.done hd] at hstage
        cases hstage
  have howner : s.owner = true := decide_eq_true hstage
  have hprogress : s.closeInProgress = false := by
    cases hp : s.closeInProgress with
    | false => rfl
    | true =>
        rw [h.asked hp] at hnot
        cases hnot
  simp only [FpCalls.fillpEngineClose, hnot, hdone, hstarted, howner, Bool.false_eq_true, or_self,
    if_false, if_true, invokeFull, fpInvoked, fpEngineShutdown, hprogress, Mutex.unlock_relocked,
    Mutex.pass_relocked, Mutex.lock_held, Bool.or_true]

/-- A function that the loop runs. -/
theorem Inv.fpInvoked (h : s.Inv) (hstage : s.stage = .looping) {f : FpInvoke}
    (hf : f = .engineClose → s.closeRequested = true) : (s.fpInvoked f).Inv := by
  cases f with
  | peerClose => exact h
  | engineClose =>
      show s.fpEngineShutdown.Inv
      unfold FpCalls.fpEngineShutdown
      split
      · exact h
      · constructor
        · show s.mutex.pass = Mutex.init
          rw [h.free]
          rfl
        · exact fun _ => hf rfl
        · exact h.queued
        · exact fun _ => hstage
        · exact h.running
        · exact h.done

/-- `fillp_engine_close` is called from a callback only after a close was requested. -/
def Asked (s : FpCalls) (e : FpCallEv) : Prop :=
  e = .engineClose → ∀ stack, s.stack = .callback :: stack → s.closeRequested = true

theorem Inv.step {e : FpCallEv} (h : s.Inv) (hok : s.Asked e) (hstep : s.step e = some s') :
    s'.Inv := by
  have hrelocked : s.mutex.relocked = false := by
    rw [h.free]
    rfl
  simp only [FpCalls.step, hrelocked, Bool.false_eq_true, if_false] at hstep
  cases e with
  | otherEngineClose =>
      simp only at hstep
      split at hstep
      · cases hstep
      · cases hstep
        exact h.otherEngineClose
  | otherPeerClose idle =>
      simp only at hstep
      split at hstep
      · cases hstep
      · cases hstep
        exact h.fillpPeerClose false idle
  | otherConnect =>
      simp only at hstep
      split at hstep
      · cases hstep
      · cases hstep
        rw [h.pass]
        exact h
  | threadStart =>
      simp only at hstep
      split at hstep
      · rename_i hcreated
        have hpassed := h.pass
        have hstack : s.stack = [] := by
          by_contra hne
          rw [h.calls hne] at hcreated
          cases hcreated
        have hdone : s.threadDone = true → s.stage = .done := h.done
        rw [hcreated] at hdone
        split at hstep
        · cases hstep
          refine ⟨?_, h.asked, h.queued, fun hne => absurd hstack hne, fun hstage => ?_, ?_⟩
          · exact congrArg FpCalls.mutex hpassed |>.trans h.free
          · rcases hstage with hstage | hstage <;> cases hstage
          · exact fun hd => absurd (hdone hd) (fun heq => by cases heq)
        · cases hstep
          refine ⟨?_, h.asked, h.queued, fun hne => absurd hstack hne, fun _ => rfl, ?_⟩
          · exact congrArg FpCalls.mutex hpassed |>.trans h.free
          · exact fun hd => absurd (hdone hd) (fun heq => by cases heq)
      · cases hstep
  | loopRun =>
      simp only at hstep
      split at hstep
      · rename_i hstarting
        cases hstep
        refine ⟨h.free, h.asked, h.queued, fun _ => rfl, fun _ => h.running (Or.inl hstarting),
          fun hd => ?_⟩
        rw [h.done hd] at hstarting
        cases hstarting
      · cases hstep
  | loopExit =>
      simp only at hstep
      split at hstep
      · rename_i hquit
        cases hstep
        refine ⟨h.free, h.asked, h.queued, fun hne => absurd hquit.2.1 hne, fun hstage => ?_,
          fun hd => ?_⟩
        · rcases hstage with hstage | hstage <;> cases hstage
        · rw [h.done hd] at hquit
          cases hquit.1
      · cases hstep
  | teardown =>
      simp only at hstep
      split at hstep
      · rename_i hleft
        have hstack : s.stack = [] := by
          by_contra hne
          rw [h.calls hne] at hleft
          cases hleft
        cases hstep
        refine ⟨?_, h.asked, h.queued, fun hne => absurd hstack hne, fun hstage => ?_,
          fun _ => rfl⟩
        · exact congrArg FpCalls.mutex h.pass |>.trans h.free
        · rcases hstage with hstage | hstage <;> cases hstage
      · cases hstep
  | dispatch =>
      simp only at hstep
      split at hstep
      · rename_i hidle
        cases hstep
        exact ⟨h.free, h.asked, h.queued, fun _ => hidle.1, h.running, h.done⟩
      · cases hstep
  | dispatchInvoked =>
      simp only at hstep
      split at hstep
      · rename_i hidle
        split at hstep
        · cases hstep
        · rename_i f queue hqueue
          cases hstep
          have hpopped : ({ s with queue := queue } : FpCalls).Inv :=
            ⟨h.free, h.asked, fun hmem => h.queued (hqueue ▸ List.mem_cons_of_mem _ hmem),
              h.calls, h.running, h.done⟩
          refine hpopped.fpInvoked hidle.1 (fun hf => h.queued ?_)
          rw [hqueue, hf]
          exact List.mem_cons_self
      · cases hstep
  | callback =>
      simp only at hstep
      split at hstep
      · rename_i stack hstack
        cases hstep
        exact ⟨h.free, h.asked, h.queued, fun _ => h.calls (hstack ▸ List.cons_ne_nil _ _),
          h.running, h.done⟩
      · rename_i stack hstack
        cases hstep
        exact ⟨h.free, h.asked, h.queued, fun _ => h.calls (hstack ▸ List.cons_ne_nil _ _),
          h.running, h.done⟩
      · cases hstep
  | locked =>
      simp only at hstep
      split at hstep
      · cases hstep
      · cases hstep
        rw [h.pass]
        exact h
  | callReturn =>
      simp only at hstep
      split at hstep
      · rename_i stack hstack
        cases hstep
        exact ⟨h.free, h.asked, h.queued, fun _ => h.calls (hstack ▸ List.cons_ne_nil _ _),
          h.running, h.done⟩
      · rename_i stack _ hstack
        cases hstep
        exact ⟨h.free, h.asked, h.queued, fun _ => h.calls (hstack ▸ List.cons_ne_nil _ _),
          h.running, h.done⟩
      · cases hstep
  | engineClose =>
      simp only at hstep
      split at hstep
      · rename_i stack hstack
        cases hstep
        rw [h.fillpEngineClose_again (hok rfl stack hstack)]
        exact h
      · cases hstep
  | peerClose idle =>
      simp only at hstep
      split at hstep
      · cases hstep
        exact h.fillpPeerClose _ idle
      · cases hstep

theorem Inv.step_unasked {e : FpCallEv} (h : s.Inv) (hbad : ¬ s.Asked e) :
    ∃ s', s.step e = some s' ∧ ¬ s'.mutex.relocked = false := by
  simp only [Asked, Classical.not_imp, not_forall, Bool.not_eq_true] at hbad
  obtain ⟨rfl, stack, hstack, hnot⟩ := hbad
  have hstage : s.stage = .looping := h.calls (hstack ▸ List.cons_ne_nil _ _)
  have hrelocked : s.mutex.relocked = false := by
    rw [h.free]
    rfl
  refine ⟨s.fillpEngineClose s.owner, ?_, ?_⟩
  · simp only [FpCalls.step, hrelocked, Bool.false_eq_true, if_false, hstack]
  · rw [h.fillpEngineClose_relocked hnot hstage]
    exact Bool.false_ne_true ∘ Eq.symm

/-- The engine thread does not take the lock that it holds, exactly as long as no callback
closes an engine whose close was not requested before. -/
theorem relocked_iff (es : List FpCallEv) :
    (∀ pre, pre <+: es → ∀ t, run FpCalls.step fpCallsNew pre = some t →
        t.mutex.relocked = false) ↔ Meets FpCalls.step Asked fpCallsNew es := by
  apply good_iff_meets Inv
  · intro s h
    rw [h.free]
    rfl
  · exact fun _ _ _ h hok hstep => h.step hok hstep
  · exact fun _ _ h hbad => h.step_unasked hbad
  · exact inv_new

end FpCalls

end HwPhoneLink.Fillp
