import HwPhoneLink.Lib.Transitions
import Mathlib.Data.List.Count
import Mathlib.Logic.Function.Basic

/-!
# Sessions of the infrastructure backend

`infra_backend.c`: the accept thread makes a session for every connection and
lists it, the pump thread of a session calls `_on_session_closed` at its end, and
`stop` and `finalize` take the list. The reference of the backend goes with the
listing: what the callback finds listed it releases, and so does `finalize` with
what it takes. `stop` takes the list and releases nothing.

The steps are the sections under `sessions_mutex` and the accesses to atomics
between them.
-/

namespace HwPhoneLink.Transport

open Transitions

/-- The pump thread of a session: in its read loop, behind it, in the closed
callback, at its end. -/
inductive PumpStage : Type where
  | reading | left | closing | done
deriving DecidableEq, Repr

/-- `released` is a history: how often the reference of the backend was released. -/
structure InfraSession where
  running : Bool
  closedCb : Bool
  pump : PumpStage
  released : ℕ
deriving DecidableEq, Repr

/-- `softbus_session_new` -/
def infraSessionNew : InfraSession := ⟨true, false, .reading, 0⟩

/-- The accept thread, with the session it has made and not listed yet. -/
inductive AcceptStage : Type where
  | stopped | accepting
  | opened (i : ℕ)
  | wired (i : ℕ)
deriving DecidableEq, Repr

inductive HwPhoneLinkState : Type where
  | stopped | starting | running | stopping | error
deriving DecidableEq, Repr

/-- The thread that owns the transport. `final` tells `finalize` from `stop`, and
`closing` and `joining` hold the rest of the list that it goes through. -/
inductive InfraControl : Type where
  | idle
  | joiningWorkers (final : Bool)
  | closing (final : Bool) (rest : List ℕ)
  | joining (final : Bool) (i : ℕ) (rest : List ℕ)
  | finalized
deriving DecidableEq, Repr

/-- `taken` is a history: the sessions that `stop` has taken off the list. -/
structure InfraBackend where
  state : HwPhoneLinkState
  running : Bool
  accept : AcceptStage
  sessions : List ℕ
  made : ℕ → Option InfraSession
  control : InfraControl
  taken : List ℕ

def infraBackendNew : InfraBackend := ⟨.stopped, false, .stopped, [], fun _ => none, .idle, []⟩

inductive InfraEv : Type where
  | start (ok : Bool)
  | stop
  | finalize
  /-- The accept thread. -/
  | accept (i : ℕ)
  | setClosedCb
  | append
  | acceptExit
  /-- The pump of session `i`. -/
  | pumpExit (i : ℕ)
  | emitClosed (i : ℕ)
  | onSessionClosed (i : ℕ)
  /-- The loops of `stop` and `_release_sessions`. -/
  | takeSessions
  | sessionStop
  | sessionJoined
deriving DecidableEq, Repr

/-- `g_object_unref` of the backend's reference. -/
def InfraSession.unref (s : InfraSession) : InfraSession := { s with released := s.released + 1 }

def InfraBackend.put (b : InfraBackend) (i : ℕ) (s : InfraSession) : InfraBackend :=
  { b with made := Function.update b.made i (some s) }

/-- The loop is done with session `i`. -/
def InfraBackend.passed (b : InfraBackend) (final : Bool) (i : ℕ) (s : InfraSession)
    (rest : List ℕ) : InfraBackend :=
  { b.put i (if final then s.unref else s) with control := .closing final rest }

def InfraBackend.step (b : InfraBackend) : InfraEv → Option InfraBackend
  | .start ok =>
      if b.control ≠ .idle then none
      else if b.state ≠ .stopped then some b
      else if ok then some { b with state := .running, running := true, accept := .accepting }
      else some { b with state := .error }
  | .stop =>
      if b.control ≠ .idle then none
      else if b.state = .stopped then some b
      else some { b with state := .stopping, running := false, control := .joiningWorkers false }
  | .finalize =>
      if b.control ≠ .idle then none
      else some { b with running := false, control := .joiningWorkers true }
  | .accept i =>
      if b.accept = .accepting ∧ b.made i = none then
        some { b.put i infraSessionNew with accept := .opened i }
      else none
  | .setClosedCb =>
      match b.accept with
      | .opened i =>
          (b.made i).map fun s => { b.put i { s with closedCb := true } with accept := .wired i }
      | _ => none
  | .append =>
      match b.accept with
      | .wired i => some { b with sessions := b.sessions ++ [i], accept := .accepting }
      | _ => none
  | .acceptExit =>
      if b.accept = .accepting ∧ b.running = false then some { b with accept := .stopped } else none
  | .pumpExit i =>
      match b.made i with
      | some s =>
          if s.pump = .reading then some (b.put i { s with pump := .left, running := false })
          else none
      | none => none
  | .emitClosed i =>
      match b.made i with
      | some s =>
          if s.pump = .left then
            some (b.put i { s with pump := if s.closedCb then .closing else .done })
          else none
      | none => none
  | .onSessionClosed i =>
      match b.made i with
      | some s =>
          if s.pump = .closing then
            if i ∈ b.sessions then
              some { b.put i { s with pump := .done }.unref with sessions := b.sessions.erase i }
            else some (b.put i { s with pump := .done })
          else none
      | none => none
  | .takeSessions =>
      match b.control with
      | .joiningWorkers final =>
          if b.accept = .stopped then
            some
              { b with
                sessions := []
                control := .closing final b.sessions
                taken := if final then b.taken else b.taken ++ b.sessions }
          else none
      | _ => none
  | .sessionStop =>
      match b.control with
      | .closing final [] =>
          if final then some { b with control := .finalized }
          else some { b with state := .stopped, control := .idle }
      | .closing final (i :: rest) =>
          (b.made i).map fun s =>
            if s.running then
              { b.put i { s with running := false } with control := .joining final i rest }
            else b.passed final i s rest
      | _ => none
  | .sessionJoined =>
      match b.control with
      | .joining final i rest =>
          match b.made i with
          | some s => if s.pump = .done then some (b.passed final i s rest) else none
          | none => none
      | _ => none

/-! ## Who owes the release -/

/-- The accept thread has the reference until it lists the session. -/
def AcceptStage.holds : AcceptStage → ℕ → ℕ
  | .opened j, i => [j].count i
  | .wired j, i => [j].count i
  | _, _ => 0

/-- `finalize` has the references that it has taken. -/
def InfraControl.owes : InfraControl → ℕ → ℕ
  | .closing true rest, i => rest.count i
  | .joining true j rest, i => (j :: rest).count i
  | _, _ => 0

/-- The workers are joined and the list is taken. -/
def InfraControl.closes : InfraControl → Prop
  | .closing _ _ => True
  | .joining _ _ _ => True
  | .finalized => True
  | _ => False

namespace InfraBackend

variable {b b' : InfraBackend} {i j : ℕ} {s s' : InfraSession}

def released (b : InfraBackend) (i : ℕ) : ℕ := (b.made i).elim 0 InfraSession.released

def created (b : InfraBackend) (i : ℕ) : ℕ := (b.made i).elim 0 fun _ => 1

/-- How often the reference is still owed, leaks included. -/
def owed (b : InfraBackend) (i : ℕ) : ℕ :=
  b.sessions.count i + b.accept.holds i + b.control.owes i + b.taken.count i

theorem put_made_self (b : InfraBackend) (i : ℕ) (s : InfraSession) :
    (b.put i s).made i = some s :=
  Function.update_self ..

theorem put_made_other (b : InfraBackend) (s : InfraSession) (hj : j ≠ i) :
    (b.put i s).made j = b.made j :=
  Function.update_of_ne hj ..

@[simp] theorem released_put (b : InfraBackend) (i : ℕ) (s : InfraSession) (j : ℕ) :
    (b.put i s).released j = if j = i then s.released else b.released j := by
  unfold released
  by_cases hj : j = i
  · subst hj
    rw [if_pos rfl, put_made_self]
    rfl
  · rw [if_neg hj, put_made_other b s hj]

@[simp] theorem created_put (b : InfraBackend) (i : ℕ) (s : InfraSession) (j : ℕ) :
    (b.put i s).created j = if j = i then 1 else b.created j := by
  unfold created
  by_cases hj : j = i
  · subst hj
    rw [if_pos rfl, put_made_self]
    rfl
  · rw [if_neg hj, put_made_other b s hj]

theorem released_eq (hs : b.made i = some s) : b.released i = s.released := by
  rw [released, hs]
  rfl

theorem created_eq (hs : b.made i = some s) : b.created i = 1 := by
  rw [created, hs]
  rfl

theorem created_none (hs : b.made i = none) : b.created i = 0 := by
  rw [created, hs]
  rfl

/-- The accept thread is up only between `start` and the end of the next join. -/
def Worked (b : InfraBackend) : Prop :=
  b.accept ≠ .stopped → b.state = .running ∨ ∃ final, b.control = .joiningWorkers final

/-- Every reference is released or owed, and none is so twice. -/
structure Inv (b : InfraBackend) : Prop where
  account : ∀ i, b.released i + b.owed i = b.created i
  worked : b.Worked
  closed : b.control.closes → b.accept = .stopped ∧ b.sessions = []

theorem inv_new : infraBackendNew.Inv where
  account := fun _ => rfl
  worked := fun h => absurd rfl h
  closed := fun h => h.elim

/-- The books of a session that goes on. -/
theorem account_put (h : ∀ j, b.released j + b.owed j = b.created j) (hs : b.made i = some s)
    (hsame : s'.released = s.released) (j : ℕ) :
    (b.put i s').released j + (b.put i s').owed j = (b.put i s').created j := by
  rw [released_put, created_put]
  show _ + b.owed j = _
  by_cases hj : j = i
  · subst hj
    rw [if_pos rfl, if_pos rfl, hsame, ← released_eq hs, h, created_eq hs]
  · rw [if_neg hj, if_neg hj, h]

/-- The books of a session that is released. -/
theorem account_unref (b' : InfraBackend) (h : ∀ j, b.released j + b.owed j = b.created j) (hs : b.made i = some s)
    (hsame : s'.released = s.released) (hb : ∀ j, b'.owed j + [i].count j = b.owed j)
    (hmade : b'.made = (b.put i s'.unref).made) (j : ℕ) :
    b'.released j + b'.owed j = b'.created j := by
  have hreleased : b'.released j = (b.put i s'.unref).released j := by
    rw [released, hmade]
    rfl
  have hcreated : b'.created j = (b.put i s'.unref).created j := by
    rw [created, hmade]
    rfl
  rw [hreleased, hcreated, released_put, created_put]
  have hbooks := h j
  rw [← hb j] at hbooks
  by_cases hj : j = i
  · subst hj
    rw [List.count_singleton_self, released_eq hs, created_eq hs] at hbooks
    rw [if_pos rfl, if_pos rfl]
    show s'.released + 1 + b'.owed j = 1
    omega
  · rw [List.count_eq_zero.mpr (fun h => hj (List.mem_singleton.mp h)), Nat.add_zero] at hbooks
    rw [if_neg hj, if_neg hj]
    exact hbooks

/-- The loop of `stop` or `finalize` passes a session. -/
theorem account_passed (h : ∀ j, b.released j + b.owed j = b.created j) (hs : b.made i = some s)
    {final : Bool} {rest : List ℕ}
    (howes : ∀ j, b.control.owes j = (InfraControl.closing final (i :: rest)).owes j) (j : ℕ) :
    (b.passed final i s rest).released j + (b.passed final i s rest).owed j =
      (b.passed final i s rest).created j := by
  cases final with
  | false =>
      have howed : (b.passed false i s rest).owed j = b.owed j := by
        unfold owed
        rw [howes]
        rfl
      rw [howed]
      exact account_put h hs rfl j
  | true =>
      refine account_unref (b.passed true i s rest) h hs rfl (fun k => ?_) rfl j
      have hcount : (InfraControl.closing true (i :: rest)).owes k =
          rest.count k + [i].count k := by
        show ([i] ++ rest).count k = _
        rw [List.count_append, Nat.add_comm]
      unfold owed
      rw [howes, hcount]
      show b.sessions.count k + b.accept.holds k + rest.count k + b.taken.count k + _ = _
      omega

/-- A step that leaves the books alone. -/
theorem Inv.congr (h : b.Inv) (hmade : b'.made = b.made) (howed : ∀ j, b'.owed j = b.owed j)
    (hworked : b'.Worked)
    (hclosed : b'.control.closes → b'.accept = .stopped ∧ b'.sessions = []) : b'.Inv where
  account := fun j => by
    rw [howed, released, created, hmade]
    exact h.account j
  worked := hworked
  closed := hclosed

/-- A step of one session. -/
theorem Inv.put (h : b.Inv) (hs : b.made i = some s) (hsame : s'.released = s.released) :
    (b.put i s').Inv where
  account := account_put h.account hs hsame
  worked := h.worked
  closed := h.closed

/-! ### The owner of the transport -/

theorem Inv.start {ok : Bool} (h : b.Inv) (hstep : b.step (.start ok) = some b') : b'.Inv := by
  simp only [InfraBackend.step] at hstep
  split at hstep
  · cases hstep
  rename_i hidle
  rw [not_not] at hidle
  have hopen : ¬ b.control.closes := by
    rw [hidle]
    exact id
  split at hstep
  · cases hstep
    exact h
  rename_i hstopped
  rw [not_not] at hstopped
  -- nothing is left of the run before
  have haccept : b.accept = .stopped := by
    by_contra hup
    rcases h.worked hup with hrunning | ⟨final, hjoin⟩
    · rw [hstopped] at hrunning
      cases hrunning
    · rw [hidle] at hjoin
      cases hjoin
  split at hstep
  · cases hstep
    refine h.congr rfl ?_ ?_ ?_
    · intro j
      unfold owed
      rw [haccept]
      rfl
    · exact fun _ => Or.inl rfl
    · exact fun hclose => absurd hclose hopen
  · cases hstep
    refine h.congr rfl ?_ ?_ ?_
    · exact fun _ => rfl
    · exact fun hup => absurd haccept hup
    · exact fun hclose => absurd hclose hopen

theorem Inv.stop (h : b.Inv) (hstep : b.step .stop = some b') : b'.Inv := by
  simp only [InfraBackend.step] at hstep
  split at hstep
  · cases hstep
  rename_i hidle
  rw [not_not] at hidle
  split at hstep
  · cases hstep
    exact h
  · cases hstep
    refine h.congr rfl ?_ ?_ ?_
    · intro j
      unfold owed
      rw [hidle]
      rfl
    · exact fun _ => Or.inr ⟨false, rfl⟩
    · exact fun hclose => hclose.elim

theorem Inv.finalize (h : b.Inv) (hstep : b.step .finalize = some b') : b'.Inv := by
  simp only [InfraBackend.step] at hstep
  split at hstep
  · cases hstep
  rename_i hidle
  rw [not_not] at hidle
  cases hstep
  refine h.congr rfl ?_ ?_ ?_
  · intro j
    unfold owed
    rw [hidle]
    rfl
  · exact fun _ => Or.inr ⟨true, rfl⟩
  · exact fun hclose => hclose.elim

theorem Inv.takeSessions (h : b.Inv) (hstep : b.step .takeSessions = some b') : b'.Inv := by
  simp only [InfraBackend.step] at hstep
  split at hstep
  · rename_i final hjoin
    split at hstep
    · rename_i haccept
      cases hstep
      refine h.congr rfl ?_ ?_ ?_
      · intro j
        unfold owed
        rw [hjoin, haccept]
        cases final with
        | false =>
            show 0 + 0 + 0 + (b.taken ++ b.sessions).count j =
              b.sessions.count j + 0 + 0 + b.taken.count j
            rw [List.count_append]
            omega
        | true =>
            show 0 + 0 + b.sessions.count j + b.taken.count j =
              b.sessions.count j + 0 + 0 + b.taken.count j
            omega
      · exact fun hup => absurd haccept hup
      · exact fun _ => ⟨haccept, rfl⟩
    · cases hstep
  · cases hstep

theorem Inv.passed (h : b.Inv) (hs : b.made i = some s) {final : Bool} {rest : List ℕ}
    (howes : ∀ j, b.control.owes j = (InfraControl.closing final (i :: rest)).owes j)
    (hclose : b.control.closes) : (b.passed final i s rest).Inv where
  account := account_passed h.account hs howes
  worked := fun hup => absurd (h.closed hclose).1 hup
  closed := fun _ => h.closed hclose

theorem Inv.sessionStop (h : b.Inv) (hstep : b.step .sessionStop = some b') : b'.Inv := by
  simp only [InfraBackend.step] at hstep
  split at hstep
  · rename_i final hcontrol
    have hclosed := h.closed (hcontrol ▸ trivial)
    split at hstep
    · cases hstep
      refine h.congr rfl ?_ ?_ ?_
      · intro j
        unfold owed
        rw [hcontrol]
        cases final with
        | false => rfl
        | true => rfl
      · exact fun hup => absurd hclosed.1 hup
      · exact fun _ => hclosed
    · cases hstep
      refine h.congr rfl ?_ ?_ ?_
      · intro j
        unfold owed
        rw [hcontrol]
        cases final with
        | false => rfl
        | true => rfl
      · exact fun hup => absurd hclosed.1 hup
      · exact fun hclose => hclose.elim
  · rename_i final i rest hcontrol
    have hcloses : b.control.closes := hcontrol ▸ trivial
    obtain ⟨s, hs, rfl⟩ := Option.map_eq_some_iff.mp hstep
    split
    · have hput : (b.put i { s with running := false }).Inv := h.put hs rfl
      refine hput.congr rfl ?_ ?_ ?_
      · intro j
        unfold owed
        show _ = b.sessions.count j + b.accept.holds j + b.control.owes j + b.taken.count j
        rw [hcontrol]
        cases final with
        | false => rfl
        | true => rfl
      · exact fun hup => absurd (h.closed hcloses).1 hup
      · exact fun _ => h.closed hcloses
    · exact h.passed hs (fun j => by rw [hcontrol]) hcloses
  · cases hstep

theorem Inv.sessionJoined (h : b.Inv) (hstep : b.step .sessionJoined = some b') : b'.Inv := by
  simp only [InfraBackend.step] at hstep
  split at hstep
  · rename_i final i rest hcontrol
    split at hstep
    · rename_i s hs
      split at hstep
      · cases hstep
        apply h.passed hs
        · intro j
          rw [hcontrol]
          cases final with
          | false => rfl
          | true => rfl
        · exact hcontrol ▸ trivial
      · cases hstep
    · cases hstep
  · cases hstep

/-! ### The accept thread -/

theorem Inv.accept (h : b.Inv) (hstep : b.step (.accept i) = some b') : b'.Inv := by
  simp only [InfraBackend.step] at hstep
  split at hstep
  · rename_i hready
    obtain ⟨haccept, hnone⟩ := hready
    cases hstep
    constructor
    · intro j
      have hbooks := h.account j
      unfold owed at hbooks ⊢
      rw [haccept] at hbooks
      show (b.put i infraSessionNew).released j + (b.sessions.count j + [i].count j +
        b.control.owes j + b.taken.count j) = (b.put i infraSessionNew).created j
      rw [released_put, created_put]
      by_cases hj : j = i
      · subst hj
        rw [created_none hnone] at hbooks
        rw [if_pos rfl, if_pos rfl, List.count_singleton_self]
        show 0 + _ = 1
        change _ + (_ + 0 + _ + _) = 0 at hbooks
        omega
      · rw [if_neg hj, if_neg hj, List.count_eq_zero.mpr (fun h => hj (List.mem_singleton.mp h))]
        exact hbooks
    · exact fun _ => h.worked (haccept ▸ (fun heq => by cases heq))
    · intro hclose
      rw [(h.closed hclose).1] at haccept
      cases haccept
  · cases hstep

theorem Inv.setClosedCb (h : b.Inv) (hstep : b.step .setClosedCb = some b') : b'.Inv := by
  simp only [InfraBackend.step] at hstep
  split at hstep
  · rename_i i haccept
    obtain ⟨s, hs, rfl⟩ := Option.map_eq_some_iff.mp hstep
    have hput : (b.put i { s with closedCb := true }).Inv := h.put hs rfl
    refine hput.congr rfl ?_ ?_ ?_
    · intro j
      unfold owed
      show _ = b.sessions.count j + b.accept.holds j + b.control.owes j + b.taken.count j
      rw [haccept]
      rfl
    · exact fun _ => h.worked (haccept ▸ (fun heq => by cases heq))
    · intro hclose
      rw [(h.closed hclose).1] at haccept
      cases haccept
  · cases hstep

theorem Inv.append (h : b.Inv) (hstep : b.step .append = some b') : b'.Inv := by
  simp only [InfraBackend.step] at hstep
  split at hstep
  · rename_i i haccept
    cases hstep
    refine h.congr rfl ?_ ?_ ?_
    · intro j
      unfold owed
      rw [haccept, List.count_append]
      rfl
    · exact fun _ => h.worked (haccept ▸ (fun heq => by cases heq))
    · intro hclose
      rw [(h.closed hclose).1] at haccept
      cases haccept
  · cases hstep

theorem Inv.acceptExit (h : b.Inv) (hstep : b.step .acceptExit = some b') : b'.Inv := by
  simp only [InfraBackend.step] at hstep
  split at hstep
  · rename_i hready
    cases hstep
    refine h.congr rfl ?_ ?_ ?_
    · intro j
      unfold owed
      rw [hready.1]
      rfl
    · exact fun hup => absurd rfl hup
    · exact fun hclose => ⟨rfl, (h.closed hclose).2⟩
  · cases hstep

/-! ### The pumps -/

theorem Inv.pumpExit (h : b.Inv) (hstep : b.step (.pumpExit i) = some b') : b'.Inv := by
  simp only [InfraBackend.step] at hstep
  split at hstep
  · rename_i s hs
    split at hstep
    · cases hstep
      exact h.put hs rfl
    · cases hstep
  · cases hstep

theorem Inv.emitClosed (h : b.Inv) (hstep : b.step (.emitClosed i) = some b') : b'.Inv := by
  simp only [InfraBackend.step] at hstep
  split at hstep
  · rename_i s hs
    split at hstep
    · cases hstep
      exact h.put hs rfl
    · cases hstep
  · cases hstep

theorem Inv.onSessionClosed (h : b.Inv) (hstep : b.step (.onSessionClosed i) = some b') :
    b'.Inv := by
  simp only [InfraBackend.step] at hstep
  split at hstep
  · rename_i s hs
    split at hstep
    · split at hstep
      · rename_i hlisted
        cases hstep
        constructor
        · -- the listing goes, and the reference with it
          have hdone : ({ s with pump := .done } : InfraSession).released = s.released := rfl
          refine account_unref _ h.account hs hdone (fun j => ?_) rfl
          have hcount : (b.sessions.erase i).count j + [i].count j = b.sessions.count j := by
            rw [(List.perm_cons_erase hlisted).count_eq j]
            show _ = ([i] ++ b.sessions.erase i).count j
            rw [List.count_append, Nat.add_comm]
          unfold owed
          rw [← hcount]
          show (b.sessions.erase i).count j + b.accept.holds j + b.control.owes j +
            b.taken.count j + _ = _
          omega
        · exact h.worked
        · intro hclose
          rw [(h.closed hclose).2] at hlisted
          cases hlisted
      · cases hstep
        exact h.put hs rfl
    · cases hstep
  · cases hstep

theorem Inv.step {e : InfraEv} (h : b.Inv) (hstep : b.step e = some b') : b'.Inv := by
  cases e with
  | start ok => exact h.start hstep
  | stop => exact h.stop hstep
  | finalize => exact h.finalize hstep
  | accept i => exact h.accept hstep
  | setClosedCb => exact h.setClosedCb hstep
  | append => exact h.append hstep
  | acceptExit => exact h.acceptExit hstep
  | pumpExit i => exact h.pumpExit hstep
  | emitClosed i => exact h.emitClosed hstep
  | onSessionClosed i => exact h.onSessionClosed hstep
  | takeSessions => exact h.takeSessions hstep
  | sessionStop => exact h.sessionStop hstep
  | sessionJoined => exact h.sessionJoined hstep

/-! ## The end of a run -/

/-- `stop` finds no session listed. -/
def TakesNone (b : InfraBackend) (e : InfraEv) : Prop :=
  e = .takeSessions → b.control = .joiningWorkers false → b.sessions = []

theorem step_taken_other {e : InfraEv} (he : e ≠ .takeSessions) (hstep : b.step e = some b') :
    b'.taken = b.taken := by
  cases e with
  | takeSessions => exact absurd rfl he
  | setClosedCb =>
      simp only [InfraBackend.step] at hstep
      split at hstep
      · obtain ⟨s, -, rfl⟩ := Option.map_eq_some_iff.mp hstep
        rfl
      · cases hstep
  | sessionStop =>
      simp only [InfraBackend.step] at hstep
      split at hstep
      · split at hstep
        · cases hstep
          rfl
        · cases hstep
          rfl
      · obtain ⟨s, -, rfl⟩ := Option.map_eq_some_iff.mp hstep
        split
        · rfl
        · rfl
      · cases hstep
  | _ =>
      simp only [InfraBackend.step] at hstep
      repeat' split at hstep
      all_goals cases hstep
      all_goals rfl

theorem step_taken {e : InfraEv} (hstep : b.step e = some b') :
    b'.taken = [] ↔ b.taken = [] ∧ b.TakesNone e := by
  by_cases he : e = .takeSessions
  · subst he
    simp only [InfraBackend.step] at hstep
    split at hstep
    · rename_i final hjoin
      split at hstep
      · cases hstep
        cases final with
        | false =>
            show b.taken ++ b.sessions = [] ↔ _
            rw [List.append_eq_nil_iff]
            apply and_congr_right
            intro _
            constructor
            · exact fun hnone _ _ => hnone
            · exact fun htakes => htakes rfl hjoin
        | true =>
            constructor
            · intro hnone
              refine ⟨hnone, fun _ hstop => ?_⟩
              rw [hjoin] at hstop
              cases hstop
            · exact And.left
      · cases hstep
    · cases hstep
  · rw [step_taken_other he hstep]
    constructor
    · exact fun hnone => ⟨hnone, fun heq => absurd heq he⟩
    · exact And.left

theorem Inv.released_le (h : b.Inv) (hs : b.made i = some s) : s.released ≤ 1 := by
  have hbooks := h.account i
  rw [released_eq hs, created_eq hs] at hbooks
  exact hbooks ▸ Nat.le_add_right _ _

/-- After `finalize` the sessions that `stop` has taken are not released, and the
others are. -/
theorem Inv.finalized (h : b.Inv) (hfinal : b.control = .finalized) :
    (∀ i s, b.made i = some s → s.released = 1) ↔ b.taken = [] := by
  have hclosed := h.closed (hfinal ▸ trivial)
  have hbooks : ∀ i, b.released i + b.taken.count i = b.created i := fun i => by
    have hi := h.account i
    unfold owed at hi
    rw [hclosed.1, hclosed.2, hfinal] at hi
    change _ + (0 + 0 + 0 + _) = _ at hi
    omega
  constructor
  · intro hall
    rw [List.eq_nil_iff_forall_not_mem]
    intro i hi
    have hcount := List.count_pos_iff.mpr hi
    have hbook := hbooks i
    cases hs : b.made i with
    | none =>
        rw [created_none hs] at hbook
        omega
    | some s =>
        rw [created_eq hs, released_eq hs, hall i s hs] at hbook
        omega
  · intro hnone i s hs
    have hbook := hbooks i
    rw [hnone, created_eq hs, released_eq hs] at hbook
    exact hbook

/-- **The references of the backend.** In every run none is released twice, and when
the backend is finalized each is released exactly if `stop` has never found a
session listed. -/
theorem released_once_iff {es : List InfraEv}
    (hrun : run InfraBackend.step infraBackendNew es = some b) :
    (∀ i s, b.made i = some s → s.released ≤ 1) ∧
      (b.control = .finalized →
        ((∀ i s, b.made i = some s → s.released = 1) ↔
          Meets InfraBackend.step TakesNone infraBackendNew es)) := by
  have hinv : b.Inv := run_inv_all Inv (fun _ _ _ h hstep => h.step hstep) inv_new hrun
  have htaken : b.taken = [] ↔ infraBackendNew.taken = [] ∧
      Meets InfraBackend.step TakesNone infraBackendNew es :=
    run_iff_meets (fun _ _ _ hstep => step_taken hstep) hrun
  constructor
  · exact fun i s hs => hinv.released_le hs
  · intro hfinal
    rw [hinv.finalized hfinal, htaken]
    exact and_iff_right rfl

/-! ### Two runs -/

/-- The transport starts and takes one connection, session `i`. -/
def startWith (i : ℕ) : List InfraEv := [.start true, .accept i, .setClosedCb, .append]

/-- The phone of session 0 goes before the transport is stopped, the one of session 1
is there until it is finalized. -/
def closedThenFinalized : List InfraEv :=
  startWith 0 ++ ([.pumpExit 0, .emitClosed 0, .onSessionClosed 0] : List InfraEv) ++
    ([.stop, .acceptExit, .takeSessions, .sessionStop] : List InfraEv) ++
    startWith 1 ++ ([.finalize, .acceptExit, .takeSessions, .sessionStop] : List InfraEv) ++
    ([.pumpExit 1, .emitClosed 1, .onSessionClosed 1, .sessionJoined, .sessionStop] : List InfraEv)

/-- The phone is there when the transport is stopped. -/
def stoppedWhileOpen : List InfraEv :=
  startWith 0 ++ ([.stop, .acceptExit, .takeSessions, .sessionStop] : List InfraEv) ++
    ([.pumpExit 0, .emitClosed 0, .onSessionClosed 0, .sessionJoined, .sessionStop] : List InfraEv) ++
    ([.finalize, .takeSessions, .sessionStop] : List InfraEv)

/-- A test for `TakesNone`. -/
def takesNoneTest (b : InfraBackend) (e : InfraEv) : Bool :=
  e ≠ .takeSessions || b.control ≠ .joiningWorkers false || b.sessions = []

theorem takesNone_of_test (b : InfraBackend) (e : InfraEv) (h : takesNoneTest b e = true) :
    b.TakesNone e := by
  intro he hcontrol
  simp only [takesNoneTest, he, hcontrol, ne_eq, not_true_eq_false, decide_false, Bool.false_or,
    decide_eq_true_eq] at h
  exact h

/-- How a run ends: the stage of the owner, and the releases of sessions 0 and 1. -/
def runEnd (es : List InfraEv) : Option (InfraControl × List (Option ℕ)) :=
  (run InfraBackend.step infraBackendNew es).map fun b =>
    (b.control, [0, 1].map fun i => (b.made i).map InfraSession.released)

theorem released_once_closed :
    ∃ b, run InfraBackend.step infraBackendNew closedThenFinalized = some b ∧
      b.control = .finalized ∧ (b.made 0).isSome ∧ (b.made 1).isSome ∧
      ∀ i s, b.made i = some s → s.released = 1 := by
  obtain ⟨b, hrun, hend⟩ := Option.map_eq_some_iff.mp
    (show runEnd closedThenFinalized = some (.finalized, [some 1, some 1]) by decide +kernel)
  obtain ⟨hfinal, hreleased⟩ := Prod.mk.inj hend
  obtain ⟨hzero, hone⟩ := List.cons.inj hreleased
  refine ⟨b, hrun, hfinal, ?_, ?_, ?_⟩
  · obtain ⟨s, hs, -⟩ := Option.map_eq_some_iff.mp hzero
    exact Option.isSome_iff_exists.mpr ⟨s, hs⟩
  · obtain ⟨s, hs, -⟩ := Option.map_eq_some_iff.mp (List.cons.inj hone).1
    exact Option.isSome_iff_exists.mpr ⟨s, hs⟩
  · apply ((released_once_iff hrun).2 hfinal).mpr
    exact meets_of_test takesNone_of_test _ (by decide +kernel)

/-- **A session that is open when the transport is stopped is never released.** -/
theorem not_released_once :
    ¬ ∀ es b, run InfraBackend.step infraBackendNew es = some b → b.control = .finalized →
      ∀ i s, b.made i = some s → s.released = 1 := by
  intro h
  obtain ⟨b, hrun, hend⟩ := Option.map_eq_some_iff.mp
    (show runEnd stoppedWhileOpen = some (.finalized, [some 0, none]) by decide +kernel)
  obtain ⟨hfinal, hreleased⟩ := Prod.mk.inj hend
  obtain ⟨s, hs, hzero⟩ := Option.map_eq_some_iff.mp (List.cons.inj hreleased).1
  rw [h _ b hrun hfinal 0 s hs] at hzero
  cases hzero

end InfraBackend

end HwPhoneLink.Transport
