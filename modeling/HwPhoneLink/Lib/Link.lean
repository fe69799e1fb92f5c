import HwPhoneLink.Lib.BigEndian
import HwPhoneLink.Lib.Transitions

/-!
# Two endpoints joined by a byte stream each way

An endpoint is a step function; `out` is what it has written so far and `chunk` what an
event reads. The link loses, repeats and reorders nothing, but it may hold bytes back and
cut the stream anywhere: an event that reads is enabled when what it reads comes next.

A run of the link is a run of each endpoint (`Link.run_own`), and what an endpoint has read
is a prefix of what the other has written (`Link.heard_front`). Results about one endpoint
alone compose along these two.
-/

namespace Transitions

open BigEndian

/-! ## Part of a system -/

section
variable {σ τ ε δ : Type*} {step : σ → ε → Option σ} {step' : τ → δ → Option τ} {π : σ → τ}
  {f : ε → Option δ}

/-- The part `π` of a system takes the events that `f` passes on, and rests at the others. -/
structure Projects (step : σ → ε → Option σ) (step' : τ → δ → Option τ) (π : σ → τ)
    (f : ε → Option δ) : Prop where
  rests : ∀ {s e s'}, f e = none → step s e = some s' → π s' = π s
  takes : ∀ {s e s' d}, f e = some d → step s e = some s' → step' (π s) d = some (π s')

/-- **A run of the system is a run of its part.** -/
theorem Projects.run (h : Projects step step' π f) (es : List ε) : ∀ {s s' : σ},
    run step s es = some s' → run step' (π s) (es.filterMap f) = some (π s') := by
  induction es with
  | nil =>
      intro s s' hrun
      cases hrun
      rfl
  | cons e es ih =>
      intro s s' hrun
      obtain ⟨s₁, hs, hrest⟩ := run_cons_eq_some hrun
      have htail := ih hrest
      rcases he : f e with _ | d
      · rw [List.filterMap_cons_none he, ← h.rests he hs]
        exact htail
      · rw [List.filterMap_cons_some he, run_cons, h.takes he hs]
        exact htail

/-- A condition on the steps of the system is one on those of its part. -/
theorem Projects.meets {ok : σ → ε → Prop} {ok' : τ → δ → Prop} (h : Projects step step' π f)
    (hok : ∀ s e d, ok s e → f e = some d → ok' (π s) d) (es : List ε) : ∀ {s s' : σ},
      Transitions.run step s es = some s' → Meets step ok s es →
      Meets step' ok' (π s) (es.filterMap f) := by
  induction es with
  | nil => exact fun _ _ => trivial
  | cons e es ih =>
      intro s s' hrun hmeets
      obtain ⟨s₁, hs, hrest⟩ := run_cons_eq_some hrun
      have htail := ih hrest (hmeets.2 s₁ hs)
      rcases he : f e with _ | d
      · rw [List.filterMap_cons_none he, ← h.rests he hs]
        exact htail
      · rw [List.filterMap_cons_some he]
        refine ⟨hok s e d hmeets.1 he, fun t ht => ?_⟩
        obtain rfl := Option.some.inj ((h.takes he hs).symm.trans ht)
        exact htail

end

/-! ## The link -/

structure Endpoint (σ ε : Type*) where
  step : σ → ε → Option σ
  out : σ → Bytes
  chunk : ε → Bytes

/-- What has been written stays written, in the states of an invariant. -/
structure Endpoint.Grows {σ ε : Type*} (P : Endpoint σ ε) (Inv : σ → Prop) : Prop where
  keeps : ∀ {s e s'}, Inv s → P.step s e = some s' → Inv s'
  grows : ∀ {s e s'}, Inv s → P.step s e = some s' → P.out s <+: P.out s'

/-- The endpoints, and how many bytes each has read. -/
structure Link (σ : Type*) where
  conn : Bool → σ
  got : Bool → ℕ

namespace Link

variable {σ ε : Type*}

/-- Before anything has been read. -/
def start (conn : Bool → σ) : Link σ := ⟨conn, fun _ => 0⟩

/-- One endpoint takes an event. -/
def step (P : Bool → Endpoint σ ε) (l : Link σ) (e : Bool × ε) : Option (Link σ) :=
  if (P e.1).chunk e.2 <+: ((P (!e.1)).out (l.conn (!e.1))).drop (l.got e.1) then
    ((P e.1).step (l.conn e.1) e.2).map fun s =>
      { conn := fun b => if b = e.1 then s else l.conn b
        got := fun b => if b = e.1 then l.got b + ((P e.1).chunk e.2).length else l.got b }
  else none

/-- The event, if it is one of the endpoint. -/
def ownEvent (b : Bool) (e : Bool × ε) : Option ε := if e.1 = b then some e.2 else none

/-- The events of one endpoint. -/
def own (b : Bool) (es : List (Bool × ε)) : List ε := es.filterMap (ownEvent b)

/-- What a list of events reads. -/
def heard (P : Endpoint σ ε) (es : List ε) : Bytes := es.flatMap P.chunk

theorem ownEvent_self {b : Bool} {e : ε} : ownEvent b (b, e) = some e := if_pos rfl

theorem ownEvent_other {b : Bool} {e : ε} : ownEvent b (!b, e) = none := by
  cases b <;> rfl

theorem own_cons_self {b : Bool} {e : ε} {es : List (Bool × ε)} :
    own b ((b, e) :: es) = e :: own b es :=
  List.filterMap_cons_some ownEvent_self

theorem own_cons_other {b : Bool} {e : ε} {es : List (Bool × ε)} :
    own b ((!b, e) :: es) = own b es :=
  List.filterMap_cons_none ownEvent_other

section
variable {P : Bool → Endpoint σ ε} {Inv : Bool → σ → Prop} {l l' : Link σ}

/-- What one event does. -/
theorem step_spec {b : Bool} {e : ε} (h : step P l (b, e) = some l') :
    (P b).chunk e <+: ((P (!b)).out (l.conn (!b))).drop (l.got b) ∧
      (P b).step (l.conn b) e = some (l'.conn b) ∧ l'.conn (!b) = l.conn (!b) ∧
      l'.got b = l.got b + ((P b).chunk e).length ∧ l'.got (!b) = l.got (!b) := by
  unfold step at h
  split at h
  · rename_i hnext
    obtain ⟨s, hs, rfl⟩ := Option.map_eq_some_iff.mp h
    have hne : (!b) ≠ b := by cases b <;> decide
    exact ⟨hnext, by simpa using hs, if_neg hne, if_pos rfl, if_neg hne⟩
  · cases h

/-- An event is one of the endpoint, or one of the other. -/
theorem event_cases (b : Bool) (e : Bool × ε) : (∃ x, e = (b, x)) ∨ ∃ x, e = (!b, x) := by
  obtain ⟨a, x⟩ := e
  cases a <;> cases b <;> simp

/-- An endpoint is part of the link. -/
theorem projects (b : Bool) :
    Projects (step P) (P b).step (fun l => l.conn b) (ownEvent b) where
  rests := by
    intro l e l' he hs
    rcases event_cases b e with ⟨x, rfl⟩ | ⟨x, rfl⟩
    · rw [ownEvent_self] at he
      cases he
    · have hother := (step_spec hs).2.2.1
      rwa [Bool.not_not] at hother
  takes := by
    intro l e l' x he hs
    rcases event_cases b e with ⟨y, rfl⟩ | ⟨y, rfl⟩
    · rw [ownEvent_self] at he
      cases he
      exact (step_spec hs).2.1
    · rw [ownEvent_other] at he
      cases he

/-- **Each endpoint runs its own events.** -/
theorem run_own (b : Bool) {es : List (Bool × ε)} (hrun : run (step P) l es = some l') :
    run (P b).step (l.conn b) (own b es) = some (l'.conn b) :=
  (projects b).run es hrun

/-- A condition on the steps of the link, for one endpoint. -/
theorem meets_own {ok : Link σ → Bool × ε → Prop} {ok' : σ → ε → Prop} (b : Bool)
    (hok : ∀ l e, ok l (b, e) → ok' (l.conn b) e) {es : List (Bool × ε)}
    (hrun : run (step P) l es = some l') (hmeets : Meets (step P) ok l es) :
    Meets (P b).step ok' (l.conn b) (own b es) := by
  refine (projects b).meets (fun l e x he hx => ?_) es hrun hmeets
  rcases event_cases b e with ⟨y, rfl⟩ | ⟨y, rfl⟩
  · rw [ownEvent_self] at hx
    cases hx
    exact hok l _ he
  · rw [ownEvent_other] at hx
    cases hx

/-- What has been read, and what is read from now on, has been written in the end. -/
theorem heard_append_front (hgrows : ∀ b, (P b).Grows (Inv b)) (b : Bool)
    (es : List (Bool × ε)) : ∀ {l : Link σ}, Inv (!b) (l.conn (!b)) →
      l.got b ≤ ((P (!b)).out (l.conn (!b))).length → run (step P) l es = some l' →
      ((P (!b)).out (l.conn (!b))).take (l.got b) ++ heard (P b) (own b es) <+:
        (P (!b)).out (l'.conn (!b)) := by
  induction es with
  | nil =>
      intro l _ _ hrun
      cases hrun
      rw [own, List.filterMap_nil, heard, List.flatMap_nil, List.append_nil]
      exact List.take_prefix _ _
  | cons e es ih =>
      intro l hinv hgot hrun
      obtain ⟨l₁, hs, hrest⟩ := run_cons_eq_some hrun
      rcases event_cases b e with ⟨x, rfl⟩ | ⟨x, rfl⟩
      · obtain ⟨⟨more, hmore⟩, -, hother, hlen, -⟩ := step_spec hs
        have htake : ((P (!b)).out (l.conn (!b))).take (l.got b + ((P b).chunk x).length) =
            ((P (!b)).out (l.conn (!b))).take (l.got b) ++ (P b).chunk x := by
          rw [List.take_add, ← hmore, List.take_left]
        have hbound : l₁.got b ≤ ((P (!b)).out (l₁.conn (!b))).length := by
          have hsum := congrArg List.length hmore
          rw [List.length_append, List.length_drop] at hsum
          rw [hlen, hother]
          omega
        have hnext := ih (hother.symm ▸ hinv) hbound hrest
        rw [hlen, hother, htake, List.append_assoc] at hnext
        rw [own_cons_self]
        exact hnext
      · obtain ⟨-, hstep, -, -, hsame⟩ := step_spec hs
        rw [Bool.not_not] at hsame
        obtain ⟨more, hmore⟩ := (hgrows (!b)).grows hinv hstep
        have htake : ((P (!b)).out (l₁.conn (!b))).take (l.got b) =
            ((P (!b)).out (l.conn (!b))).take (l.got b) := by
          rw [← hmore, List.take_append_of_le_length hgot]
        have hbound : l₁.got b ≤ ((P (!b)).out (l₁.conn (!b))).length := by
          rw [hsame, ← hmore, List.length_append]
          exact Nat.le_add_right_of_le hgot
        have hnext := ih ((hgrows (!b)).keeps hinv hstep) hbound hrest
        rw [hsame, htake] at hnext
        rw [own_cons_other]
        exact hnext

/-- **What an endpoint has read, the other has written.** -/
theorem heard_front (hgrows : ∀ b, (P b).Grows (Inv b)) {conn : Bool → σ}
    {es : List (Bool × ε)} (hinv : ∀ b, Inv b (conn b))
    (hrun : run (step P) (start conn) es = some l') (b : Bool) :
    heard (P b) (own b es) <+: (P (!b)).out (l'.conn (!b)) := by
  have h := heard_append_front hgrows b es (l := start conn) (hinv (!b)) (Nat.zero_le _) hrun
  rwa [start, List.take_zero, List.nil_append] at h

/-- An endpoint counts what it reads. -/
theorem got_run (b : Bool) (es : List (Bool × ε)) : ∀ {l : Link σ},
    run (step P) l es = some l' →
      l'.got b = l.got b + (heard (P b) (own b es)).length := by
  induction es with
  | nil =>
      intro l hrun
      cases hrun
      rfl
  | cons e es ih =>
      intro l hrun
      obtain ⟨l₁, hs, hrest⟩ := run_cons_eq_some hrun
      rcases event_cases b e with ⟨x, rfl⟩ | ⟨x, rfl⟩
      · rw [own_cons_self, heard, List.flatMap_cons, List.length_append, ih hrest,
          (step_spec hs).2.2.2.1]
        exact Nat.add_assoc _ _ _
      · have hsame := (step_spec hs).2.2.2.2
        rw [Bool.not_not] at hsame
        rw [own_cons_other, ih hrest, hsame]

end

end Link

end Transitions
