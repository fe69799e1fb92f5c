import Mathlib.Data.List.Basic

/-!
# Runs of a partial step function

A system is given by a step function `σ → ε → Option σ`, where `none` means
that the event is not enabled. `run` folds a list of events, `Meets` says that
every step of a run satisfies a condition on the state it starts from and its
event, and the invariant rules package the induction over a run once.
-/

namespace Transitions

variable {σ ε : Type*} {step : σ → ε → Option σ}

/-- The state after a list of events, if all of them are enabled in turn. -/
def run (step : σ → ε → Option σ) : σ → List ε → Option σ
  | s, [] => some s
  | s, e :: es => (step s e).bind fun s' => run step s' es

/-- Every step of the run from `s` along the events satisfies `ok`. -/
def Meets (step : σ → ε → Option σ) (ok : σ → ε → Prop) : σ → List ε → Prop
  | _, [] => True
  | s, e :: es => ok s e ∧ ∀ s', step s e = some s' → Meets step ok s' es

@[simp] theorem run_nil (s : σ) : run step s [] = some s := rfl

theorem run_cons (s : σ) (e : ε) (es : List ε) :
    run step s (e :: es) = (step s e).bind fun s' => run step s' es := rfl

/-- A run with a first event is that step followed by a run. -/
theorem run_cons_eq_some {s t : σ} {e : ε} {es : List ε}
    (h : run step s (e :: es) = some t) :
    ∃ s', step s e = some s' ∧ run step s' es = some t :=
  Option.bind_eq_some_iff.mp h

/-- **Invariant rule.** What every step that meets `ok` preserves holds at
the end of every run whose steps meet `ok`. -/
theorem run_inv (Inv : σ → Prop) (ok : σ → ε → Prop)
    (hstep : ∀ s e s', Inv s → ok s e → step s e = some s' → Inv s') :
    ∀ {es : List ε} {s t : σ}, Inv s → Meets step ok s es →
      run step s es = some t → Inv t := by
  intro es
  induction es with
  | nil =>
      intro s t hs _ hrun
      cases hrun
      exact hs
  | cons e es ih =>
      intro s t hs hmeets hrun
      obtain ⟨s', hstep', hrest⟩ := run_cons_eq_some hrun
      exact ih (hstep s e s' hs hmeets.1 hstep') (hmeets.2 s' hstep') hrest

theorem meets_of_forall {ok : σ → ε → Prop} (hok : ∀ s e, ok s e) (es : List ε) :
    ∀ s : σ, Meets step ok s es := by
  induction es with
  | nil => intro s; trivial
  | cons e es ih => intro s; exact ⟨hok s e, fun s' _ => ih s'⟩

theorem meets_true (es : List ε) (s : σ) : Meets step (fun _ _ => True) s es :=
  meets_of_forall (fun _ _ => trivial) es s

/-- `Meets` for a condition that is tested at each step. -/
def meetsTest (step : σ → ε → Option σ) (test : σ → ε → Bool) : σ → List ε → Bool
  | _, [] => true
  | s, e :: es => test s e && (step s e).all fun s' => meetsTest step test s' es

theorem meets_of_test {ok : σ → ε → Prop} {test : σ → ε → Bool}
    (htest : ∀ s e, test s e = true → ok s e) (es : List ε) :
    ∀ {s : σ}, meetsTest step test s es = true → Meets step ok s es := by
  induction es with
  | nil => intro s _; trivial
  | cons e es ih =>
      intro s h
      rw [meetsTest, Bool.and_eq_true] at h
      refine ⟨htest s e h.1, fun s' hs' => ih ?_⟩
      rw [hs'] at h
      exact h.2

/-- As `meets_of_test`, where something is known of the events. -/
theorem meets_of_mem {ok : σ → ε → Prop} {test : σ → ε → Bool} {given : ε → Prop}
    (htest : ∀ s e, given e → test s e = true → ok s e) (es : List ε) :
    ∀ {s : σ}, (∀ e ∈ es, given e) → meetsTest step test s es = true → Meets step ok s es := by
  induction es with
  | nil => intro s _ _; trivial
  | cons e es ih =>
      intro s hgiven h
      rw [meetsTest, Bool.and_eq_true] at h
      refine ⟨htest s e (hgiven e List.mem_cons_self) h.1, fun s' hs' => ?_⟩
      rw [hs'] at h
      exact ih (fun e he => hgiven e (List.mem_cons_of_mem _ he)) h.2

/-- Two conditions that agree on the states of an invariant hold of the same
runs. The invariant may rely on a third condition. -/
theorem meets_congr (Inv : σ → Prop) {given P Q : σ → ε → Prop}
    (hstep : ∀ s e s', Inv s → given s e → step s e = some s' → Inv s')
    (hiff : ∀ s e, Inv s → given s e → (P s e ↔ Q s e)) :
    ∀ {es : List ε} {s : σ}, Inv s → Meets step given s es →
      (Meets step P s es ↔ Meets step Q s es) := by
  intro es
  induction es with
  | nil => intro s _ _; exact Iff.rfl
  | cons e es ih =>
      intro s hs hgiven
      have hrest : ∀ s', step s e = some s' → (Meets step P s' es ↔ Meets step Q s' es) :=
        fun s' hs' => ih (hstep s e s' hs hgiven.1 hs') (hgiven.2 s' hs')
      constructor
      · rintro ⟨hP, htail⟩
        exact ⟨(hiff s e hs hgiven.1).mp hP, fun s' hs' => (hrest s' hs').mp (htail s' hs')⟩
      · rintro ⟨hQ, htail⟩
        exact ⟨(hiff s e hs hgiven.1).mpr hQ, fun s' hs' => (hrest s' hs').mpr (htail s' hs')⟩

/-- **Exact condition rule.** If a step that meets `ok` preserves the invariant,
and a step that does not leaves the good states, then a run stays in good states
exactly if all its steps meet `ok`. -/
theorem good_iff_meets (Inv : σ → Prop) {good : σ → Prop} {ok : σ → ε → Prop} (hgood : ∀ s, Inv s → good s)
    (hstep : ∀ s e s', Inv s → ok s e → step s e = some s' → Inv s')
    (hbad : ∀ s e, Inv s → ¬ ok s e → ∃ s', step s e = some s' ∧ ¬ good s') :
    ∀ {es : List ε} {s : σ}, Inv s →
      ((∀ pre, pre <+: es → ∀ t, run step s pre = some t → good t) ↔ Meets step ok s es) := by
  intro es
  induction es with
  | nil =>
      intro s hs
      constructor
      · intro _
        trivial
      · intro _ pre hpre t hrun
        rw [List.prefix_nil.mp hpre] at hrun
        cases hrun
        exact hgood s hs
  | cons e es ih =>
      intro s hs
      constructor
      · intro hall
        have hok : ok s e := by
          by_contra hno
          obtain ⟨s', hs', hnot⟩ := hbad s e hs hno
          refine hnot (hall [e] ⟨es, rfl⟩ s' ?_)
          rw [run_cons, hs']
          rfl
        refine ⟨hok, fun s' hs' => (ih (hstep s e s' hs hok hs')).mp fun pre hpre t hrun => ?_⟩
        refine hall (e :: pre) (List.cons_prefix_cons.mpr ⟨rfl, hpre⟩) t ?_
        rw [run_cons, hs']
        exact hrun
      · rintro ⟨hok, hrest⟩ pre hpre t hrun
        cases pre with
        | nil =>
            cases hrun
            exact hgood s hs
        | cons e' pre =>
            obtain ⟨rfl, hpre'⟩ := List.cons_prefix_cons.mp hpre
            obtain ⟨s', hs', hrun'⟩ := run_cons_eq_some hrun
            exact (ih (hstep s e' s' hs hok hs')).mpr (hrest s' hs') pre hpre' t hrun'

/-- A property that a step keeps exactly if it meets `ok` is kept by a run exactly
if all its steps do. -/
theorem run_iff_meets {good : σ → Prop} {ok : σ → ε → Prop}
    (hstep : ∀ s e s', step s e = some s' → (good s' ↔ good s ∧ ok s e)) :
    ∀ {es : List ε} {s t : σ}, run step s es = some t →
      (good t ↔ good s ∧ Meets step ok s es) := by
  intro es
  induction es with
  | nil =>
      intro s t hrun
      cases hrun
      exact ⟨fun h => ⟨h, trivial⟩, And.left⟩
  | cons e es ih =>
      intro s t hrun
      obtain ⟨s', hs', hrest⟩ := run_cons_eq_some hrun
      rw [ih hrest, hstep s e s' hs', and_assoc]
      apply and_congr_right
      intro _
      constructor
      · rintro ⟨hok, htail⟩
        refine ⟨hok, fun s'' hs'' => ?_⟩
        rw [hs', Option.some.injEq] at hs''
        exact hs'' ▸ htail
      · rintro ⟨hok, htail⟩
        exact ⟨hok, htail s' hs'⟩

/-- The invariant rule without a condition on the steps. -/
theorem run_inv_all (Inv : σ → Prop)
    (hstep : ∀ s e s', Inv s → step s e = some s' → Inv s')
    {es : List ε} {s t : σ} (hs : Inv s) (hrun : run step s es = some t) : Inv t :=
  run_inv Inv (fun _ _ => True) (fun s e s' h _ => hstep s e s' h) hs (meets_true es s) hrun

/-- A measure that no step decreases does not decrease along a run. -/
theorem run_mono {μ : σ → ℕ} (hstep : ∀ s e s', step s e = some s' → μ s ≤ μ s')
    {es : List ε} {s t : σ} (hrun : run step s es = some t) : μ s ≤ μ t :=
  run_inv_all (fun u => μ s ≤ μ u)
    (fun u e u' hu he => Nat.le_trans hu (hstep u e u' he)) (Nat.le_refl _) hrun

/-- **Bounded invariant rule**, for runs whose steps meet `ok`. If a measure never
decreases and ends below `bound`, the steps may be assumed to end below `bound`. -/
theorem run_inv_meets_below (Inv : σ → Prop) {ok : σ → ε → Prop} {μ : σ → ℕ} {bound : ℕ}
    (hmono : ∀ s e s', step s e = some s' → μ s ≤ μ s')
    (hstep : ∀ s e s', Inv s → ok s e → μ s' < bound → step s e = some s' → Inv s') :
    ∀ {es : List ε} {s t : σ}, Inv s → Meets step ok s es → run step s es = some t →
      μ t < bound → Inv t := by
  intro es
  induction es with
  | nil =>
      intro s t hs _ hrun _
      cases hrun
      exact hs
  | cons e es ih =>
      intro s t hs hmeets hrun ht
      obtain ⟨s', hstep', hrest⟩ := run_cons_eq_some hrun
      have hle : μ s' ≤ μ t := run_mono hmono hrest
      have hs' : Inv s' := hstep s e s' hs hmeets.1 (Nat.lt_of_le_of_lt hle ht) hstep'
      exact ih hs' (hmeets.2 s' hstep') hrest ht

/-- **Bounded invariant rule.** -/
theorem run_inv_below (Inv : σ → Prop) {μ : σ → ℕ} {bound : ℕ}
    (hmono : ∀ s e s', step s e = some s' → μ s ≤ μ s')
    (hstep : ∀ s e s', Inv s → μ s' < bound → step s e = some s' → Inv s')
    {es : List ε} {s t : σ} (hs : Inv s) (hrun : run step s es = some t) (ht : μ t < bound) :
    Inv t :=
  run_inv_meets_below Inv hmono (fun s e s' h _ => hstep s e s' h) hs (meets_true es s) hrun ht

end Transitions
