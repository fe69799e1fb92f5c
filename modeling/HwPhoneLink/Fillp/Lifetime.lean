import HwPhoneLink.Fillp.Store

/-!
# Nobody touches a released peer

What the engine thread holds across a callback stays alive, because no callback
releases a peer. A queued close request carries a bare number: it is safe as
long as its peer is not finalized while it waits (`ClosesFirst`).
-/

namespace HwPhoneLink.Fillp

open BigEndian Transitions

/-! ## Status of a peer -/

def FpStore.status (s : FpStore) (p : ℕ) : Option FpStatus := (s.cells[p]?).map FpCell.status

/-- The peer exists and has not been released. -/
def FpStore.Live (s : FpStore) (p : ℕ) : Prop :=
  ∃ st, s.status p = some st ∧ st.released = false

/-- The peer exists and its `on_closed` has not fired. -/
def FpStore.Open (s : FpStore) (p : ℕ) : Prop :=
  ∃ st, s.status p = some st ∧ st.onClosed = 0

@[simp] theorem FpStore.write_status (s : FpStore) (p r : ℕ) (q : FillpPeer) :
    (s.write p q).status r = s.status r := by
  unfold status write
  simp only [List.getElem?_modify]
  by_cases h : p = r
  · subst h
    cases s.cells[p]? <;> simp
  · simp [h]

theorem FpStore.setStatus_status (s : FpStore) (p r : ℕ) (f : FpStatus → FpStatus) :
    (s.setStatus p f).status r = if p = r then (s.status r).map f else s.status r := by
  unfold status setStatus
  simp only [List.getElem?_modify]
  by_cases h : p = r
  · subst h
    cases s.cells[p]? <;> simp
  · simp [h]

theorem FpStore.create_status (s : FpStore) (addr : FpAddr) (q : FillpPeer) (r : ℕ) :
    (s.create addr q).status r =
      if r = s.cells.length then some ⟨addr, false, 0⟩ else s.status r := by
  unfold status create
  rcases Nat.lt_trichotomy r s.cells.length with h | h | h
  · rw [List.getElem?_append_left h, if_neg (Nat.ne_of_lt h)]
  · subst h
    simp
  · rw [List.getElem?_append_right (Nat.le_of_lt h), if_neg (Nat.ne_of_gt h),
      List.getElem?_eq_none (by simp; omega), List.getElem?_eq_none (Nat.le_of_lt h)]

theorem FpStore.status_lt {s : FpStore} {p : ℕ} {st : FpStatus} (h : s.status p = some st) :
    p < s.cells.length := by
  unfold status at h
  obtain ⟨c, hc, -⟩ := Option.map_eq_some_iff.mp h
  exact (List.getElem?_eq_some_iff.mp hc).1

theorem FpStore.live_of_live {s : FpStore} {p : ℕ} (h : s.Live p) : ∃ q, s.live p = some q := by
  obtain ⟨st, hst, hreleased⟩ := h
  obtain ⟨c, hc, rfl⟩ := Option.map_eq_some_iff.mp hst
  exact ⟨c.peer, by simp [live, hc, hreleased]⟩

/-- What holds of every continuation holds after touching a live peer. -/
theorem FpStore.touch_rule {P : FpStore → Prop} {s : FpStore} {p : ℕ} {k : FillpPeer → FpStore}
    (h : s.Live p) (hk : ∀ q, s.live p = some q → P (k q)) : P (s.touch p k) := by
  obtain ⟨q, hq⟩ := live_of_live h
  rw [touch, hq]
  exact hk q hq

theorem FpStore.open_of_open? {s : FpStore} {p : ℕ} (h : s.open? p = true) : s.Open p := by
  unfold open? at h
  split at h
  · cases h
  · rename_i c hc
    exact ⟨c.status, by rw [status, hc]; rfl, by simpa using h⟩

/-! ## The invariant -/

def FpDrainPoint.holds : FpDrainPoint → List ℕ
  | .handle _ found _ => found.toList
  | .deliver p => [p]
  | .flush p => [p]
  | _ => []

def FpTickPoint.holds : FpTickPoint → List ℕ
  | .next => []
  | .fill p => [p]
  | .transmit p => [p]
  | .complete p => [p]
  | .acknowledge p => [p]
  | .check p => [p]

def FpFinalizePoint.holds : FpFinalizePoint → List ℕ
  | .next => []
  | .closed p => [p]
  | .release p => [p]

/-- The peers that the engine thread may still touch from where it is. -/
def FpControl.holds : FpControl → List ℕ
  | .loop => []
  | .drain pt => pt.holds
  | .tick _ pt rest toFinalize => pt.holds ++ (rest ++ toFinalize)
  | .finalize _ pt rest => pt.holds ++ rest

/-- The peer whose `on_closed` has fired and that is still to be released. -/
def FpControl.finalizing : FpControl → List ℕ
  | .finalize _ pt _ => pt.holds
  | _ => []

def FpControl.isShutdown : FpControl → Bool
  | .finalize shutdown _ _ => shutdown
  | _ => false

/-- The main loop will not take up another request. -/
def FpStore.Quitting (s : FpStore) : Prop :=
  s.quit = true ∨ s.control.isShutdown = true ∨ .request .engineClose ∈ s.todo

structure StoreInv (s : FpStore) : Prop where
  fault : s.fault = false
  released : ∀ p st, s.status p = some st → st.released = true → 0 < st.onClosed
  table : ∀ a p, s.table.lookup a = some p →
    ∃ st, s.status p = some st ∧ st.addr = a ∧ st.released = false
  holds : ∀ p ∈ s.control.holds, s.Live p
  nodup : s.control.holds.Nodup
  finalizing : ∀ p ∈ s.control.finalizing, ∃ st, s.status p = some st ∧ 0 < st.onClosed
  todo : ∀ p, .request (.peerClose p) ∈ s.todo → s.Open p
  queue : s.Quitting ∨ ∀ p, .peerClose p ∈ s.queue → s.Open p
  shutdown : s.closeInProgress = true → s.blocked = true ∨ s.quit = true ∨
    s.control.isShutdown = true

theorem StoreInv.live_of_open {s : FpStore} (h : StoreInv s) {p : ℕ} (hp : s.Open p) :
    s.Live p := by
  obtain ⟨st, hst, hzero⟩ := hp
  refine ⟨st, hst, ?_⟩
  by_contra hreleased
  rw [Bool.not_eq_false] at hreleased
  have hpos := h.released p st hst hreleased
  omega

/-- A step that leaves the statuses, the table and the context alone. -/
theorem StoreInv.move {s s' : FpStore} (h : StoreInv s) (hstatus : ∀ p, s'.status p = s.status p)
    (htable : s'.table = s.table) (htodo : s'.todo = s.todo) (hqueue : s'.queue = s.queue)
    (hfault : s'.fault = false) (hquit : s'.quit = s.quit)
    (hclose : s'.closeInProgress = s.closeInProgress) (hblocked : s'.blocked = s.blocked)
    (hshutdown : s'.control.isShutdown = s.control.isShutdown)
    (hholds : ∀ p ∈ s'.control.holds, s.Live p) (hnodup : s'.control.holds.Nodup)
    (hfinalizing : ∀ p ∈ s'.control.finalizing, p ∈ s.control.finalizing) : StoreInv s' where
  fault := hfault
  released p st hst := h.released p st (hstatus p ▸ hst)
  table a p hp := by
    rw [htable] at hp
    rw [hstatus]
    exact h.table a p hp
  holds p hp := by
    rw [FpStore.Live, hstatus]
    exact hholds p hp
  nodup := hnodup
  finalizing p hp := by
    rw [hstatus]
    exact h.finalizing p (hfinalizing p hp)
  todo p hp := by
    rw [htodo] at hp
    rw [FpStore.Open, hstatus]
    exact h.todo p hp
  queue := by
    rcases h.queue with hquitting | hopen
    · left
      rw [FpStore.Quitting, hquit, hshutdown, htodo]
      exact hquitting
    · right
      intro p hp
      rw [hqueue] at hp
      rw [FpStore.Open, hstatus]
      exact hopen p hp
  shutdown hc := by
    rw [hblocked, hquit, hshutdown]
    exact h.shutdown (hclose ▸ hc)

theorem StoreInv.write {s : FpStore} (h : StoreInv s) (p : ℕ) (q : FillpPeer) :
    StoreInv (s.write p q) :=
  h.move (fun r => s.write_status p r q) rfl rfl rfl h.fault rfl rfl rfl rfl h.holds h.nodup
    fun _ hp => hp

theorem StoreInv.goto {s : FpStore} (h : StoreInv s) {control : FpControl}
    (hshutdown : control.isShutdown = s.control.isShutdown)
    (hholds : ∀ p ∈ control.holds, s.Live p) (hnodup : control.holds.Nodup)
    (hfinalizing : ∀ p ∈ control.finalizing, p ∈ s.control.finalizing) :
    StoreInv (s.goto control) :=
  h.move (fun _ => rfl) rfl rfl rfl h.fault rfl rfl rfl hshutdown hholds hnodup hfinalizing

/-- A new peer. -/
theorem StoreInv.create {s : FpStore} (h : StoreInv s) (addr : FpAddr) (q : FillpPeer) :
    StoreInv (s.create addr q) := by
  have hold : ∀ p st, s.status p = some st → (s.create addr q).status p = some st := by
    intro p st hst
    rw [FpStore.create_status, if_neg (Nat.ne_of_lt (FpStore.status_lt hst)), hst]
  have hlive : ∀ p, s.Live p → (s.create addr q).Live p := by
    rintro p ⟨st, hst, hreleased⟩
    exact ⟨st, hold p st hst, hreleased⟩
  have hopen : ∀ p, s.Open p → (s.create addr q).Open p := by
    rintro p ⟨st, hst, hzero⟩
    exact ⟨st, hold p st hst, hzero⟩
  constructor
  · exact h.fault
  · intro p st hst hreleased
    rw [FpStore.create_status] at hst
    split at hst
    · cases hst
      cases hreleased
    · exact h.released p st hst hreleased
  · intro a p hp
    by_cases ha : a = addr
    · subst ha
      rw [show (s.create a q).table = s.table.insert a s.cells.length from rfl,
        AList.lookup_insert] at hp
      cases hp
      exact ⟨⟨a, false, 0⟩, by rw [FpStore.create_status, if_pos rfl], rfl, rfl⟩
    · rw [show (s.create addr q).table = s.table.insert addr s.cells.length from rfl,
        AList.lookup_insert_ne ha] at hp
      obtain ⟨st, hst, haddr, hreleased⟩ := h.table a p hp
      exact ⟨st, hold p st hst, haddr, hreleased⟩
  · exact fun p hp => hlive p (h.holds p hp)
  · exact h.nodup
  · intro p hp
    obtain ⟨st, hst, hpos⟩ := h.finalizing p hp
    exact ⟨st, hold p st hst, hpos⟩
  · exact fun p hp => hopen p (h.todo p hp)
  · rcases h.queue with hquitting | hqueue
    · exact .inl hquitting
    · exact .inr fun p hp => hopen p (hqueue p hp)
  · exact h.shutdown

/-! ## Calls -/

theorem StoreInv.peerClose {s : FpStore} (h : StoreInv s) {p : ℕ} (hp : s.Open p) (env : FpEnv)
    (onThread : Bool) : StoreInv (s.peerClose env onThread p) := by
  refine FpStore.touch_rule (h.live_of_open hp) fun q _ => ?_
  split
  · exact h
  split
  · refine ⟨h.fault, h.released, h.table, h.holds, h.nodup, h.finalizing, h.todo, ?_, h.shutdown⟩
    rcases h.queue with hquitting | hqueue
    · exact .inl hquitting
    · right
      intro r hr
      rcases List.mem_append.mp hr with hr | hr
      · exact hqueue r hr
      · cases List.mem_singleton.mp hr
        exact hp
  · exact h.write p _

theorem StoreInv.engineClose {s : FpStore} (h : StoreInv s) (onThread : Bool) :
    StoreInv (s.engineClose onThread) := by
  unfold FpStore.engineClose
  split
  · exact h
  simp only
  split
  · split
    · exact ⟨h.fault, h.released, h.table, h.holds, h.nodup, h.finalizing, h.todo, h.queue,
        fun _ => .inl rfl⟩
    · refine ⟨h.fault, h.released, h.table, h.holds, h.nodup, h.finalizing, h.todo, ?_, h.shutdown⟩
      rcases h.queue with hquitting | hqueue
      · exact .inl hquitting
      · right
        intro r hr
        rcases List.mem_append.mp hr with hr | hr
        · exact hqueue r hr
        · cases List.mem_singleton.mp hr
  · exact ⟨h.fault, h.released, h.table, h.holds, h.nodup, h.finalizing, h.todo, h.queue,
      h.shutdown⟩

theorem StoreInv.call {s s' : FpStore} (h : StoreInv s) {env : FpEnv} {onThread : Bool}
    {c : FpCall} (hs : s.call env onThread c = some s') : StoreInv s' := by
  cases c with
  | peerClose p =>
      simp only [FpStore.call] at hs
      split at hs
      · rename_i hopen
        cases hs
        exact h.peerClose (FpStore.open_of_open? hopen) env onThread
      · cases hs
  | engineClose =>
      cases hs
      exact h.engineClose onThread
  | connect addr sendOk =>
      cases hs
      unfold FpStore.connect
      split
      · exact h
      · exact h.create addr _
  | send p data =>
      simp only [FpStore.call] at hs
      split at hs
      · rename_i hopen
        cases hs
        exact FpStore.touch_rule (h.live_of_open (FpStore.open_of_open? hopen.1))
          fun q _ => h.write p _
      · cases hs

/-! ## The engine thread -/

/-- The thread goes on and holds no new peer. -/
theorem StoreInv.advance {s : FpStore} (h : StoreInv s) {control : FpControl}
    (hshutdown : control.isShutdown = s.control.isShutdown)
    (hholds : ∀ p ∈ control.holds, p ∈ s.control.holds) (hnodup : control.holds.Nodup)
    (hfinalizing : control.finalizing = []) : StoreInv (s.goto control) := by
  refine h.goto hshutdown (fun p hp => h.holds p (hholds p hp)) hnodup ?_
  intro p hp
  rw [hfinalizing] at hp
  cases hp

/-- It writes a peer first. -/
theorem StoreInv.writeAdvance {s : FpStore} (h : StoreInv s) (p : ℕ) (q : FillpPeer)
    {control : FpControl} (hshutdown : control.isShutdown = s.control.isShutdown)
    (hholds : ∀ p ∈ control.holds, p ∈ s.control.holds) (hnodup : control.holds.Nodup)
    (hfinalizing : control.finalizing = []) : StoreInv ((s.write p q).goto control) :=
  (h.write p q).advance hshutdown hholds hnodup hfinalizing

section Thread

variable {hmacSha256 : Bytes → Bytes → Bytes} {engine : FillpEngine} {env : FpEnv} {s : FpStore}

theorem StoreInv.handle (h : StoreInv s) {source : FpAddr} {found : Option ℕ} {buf : Bytes}
    (hcontrol : s.control = .drain (.handle source found buf)) :
    StoreInv (s.handle hmacSha256 engine env source found buf) := by
  have hreceive : StoreInv (s.goto (.drain .receive)) :=
    h.advance (by rw [hcontrol]; rfl) (by simp [FpControl.holds, FpDrainPoint.holds])
      List.nodup_nil rfl
  cases found with
  | none =>
      unfold FpStore.handle
      simp only
      split
      · exact hreceive
      · rename_i q _
        refine (h.create source q).advance ?_ ?_ List.nodup_nil rfl
        · show false = s.control.isShutdown
          rw [hcontrol]
          rfl
        · simp [FpControl.holds, FpDrainPoint.holds]
  | some p =>
      have hmem : p ∈ s.control.holds := by
        rw [hcontrol]
        exact List.mem_singleton_self p
      have hone : ∀ (q : FillpPeer) (pt : FpDrainPoint), (pt.holds = [] ∨ pt.holds = [p]) →
          StoreInv ((s.write p q).goto (.drain pt)) := by
        intro q pt hpt
        refine h.writeAdvance p q (by rw [hcontrol]; rfl) ?_ ?_ rfl
        · intro r hr
          rw [FpControl.holds] at hr
          rcases hpt with hpt | hpt
          · rw [hpt] at hr
            cases hr
          · rw [hpt, List.mem_singleton] at hr
            exact hr ▸ hmem
        · rw [FpControl.holds]
          rcases hpt with hpt | hpt <;> simp [hpt]
      unfold FpStore.handle
      simp only
      refine FpStore.touch_rule (h.holds p hmem) fun q _ => ?_
      split
      · split
        · split
          · exact hreceive
          · unfold FpStore.onData
            split
            · exact hone _ _ (.inr rfl)
            · exact hone _ _ (.inl rfl)
        · exact hreceive
      · split
        · exact hone _ _ (.inl rfl)
        · exact hone _ _ (.inl rfl)

theorem StoreInv.flush (h : StoreInv s) {p : ℕ} (hcontrol : s.control = .drain (.flush p)) :
    StoreInv (s.flush env p) := by
  have hmem : p ∈ s.control.holds := by
    rw [hcontrol]
    exact List.mem_singleton_self p
  unfold FpStore.flush
  refine FpStore.touch_rule (h.holds p hmem) fun q _ => ?_
  split
  · exact h.writeAdvance p _ (by rw [hcontrol]; rfl) (by simp [FpControl.holds, FpDrainPoint.holds])
      List.nodup_nil rfl
  · refine h.writeAdvance p _ (by rw [hcontrol]; rfl) ?_ (List.nodup_singleton p) rfl
    intro r hr
    exact List.mem_singleton.mp hr ▸ hmem

theorem StoreInv.tickStep (h : StoreInv s) {tickEnv : FpEnv} {pt : FpTickPoint}
    {rest toFinalize : List ℕ} (hcontrol : s.control = .tick tickEnv pt rest toFinalize) :
    StoreInv (s.tickStep engine env tickEnv pt rest toFinalize) := by
  have hshutdown : ∀ pt' rest' toFinalize',
      (FpControl.tick tickEnv pt' rest' toFinalize').isShutdown = s.control.isShutdown := by
    intro _ _ _
    rw [hcontrol]
    rfl
  have hheld : s.control.holds = pt.holds ++ (rest ++ toFinalize) := by rw [hcontrol]; rfl
  have hnodup := h.nodup
  rw [hheld] at hnodup
  -- the peer of this round, in every order in which the loop keeps it
  have hkeep : ∀ (q : FillpPeer) (pt' : FpTickPoint) (p : ℕ), pt.holds = [p] → pt'.holds = [p] →
      StoreInv ((s.write p q).goto (.tick tickEnv pt' rest toFinalize)) := by
    intro q pt' p hpt hpt'
    have heq : (FpControl.tick tickEnv pt' rest toFinalize).holds = s.control.holds := by
      rw [hheld, hpt, ← hpt']
      rfl
    exact h.writeAdvance p q (hshutdown _ _ _) (fun r hr => heq ▸ hr) (heq ▸ h.nodup) rfl
  cases pt with
  | next =>
      cases rest with
      | nil =>
          refine h.advance (by rw [hcontrol]; rfl) ?_ hnodup rfl
          intro r hr
          rw [hheld]
          exact hr
      | cons p rest =>
          have hmem : p ∈ s.control.holds := by
            rw [hheld]
            simp
          have hdrop : ∀ q, StoreInv ((s.write p q).goto (.tick tickEnv .next rest toFinalize)) := by
            intro q
            refine h.writeAdvance p q (hshutdown _ _ _) ?_ (List.nodup_cons.mp hnodup).2 rfl
            intro r hr
            rw [hheld]
            exact List.mem_cons_of_mem _ hr
          refine FpStore.touch_rule (h.holds p hmem) fun q _ => ?_
          split
          · exact hdrop _
          · refine h.advance (hshutdown _ _ _) ?_ (List.nodup_cons.mp hnodup).2 rfl
            intro r hr
            rw [hheld]
            exact List.mem_cons_of_mem _ hr
          · have heq : ∀ pt' : FpTickPoint, pt'.holds = [p] →
                StoreInv (s.goto (.tick tickEnv pt' rest toFinalize)) := by
              intro pt' hpt'
              have heq : (FpControl.tick tickEnv pt' rest toFinalize).holds = s.control.holds := by
                rw [hheld, FpControl.holds, hpt']
                rfl
              exact h.advance (hshutdown _ _ _) (fun r hr => heq ▸ hr) (heq ▸ h.nodup) rfl
            apply heq
            split <;> rfl
  | fill p => exact h
  | complete p => exact h
  | transmit p =>
      have hmem : p ∈ s.control.holds := by
        rw [hheld]
        exact List.mem_cons_self
      refine FpStore.touch_rule (h.holds p hmem) fun q _ => ?_
      refine hkeep _ _ p rfl ?_
      split <;> rfl
  | acknowledge p =>
      have hmem : p ∈ s.control.holds := by
        rw [hheld]
        exact List.mem_cons_self
      exact FpStore.touch_rule (h.holds p hmem) fun q _ => hkeep _ _ p rfl rfl
  | check p =>
      have hmem : p ∈ s.control.holds := by
        rw [hheld]
        exact List.mem_cons_self
      refine FpStore.touch_rule (h.holds p hmem) fun q _ => ?_
      have hsub : ∀ tf, (tf = toFinalize ∨ tf = p :: toFinalize) →
          StoreInv (s.goto (.tick tickEnv .next rest tf)) := by
        rintro tf (rfl | rfl)
        · refine h.advance (hshutdown _ _ _) ?_ (List.nodup_cons.mp hnodup).2 rfl
          intro r hr
          rw [hheld]
          exact List.mem_cons_of_mem _ hr
        · refine h.advance (hshutdown _ _ _) ?_ ?_ rfl
          · intro r hr
            rw [hheld]
            have hr : r ∈ rest ++ p :: toFinalize := hr
            simp only [List.mem_append, List.mem_cons] at hr
            simp only [FpTickPoint.holds, List.mem_append, List.mem_singleton]
            rcases hr with hr | hr | hr
            · exact .inr (.inl hr)
            · exact .inl hr
            · exact .inr (.inr hr)
          · show (rest ++ p :: toFinalize).Nodup
            exact (List.nodup_middle).mpr hnodup
      apply hsub
      split
      · exact .inr rfl
      · exact .inl rfl

/-- The end of a loop that finalizes peers. -/
theorem StoreInv.finalizeEnd (h : StoreInv s) {shutdown : Bool}
    (hcontrol : s.control = .finalize shutdown .next []) :
    StoreInv { s with quit := s.quit || shutdown, control := .loop } := by
  have hshutdown : s.control.isShutdown = shutdown := by rw [hcontrol]; rfl
  refine ⟨h.fault, h.released, h.table, by simp [FpControl.holds], List.nodup_nil,
    by simp [FpControl.finalizing], h.todo, ?_, ?_⟩
  · rcases h.queue with (hquit | hshut | hclose) | hqueue
    · exact .inl (.inl (by simp [hquit]))
    · rw [hshutdown] at hshut
      exact .inl (.inl (by simp [hshut]))
    · exact .inl (.inr (.inr hclose))
    · exact .inr hqueue
  · intro hc
    rcases h.shutdown hc with hblocked | hquit | hshut
    · exact .inl hblocked
    · exact .inr (.inl (by simp [hquit]))
    · rw [hshutdown] at hshut
      exact .inr (.inl (by simp [hshut]))

theorem FpStore.fireClosed_status (p r : ℕ) (q : FillpPeer) : (s.fireClosed p q).status r =
    if p = r then (s.status r).map fun st => { st with onClosed := st.onClosed + 1 }
    else s.status r := by
  rw [fireClosed, setStatus_status, write_status]

/-- The callback of a peer that nothing in the context names. -/
theorem StoreInv.fireClosed (h : StoreInv s) {shutdown : Bool} {p : ℕ} {rest : List ℕ}
    (hcontrol : s.control = .finalize shutdown .next (p :: rest))
    (htodo : .request (.peerClose p) ∉ s.todo)
    (hqueue : s.Quitting ∨ .peerClose p ∉ s.queue) (q : FillpPeer) :
    StoreInv ((s.fireClosed p q).goto (.finalize shutdown (.closed p) rest)) := by
  set t := (s.fireClosed p q).goto (.finalize shutdown (.closed p) rest)
  have hstatus : ∀ r, t.status r =
      if p = r then (s.status r).map fun st => { st with onClosed := st.onClosed + 1 }
      else s.status r := fun r => FpStore.fireClosed_status p r q
  have hheld : t.control.holds = s.control.holds := by
    rw [hcontrol]
    rfl
  have hkeep : ∀ r st, s.status r = some st →
      ∃ st', t.status r = some st' ∧ st'.addr = st.addr ∧ st'.released = st.released := by
    intro r st hst
    rw [hstatus]
    split
    · exact ⟨{ st with onClosed := st.onClosed + 1 }, by rw [hst]; rfl, rfl, rfl⟩
    · exact ⟨st, hst, rfl, rfl⟩
  have hopen : ∀ r, r ≠ p → s.Open r → t.Open r := by
    rintro r hr ⟨st, hst, hzero⟩
    exact ⟨st, by rw [hstatus, if_neg hr.symm, hst], hzero⟩
  have hquitting : s.Quitting → t.Quitting := by
    rintro (hquit | hshut | hclose)
    · exact .inl hquit
    · rw [hcontrol] at hshut
      exact .inr (.inl hshut)
    · exact .inr (.inr hclose)
  constructor
  · exact h.fault
  · intro r st hst hreleased
    rw [hstatus] at hst
    split at hst
    · obtain ⟨st', -, rfl⟩ := Option.map_eq_some_iff.mp hst
      exact Nat.succ_pos _
    · exact h.released r st hst hreleased
  · intro a r hr
    obtain ⟨st, hst, haddr, hreleased⟩ := h.table a r hr
    obtain ⟨st', hst', haddr', hreleased'⟩ := hkeep r st hst
    exact ⟨st', hst', haddr'.trans haddr, hreleased'.trans hreleased⟩
  · intro r hr
    obtain ⟨st, hst, hreleased⟩ := h.holds r (hheld ▸ hr)
    obtain ⟨st', hst', -, hreleased'⟩ := hkeep r st hst
    exact ⟨st', hst', hreleased'.trans hreleased⟩
  · exact hheld ▸ h.nodup
  · intro r hr
    cases List.mem_singleton.mp hr
    obtain ⟨st, hst, -⟩ := h.holds p (by rw [hcontrol]; exact List.mem_cons_self)
    refine ⟨{ st with onClosed := st.onClosed + 1 }, ?_, Nat.succ_pos _⟩
    rw [hstatus, if_pos rfl, hst]
    rfl
  · intro r hr
    refine hopen r ?_ (h.todo r hr)
    rintro rfl
    exact htodo hr
  · rcases h.queue with hq | hall
    · exact .inl (hquitting hq)
    rcases hqueue with hq | hno
    · exact .inl (hquitting hq)
    right
    intro r hr
    refine hopen r ?_ (hall r hr)
    rintro rfl
    exact hno hr
  · intro hc
    rcases h.shutdown hc with hblocked | hquit | hshut
    · exact .inl hblocked
    · exact .inr (.inl hquit)
    · rw [hcontrol] at hshut
      exact .inr (.inr hshut)

theorem FpStore.release_status (p r : ℕ) : (s.release p).status r =
    if p = r then (s.status r).map fun st => { st with released := true } else s.status r := by
  unfold release
  split
  · rename_i hnone
    split
    · rename_i hp
      subst hp
      simp [status, hnone]
    · rfl
  · exact FpStore.setStatus_status s p r fun st => { st with released := true }

theorem FpStore.release_table {p : ℕ} {st : FpStatus} (h : s.status p = some st) :
    (s.release p).table = s.table.erase st.addr := by
  obtain ⟨c, hc, rfl⟩ := Option.map_eq_some_iff.mp h
  rw [release, hc]

theorem FpStore.release_control (p : ℕ) (control : FpControl) :
    (s.release p).goto control =
      { s with cells := (s.release p).cells, table := (s.release p).table, control := control } := by
  unfold release
  split <;> rfl

/-- The release of the peer whose callback has returned. -/
theorem StoreInv.release (h : StoreInv s) {shutdown : Bool} {p : ℕ} {rest : List ℕ}
    (hcontrol : s.control = .finalize shutdown (.release p) rest) :
    StoreInv ((s.release p).goto (.finalize shutdown .next rest)) := by
  have hheld : s.control.holds = p :: rest := by rw [hcontrol]; rfl
  have hnodup := h.nodup
  rw [hheld, List.nodup_cons] at hnodup
  obtain ⟨st, hst, hpos⟩ : ∃ st, s.status p = some st ∧ 0 < st.onClosed :=
    h.finalizing p (by rw [hcontrol]; exact List.mem_singleton_self p)
  have htable := FpStore.release_table hst
  have hstatus := FpStore.release_status (s := s) p
  have hkeep : ∀ r, r ≠ p → (s.release p).status r = s.status r := by
    intro r hr
    rw [hstatus, if_neg hr.symm]
  have hopen : ∀ r, s.Open r → (s.release p).Open r := by
    rintro r ⟨st', hst', hzero⟩
    have hr : r ≠ p := by
      rintro rfl
      rw [hst] at hst'
      cases hst'
      omega
    exact ⟨st', by rw [hkeep r hr, hst'], hzero⟩
  rw [FpStore.release_control]
  constructor
  · exact h.fault
  · intro r st' hst' hreleased
    by_cases hr : r = p
    · subst hr
      have hst' : (s.release r).status r = some st' := hst'
      rw [hstatus, if_pos rfl, hst] at hst'
      cases hst'
      exact hpos
    · exact h.released r st' ((hkeep r hr).symm.trans hst') hreleased
  · intro a r hr
    have hr : (s.release p).table.lookup a = some r := hr
    have hne : a ≠ st.addr := by
      rintro rfl
      rw [htable, AList.lookup_erase] at hr
      cases hr
    rw [htable, AList.lookup_erase_ne hne] at hr
    obtain ⟨st', hst', haddr', hreleased⟩ := h.table a r hr
    have hrp : r ≠ p := by
      rintro rfl
      rw [hst] at hst'
      cases hst'
      exact hne haddr'.symm
    exact ⟨st', (hkeep r hrp).trans hst', haddr', hreleased⟩
  · intro r hr
    have hr : r ∈ rest := hr
    have hrp : r ≠ p := by
      rintro rfl
      exact hnodup.1 hr
    obtain ⟨st', hst', hreleased⟩ := h.holds r (by rw [hheld]; exact List.mem_cons_of_mem _ hr)
    exact ⟨st', (hkeep r hrp).trans hst', hreleased⟩
  · exact hnodup.2
  · intro r hr
    cases hr
  · exact fun r hr => hopen r (h.todo r hr)
  · rcases h.queue with (hquit | hshut | hclose) | hqueue
    · exact .inl (.inl hquit)
    · rw [hcontrol] at hshut
      exact .inl (.inr (.inl hshut))
    · exact .inl (.inr (.inr hclose))
    · exact .inr fun r hr => hopen r (hqueue r hr)
  · intro hc
    rcases h.shutdown hc with hblocked | hquit | hshut
    · exact .inl hblocked
    · exact .inr (.inl hquit)
    · rw [hcontrol] at hshut
      exact .inr (.inr hshut)

/-- Nothing that is still to be dispatched names the peer that is finalized next. -/
def FpStore.NoneWaiting (s : FpStore) : Prop :=
  ∀ shutdown p rest, s.control = .finalize shutdown .next (p :: rest) →
    .request (.peerClose p) ∉ s.todo ∧ (s.Quitting ∨ .peerClose p ∉ s.queue)

theorem StoreInv.finalizeStep (h : StoreInv s) {shutdown : Bool} {pt : FpFinalizePoint}
    {rest : List ℕ} (hcontrol : s.control = .finalize shutdown pt rest)
    (hwaiting : s.NoneWaiting) : StoreInv (s.finalizeStep shutdown pt rest) := by
  have hheld : s.control.holds = pt.holds ++ rest := by rw [hcontrol]; rfl
  cases pt with
  | closed p => exact h
  | next =>
      cases rest with
      | nil => exact h.finalizeEnd hcontrol
      | cons p rest =>
          obtain ⟨htodo, hqueue⟩ := hwaiting shutdown p rest hcontrol
          have hmem : p ∈ s.control.holds := by
            rw [hheld]
            exact List.mem_cons_self
          refine FpStore.touch_rule (h.holds p hmem) fun q _ => ?_
          split
          · have hnodup := h.nodup
            rw [hheld] at hnodup
            refine h.advance (by rw [hcontrol]; rfl) ?_ (List.nodup_cons.mp hnodup).2 rfl
            intro r hr
            rw [hheld]
            exact List.mem_cons_of_mem _ hr
          · exact h.fireClosed hcontrol htodo hqueue q
  | release p =>
      have hmem : p ∈ s.control.holds := by
        rw [hheld]
        exact List.mem_cons_self
      exact FpStore.touch_rule (h.holds p hmem) fun _ _ => h.release hcontrol

theorem StoreInv.threadStep (h : StoreInv s) (hwaiting : s.NoneWaiting) {s' : FpStore}
    (hs : s.threadStep hmacSha256 engine env = some s') : StoreInv s' := by
  unfold FpStore.threadStep at hs
  split at hs
  · cases hs
  split at hs
  · cases hs
  · cases hs
  · rename_i hcontrol
    cases hs
    exact h.handle hcontrol
  · rename_i hcontrol
    cases hs
    exact h.flush hcontrol
  · cases hs
  · rename_i hcontrol
    cases hs
    exact h.tickStep hcontrol
  · rename_i hcontrol
    cases hs
    exact h.finalizeStep hcontrol hwaiting

end Thread

/-- A callback returns. -/
theorem StoreInv.callbackReturn {s s' : FpStore} (h : StoreInv s) {r : ℤ}
    (hs : s.callbackReturn r = some s') : StoreInv s' := by
  -- the thread goes on with what it held
  have hsame : ∀ control : FpControl, control.holds = s.control.holds →
      control.isShutdown = s.control.isShutdown → control.finalizing = s.control.finalizing →
      StoreInv (s.goto control) := by
    intro control hholds hshutdown hfinalizing
    exact h.goto hshutdown (fun p hp => h.holds p (hholds ▸ hp)) (hholds ▸ h.nodup)
      fun p hp => hfinalizing ▸ hp
  unfold FpStore.callbackReturn at hs
  split at hs
  · rename_i hcontrol
    cases hs
    apply hsame <;> rw [hcontrol] <;> rfl
  · rename_i hcontrol
    cases hs
    apply hsame <;> rw [hcontrol] <;> rfl
  · rename_i tickEnv p rest toFinalize hcontrol
    cases hs
    have hlive : s.Live p := h.holds p (by rw [hcontrol]; exact List.mem_cons_self)
    refine FpStore.touch_rule hlive fun q _ => ?_
    have heq : (FpControl.tick tickEnv (.transmit p) rest toFinalize).holds = s.control.holds := by
      rw [hcontrol]
      rfl
    exact h.writeAdvance p _ (by rw [hcontrol]; rfl) (fun r hr => heq ▸ hr) (heq ▸ h.nodup) rfl
  · rename_i hcontrol
    cases hs
    apply hsame <;> rw [hcontrol] <;> rfl
  · rename_i hcontrol
    cases hs
    apply hsame <;> rw [hcontrol] <;> rfl
  · cases hs

/-- The peers of the table are distinct, since each is under its own address. -/
theorem StoreInv.values_nodup {s : FpStore} (h : StoreInv s) : s.values.Nodup := by
  refine List.Nodup.map_on ?_ (List.NodupKeys.nodup s.table.nodupKeys)
  intro x hx y hy hxy
  obtain ⟨st, hst, haddr, -⟩ := h.table x.1 x.2 (AList.mem_lookup_iff.mpr hx)
  obtain ⟨st', hst', haddr', -⟩ := h.table y.1 y.2 (AList.mem_lookup_iff.mpr hy)
  rw [hxy, hst'] at hst
  cases hst
  have hkey : x.1 = y.1 := haddr.symm.trans haddr'
  exact Sigma.ext hkey (heq_of_eq hxy)

theorem StoreInv.values_live {s : FpStore} (h : StoreInv s) {p : ℕ} (hp : p ∈ s.values) :
    s.Live p := by
  obtain ⟨x, hx, rfl⟩ := List.mem_map.mp hp
  obtain ⟨st, hst, -, hreleased⟩ := h.table x.1 x.2 (AList.mem_lookup_iff.mpr hx)
  exact ⟨st, hst, hreleased⟩

theorem StoreInv.dispatch {s s' : FpStore} (h : StoreInv s) (hblocked : s.blocked = false)
    {env : FpEnv} {order : List ℕ} (hs : s.dispatch env order = some s') : StoreInv s' := by
  unfold FpStore.dispatch at hs
  split at hs
  swap
  · cases hs
  rename_i d rest hcontrol htodo
  have hmem : ∀ d', d' ∈ rest → d' ∈ s.todo := by
    intro d' hd
    rw [htodo]
    exact List.mem_cons_of_mem _ hd
  have hopen : ∀ p, .request (.peerClose p) ∈ rest → s.Open p := fun p hp => h.todo p (hmem _ hp)
  have hloop : s.control.holds = [] := by rw [hcontrol]; rfl
  have hshut : s.control.isShutdown = false := by rw [hcontrol]; rfl
  -- what is passed over or starts a loop keeps the rest of the iteration
  have hdrop : d ≠ .request .engineClose ∨ s.quit = true →
      (s.quit = true ∨ s.control.isShutdown = true ∨ .request .engineClose ∈ rest) ∨
        ∀ p, .peerClose p ∈ s.queue → s.Open p := by
    intro hd
    rcases h.queue with (hq | hq | hq) | hq
    · exact .inl (.inl hq)
    · exact .inl (.inr (.inl hq))
    · rw [htodo] at hq
      rcases List.mem_cons.mp hq with hq | hq
      · rcases hd with hd | hd
        · exact absurd hq.symm hd
        · exact .inl (.inl hd)
      · exact .inl (.inr (.inr hq))
    · exact .inr hq
  have hrest : d ≠ .request .engineClose ∨ s.quit = true → StoreInv { s with todo := rest } :=
    fun hd => ⟨h.fault, h.released, h.table, h.holds, h.nodup, h.finalizing, hopen, hdrop hd,
      h.shutdown⟩
  simp only at hs
  split at hs
  · split at hs
    · cases hs
      exact hrest (.inl (by simp))
    · cases hs
      refine (hrest (.inl (by simp))).advance ?_ ?_ List.nodup_nil rfl
      · show false = s.control.isShutdown
        rw [hshut]
      · simp [FpControl.holds, FpDrainPoint.holds]
  · split at hs
    · cases hs
      exact hrest (.inl (by simp))
    split at hs
    · rename_i hperm
      cases hs
      have hheld : (FpControl.tick env .next order []).holds = order := by
        simp [FpControl.holds, FpTickPoint.holds]
      refine (hrest (.inl (by simp))).goto ?_ ?_ ?_ ?_
      · show false = s.control.isShutdown
        rw [hshut]
      · intro p hp
        rw [hheld] at hp
        exact h.values_live (hperm.mem_iff.mp hp)
      · rw [hheld]
        exact hperm.nodup_iff.mpr h.values_nodup
      · intro p hp
        cases hp
    · cases hs
  · rename_i p
    cases hs
    have hp : s.Open p := h.todo p (by rw [htodo]; exact List.mem_cons_self)
    exact FpStore.touch_rule (s := { s with todo := rest }) (h.live_of_open hp)
      fun q _ => (hrest (.inl (by simp))).write p _
  · split at hs
    · rename_i hclose
      cases hs
      refine hrest (.inr ?_)
      rcases h.shutdown hclose with hb | hquit | hshut'
      · rw [hblocked] at hb
        cases hb
      · exact hquit
      · rw [hshut] at hshut'
        cases hshut'
    split at hs
    · rename_i hperm
      cases hs
      have hheld : (FpControl.finalize true .next order).holds = order := rfl
      refine ⟨h.fault, h.released, h.table, ?_, ?_, ?_, hopen, .inl (.inr (.inl rfl)),
        fun _ => .inr (.inr rfl)⟩
      · intro p hp
        exact h.values_live (hperm.mem_iff.mp hp)
      · exact hperm.nodup_iff.mpr h.values_nodup
      · intro p hp
        cases hp
    · cases hs

theorem StoreInv.poll {s s' : FpStore} (h : StoreInv s) {io tick : Bool}
    (hs : s.poll io tick = some s') : StoreInv s' := by
  unfold FpStore.poll at hs
  split at hs
  swap
  · cases hs
  rename_i hcontrol htodo
  split at hs
  swap
  · cases hs
  rename_i hquit
  cases hs
  have hqueue : ∀ p, .peerClose p ∈ s.queue → s.Open p := by
    rcases h.queue with (hq | hq | hq) | hq
    · rw [hquit.2] at hq
      cases hq
    · rw [hcontrol] at hq
      cases hq
    · rw [htodo] at hq
      cases hq
    · exact hq
  refine ⟨h.fault, h.released, h.table, h.holds, h.nodup, h.finalizing, ?_,
    .inr fun p hp => (by cases hp), h.shutdown⟩
  intro p hp
  rcases List.mem_append.mp hp with hp | hp
  · rcases List.mem_append.mp hp with hp | hp <;> split at hp <;> simp at hp
  · obtain ⟨r, hr, heq⟩ := List.mem_map.mp hp
    cases heq
    exact hqueue p hr

theorem StoreInv.start {s s' : FpStore} (h : StoreInv s) (hs : s.start = some s') :
    StoreInv s' := by
  unfold FpStore.start at hs
  split at hs
  · cases hs
  split at hs
  · cases hs
    exact ⟨h.fault, h.released, fun a p hp => by simp at hp, h.holds, h.nodup, h.finalizing,
      h.todo, h.queue, h.shutdown⟩
  · cases hs
    exact ⟨h.fault, h.released, h.table, h.holds, h.nodup, h.finalizing, h.todo, h.queue,
      h.shutdown⟩

theorem StoreInv.finish {s s' : FpStore} (h : StoreInv s) (hs : s.finish = some s') :
    StoreInv s' := by
  unfold FpStore.finish at hs
  split at hs
  swap
  · cases hs
  split at hs
  · cases hs
    exact ⟨h.fault, h.released, fun a p hp => by simp at hp, h.holds, h.nodup, h.finalizing,
      h.todo, .inr fun p hp => (by cases hp), h.shutdown⟩
  · cases hs

/-! ## Runs -/

/-- **The condition on a step.** A peer is finalized only when no close request for it
waits in the context. -/
def ClosesFirst (s : FpStore) : FpStoreEv → Prop
  | .step _ => s.NoneWaiting
  | _ => True

/-- **Step lemma.** -/
theorem StoreInv.step {hmacSha256 : Bytes → Bytes → Bytes} {engine : FillpEngine}
    {s s' : FpStore} {e : FpStoreEv} (h : StoreInv s) (hok : ClosesFirst s e)
    (hs : s.step hmacSha256 engine e = some s') : StoreInv s' := by
  unfold FpStore.step at hs
  split at hs
  · cases hs
  rename_i hruns
  rw [not_or, Bool.not_eq_true, Bool.not_eq_true] at hruns
  cases e with
  | call env c => exact h.call hs
  | callback env c =>
      simp only at hs
      split at hs
      · exact h.call hs
      · cases hs
  | start => exact h.start hs
  | poll io tick => exact h.poll hs
  | dispatch env order => exact h.dispatch hruns.2 hs
  | datagram source buf =>
      simp only at hs
      split at hs
      · rename_i hcontrol
        cases hs
        refine h.goto ?_ ?_ ?_ ?_
        · rw [hcontrol]
          rfl
        · intro p hp
          have hlook : s.table.lookup source = some p := Option.mem_toList.mp hp
          obtain ⟨st, hst, -, hreleased⟩ := h.table source p hlook
          exact ⟨st, hst, hreleased⟩
        · show ((s.table.lookup source).toList).Nodup
          cases s.table.lookup source <;> simp
        · intro p hp
          cases hp
      · cases hs
  | wouldBlock =>
      simp only at hs
      split at hs
      · rename_i hcontrol
        cases hs
        exact h.advance (by rw [hcontrol]; rfl) (by simp [FpControl.holds]) List.nodup_nil rfl
      · cases hs
  | step env => exact h.threadStep hok hs
  | ret r => exact h.callbackReturn hs
  | finish => exact h.finish hs

end HwPhoneLink.Fillp
