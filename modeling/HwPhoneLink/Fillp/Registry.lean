import HwPhoneLink.Fillp.Close
import HwPhoneLink.Fillp.Lifetime

/-!
# The table of peers

Every peer that was created is registered under its address until its
`on_closed` fires, and the callback fires once for each, as long as no peer is
registered over another one and the engine is closed by another thread once its
own runs (`PeersKept`). A peer that is registered over another one takes its
place in the table and loses it when the other one is released.
-/

namespace HwPhoneLink.Fillp

open BigEndian Transitions

/-! ## No step but the finalization closes a peer -/

def SameClosed (q q' : FillpPeer) : Prop := q'.state = .closed ↔ q.state = .closed

theorem SameClosed.of_state {q q' : FillpPeer} (h : q'.state = q.state) : SameClosed q q' := by
  rw [SameClosed, h]

theorem fpPeerRequestClose_sameClosed (env : FpEnv) (q : FillpPeer) :
    SameClosed q (fpPeerRequestClose env q) := by
  unfold fpPeerRequestClose
  split
  · exact .of_state rfl
  · rename_i h
    push Not at h
    simp [SameClosed, h.1]

theorem fpDataPlane_sameClosed (env : FpEnv) (q : FillpPeer) (buf : Bytes) :
    SameClosed q (fpDataPlane env q buf) := by
  by_cases hfin : fpTypeOf buf = some .fin
  · simp only [fpDataPlane, hfin]
    split
    · rename_i hopen
      simp [SameClosed, fpOnFin_state, hopen]
    · exact .of_state rfl
  · exact .of_state (fpDataPlane_keepsOpen env q hfin).state

theorem fpReceive_sameClosed (hmacSha256 : Bytes → Bytes → Bytes) (env : FpEnv)
    (e : FillpEngine) (q : FillpPeer) (buf : Bytes) :
    SameClosed q (fpReceive hmacSha256 env e q buf) := by
  unfold fpReceive
  split
  · split
    · exact .of_state rfl
    split
    · exact .of_state rfl
    · exact .of_state rfl
  · unfold fpHandleConnReqAck
    split
    · exact .of_state rfl
    split
    · exact .of_state rfl
    · exact .of_state rfl
  · unfold fpHandleConnConfirm
    split
    · exact .of_state rfl
    split
    · exact .of_state rfl
    rename_i hstate
    have hopen : q.state ≠ .closed := by
      intro hclosed
      exact hstate (by simp [hclosed])
    split
    · exact .of_state rfl
    split
    · simp only
      split
      · simp [SameClosed, fpPeerEstablished, hopen]
      · exact .of_state rfl
    · exact fpPeerRequestClose_sameClosed env q
  · unfold fpHandleConnConfirmAck
    split
    · exact .of_state rfl
    rename_i hstate
    split
    · exact .of_state rfl
    · push Not at hstate
      simp [SameClosed, fpPeerEstablished, hstate.1]
  · exact fpDataPlane_sameClosed env q buf
  · exact .of_state rfl

theorem fpTickPeer_sameClosed (env : FpEnv) (localAddr : Bytes) {q : FillpPeer}
    (h : q.state = .pending) : SameClosed q (fpTickPeer env localAddr none q).1 := by
  unfold fpTickPeer
  rw [h]
  simp only
  split
  · exact fpPeerRequestClose_sameClosed env q
  split
  · split
    · exact .of_state h.symm
    · exact .of_state h.symm
  · exact .of_state rfl

theorem fpOnPkt_sameClosed (env : FpEnv) (q : FillpPeer) {buf : Bytes} {h : FpHead}
    {payload : Bytes} (hdata : fpDataOf buf = some (h, payload)) :
    SameClosed q (fpOnPkt env q h payload) := by
  have hkeep := (fpOnData_keepsOpen env q buf).state
  rw [fpOnData, hdata] at hkeep
  exact .of_state hkeep

theorem fpPumpTransmit_sameClosed (env : FpEnv) (q : FillpPeer) :
    SameClosed q (fpPumpTxComplete (fpPumpTransmit env q)) := by
  apply SameClosed.of_state
  rw [(fpPumpTxComplete_keepsOpen _).state, fpPumpTransmit,
    (fpPacketize_keepsOpen env fpSendBudget _).state, (fpPumpStall_keepsOpen env q).state]

theorem fpPumpReplyFin_sameClosed (env : FpEnv) (q : FillpPeer) :
    SameClosed q (fpPumpReplyFin (fpMaybePack env q)) := by
  have hreply : ∀ q' : FillpPeer, (fpPumpReplyFin q').state = q'.state := by
    intro q'
    unfold fpPumpReplyFin
    split <;> rfl
  apply SameClosed.of_state
  rw [hreply, (fpMaybePack_keepsOpen env q).state]

/-! ## The invariant -/

/-- Every peer has been released. -/
def FpStore.NoneLeft (s : FpStore) : Prop :=
  ∀ p st, s.status p = some st → st.released = true

/-- The callback of every peer has fired. -/
def FpStore.NoneOpen (s : FpStore) : Prop :=
  ∀ p st, s.status p = some st → 0 < st.onClosed

structure RegInv (s : FpStore) : Prop where
  state : ∀ (p : ℕ) (c : FpCell), s.cells[p]? = some c →
    (c.peer.state = .closed ↔ 0 < c.status.onClosed)
  registered : ∀ p st, s.status p = some st → st.released = false →
    s.table.lookup st.addr = some p
  once : ∀ p st, s.status p = some st → st.onClosed ≤ 1
  released : ∀ p st, s.status p = some st → st.released = true → 0 < st.onClosed
  pending : ∀ p st, s.status p = some st → st.released = false → 0 < st.onClosed →
    p ∈ s.control.finalizing
  finalizing : ∀ p ∈ s.control.finalizing, ∃ st, s.status p = some st ∧ 0 < st.onClosed
  -- the shutdown reaches every peer, and nothing comes after it
  shutdown : s.control.isShutdown = true → ∀ p st, s.status p = some st → st.released = false →
    p ∈ s.control.holds
  quit : s.quit = true → s.control = .loop ∧ s.NoneLeft
  closing : s.control.isShutdown = true ∨ s.quit = true → s.closeInProgress = true
  request : .engineClose ∈ s.queue ∨ .request .engineClose ∈ s.todo ∨ s.closeInProgress = true →
    s.closeRequested = true
  -- the thread before its loop and after it
  idle : s.threadStarted = false → s.control = .loop ∧ s.todo = []
  ended : s.closeRequested = true → s.threadStarted = false → s.NoneLeft
  done : s.threadDone = true → s.closeRequested = true ∧ s.threadStarted = false
  -- a thread that waits for its own lock leaves no peer behind
  blocked : s.blocked = true → s.NoneOpen

theorem RegInv.fault {s : FpStore} (h : RegInv s) : RegInv { s with fault := true } :=
  ⟨h.state, h.registered, h.once, h.released, h.pending, h.finalizing, h.shutdown, h.quit,
    h.closing, h.request, h.idle, h.ended, h.done, h.blocked⟩

theorem RegInv.touch {s : FpStore} {p : ℕ} {k : FillpPeer → FpStore} (h : RegInv s)
    (hk : ∀ q, s.live p = some q → RegInv (k q)) : RegInv (s.touch p k) := by
  unfold FpStore.touch
  split
  · exact h.fault
  · rename_i q hq
    exact hk q hq

theorem FpStore.live_cell {s : FpStore} {p : ℕ} {q : FillpPeer} (h : s.live p = some q) :
    ∃ c, s.cells[p]? = some c ∧ c.status.released = false ∧ c.peer = q := by
  unfold live at h
  split at h
  · cases h
  rename_i c hc
  split at h
  · cases h
  · rename_i hreleased
    cases h
    exact ⟨c, hc, by simpa using hreleased, rfl⟩

/-- A write that does not close the peer. -/
theorem RegInv.write {s : FpStore} (h : RegInv s) {p : ℕ} {q q' : FillpPeer}
    (hlive : s.live p = some q) (hsame : SameClosed q q') : RegInv (s.write p q') := by
  have hstatus := fun r => s.write_status p r q'
  refine ⟨?_, ?_, ?_, ?_, ?_, ?_, ?_, ?_, h.closing, h.request, h.idle, ?_, h.done, ?_⟩
  · intro r c hc
    rw [show (s.write p q').cells = s.cells.modify p (fun c => { c with peer := q' }) from rfl,
      List.getElem?_modify] at hc
    obtain ⟨c₀, hc₀, hc⟩ := Option.map_eq_some_iff.mp hc
    by_cases hr : p = r
    · subst hr
      obtain ⟨c₁, hc₁, -, rfl⟩ := FpStore.live_cell hlive
      rw [hc₁] at hc₀
      cases hc₀
      rw [if_pos rfl] at hc
      cases hc
      exact hsame.trans (h.state p _ hc₁)
    · rw [if_neg hr] at hc
      cases hc
      exact h.state r _ hc₀
  · exact fun r st hst => h.registered r st (hstatus r ▸ hst)
  · exact fun r st hst => h.once r st (hstatus r ▸ hst)
  · exact fun r st hst => h.released r st (hstatus r ▸ hst)
  · exact fun r st hst => h.pending r st (hstatus r ▸ hst)
  · intro r hr
    rw [hstatus]
    exact h.finalizing r hr
  · exact fun hs r st hst => h.shutdown hs r st (hstatus r ▸ hst)
  · intro hq
    exact ⟨(h.quit hq).1, fun r st hst => (h.quit hq).2 r st (hstatus r ▸ hst)⟩
  · exact fun hc ht r st hst => h.ended hc ht r st (hstatus r ▸ hst)
  · exact fun hb r st hst => h.blocked hb r st (hstatus r ▸ hst)

/-- The engine thread moves on, outside a shutdown. -/
theorem RegInv.goto {s : FpStore} (h : RegInv s) {control : FpControl}
    (hstarted : s.threadStarted = true) (hquit : s.quit = false)
    (hpending : ∀ p ∈ s.control.finalizing, p ∈ control.finalizing)
    (hfinalizing : ∀ p ∈ control.finalizing, p ∈ s.control.finalizing)
    (hshutdown : control.isShutdown = true → s.control.isShutdown = true ∧
      ∀ p ∈ s.control.holds, p ∈ control.holds) : RegInv (s.goto control) := by
  refine ⟨h.state, h.registered, h.once, h.released, ?_, ?_, ?_, ?_, ?_, h.request, ?_, h.ended,
    h.done, h.blocked⟩
  · exact fun p st hst hr hpos => hpending p (h.pending p st hst hr hpos)
  · exact fun p hp => h.finalizing p (hfinalizing p hp)
  · intro hs p st hst hr
    obtain ⟨hold, hall⟩ := hshutdown hs
    exact hall p (h.shutdown hold p st hst hr)
  · intro hq
    have hq : s.quit = true := hq
    rw [hquit] at hq
    cases hq
  · rintro (hs | hq)
    · exact h.closing (.inl (hshutdown hs).1)
    · exact h.closing (.inr hq)
  · intro ht
    have ht : s.threadStarted = false := ht
    rw [hstarted] at ht
    cases ht

/-- A new peer whose address is free, before any close. -/
theorem RegInv.create {s : FpStore} (h : RegInv s) {addr : FpAddr} {q : FillpPeer}
    (hfree : s.table.lookup addr = none) (hopen : q.state ≠ .closed) (hquit : s.quit = false)
    (hshutdown : s.control.isShutdown = false)
    (hclose : s.closeRequested = false ∨ s.threadStarted = true) (hblocked : s.blocked = false) :
    RegInv (s.create addr q) := by
  have hstatus := s.create_status addr q
  -- an old peer, or the new one
  have hold : ∀ {r st}, (s.create addr q).status r = some st →
      s.status r = some st ∨ (r = s.cells.length ∧ st = ⟨addr, false, 0⟩) := by
    intro r st hst
    rw [hstatus] at hst
    split at hst
    · rename_i hr
      cases hst
      exact .inr ⟨hr, rfl⟩
    · exact .inl hst
  refine ⟨?_, ?_, ?_, ?_, ?_, ?_, ?_, ?_, h.closing, h.request, h.idle, ?_, h.done, ?_⟩
  · intro r c hc
    have hc : (s.cells ++ [⟨q, ⟨addr, false, 0⟩⟩])[r]? = some c := hc
    rw [List.getElem?_append] at hc
    split at hc
    · exact h.state r c hc
    · rw [List.getElem?_singleton] at hc
      split at hc
      · cases hc
        simp [hopen]
      · cases hc
  · intro r st hst hr
    rcases hold hst with hst | ⟨rfl, rfl⟩
    · have hreg := h.registered r st hst hr
      have hne : st.addr ≠ addr := by
        rintro rfl
        rw [hfree] at hreg
        cases hreg
      rw [show (s.create addr q).table = s.table.insert addr s.cells.length from rfl,
        AList.lookup_insert_ne hne]
      exact hreg
    · exact AList.lookup_insert _
  · intro r st hst
    rcases hold hst with hst | ⟨rfl, rfl⟩
    · exact h.once r st hst
    · exact Nat.zero_le 1
  · intro r st hst hr
    rcases hold hst with hst | ⟨rfl, rfl⟩
    · exact h.released r st hst hr
    · cases hr
  · intro r st hst hr hpos
    rcases hold hst with hst | ⟨rfl, rfl⟩
    · exact h.pending r st hst hr hpos
    · cases hpos
  · intro r hr
    obtain ⟨st, hst, hpos⟩ := h.finalizing r hr
    refine ⟨st, ?_, hpos⟩
    rw [hstatus, if_neg (Nat.ne_of_lt (FpStore.status_lt hst)), hst]
  · intro hs
    have hs : s.control.isShutdown = true := hs
    rw [hshutdown] at hs
    cases hs
  · intro hq
    have hq : s.quit = true := hq
    rw [hquit] at hq
    cases hq
  · intro hc ht
    rcases hclose with hclose | hstarted
    · have hc : s.closeRequested = true := hc
      rw [hclose] at hc
      cases hc
    · have ht : s.threadStarted = false := ht
      rw [hstarted] at ht
      cases ht
  · intro hb
    have hb : s.blocked = true := hb
    rw [hblocked] at hb
    cases hb

/-- The context takes up or gives out sources. -/
theorem RegInv.requests {s : FpStore} (h : RegInv s) {queue : List FpRequest}
    {todo : List FpDispatch}
    (hrequest : .engineClose ∈ queue ∨ .request .engineClose ∈ todo → s.closeRequested = true)
    (hidle : s.threadStarted = false → todo = []) :
    RegInv { s with queue := queue, todo := todo } := by
  refine ⟨h.state, h.registered, h.once, h.released, h.pending, h.finalizing, h.shutdown, h.quit,
    h.closing, ?_, ?_, h.ended, h.done, h.blocked⟩
  · rintro (hq | ht | hc)
    · exact hrequest (.inl hq)
    · exact hrequest (.inr ht)
    · exact h.request (.inr (.inr hc))
  · exact fun hs => ⟨(h.idle hs).1, hidle hs⟩

/-- The thread is somewhere in a callback or a loop of its own. -/
theorem RegInv.thread {s : FpStore} (h : RegInv s) (hrun : s.control ≠ .loop) :
    s.threadStarted = true ∧ s.quit = false := by
  constructor
  · by_contra hs
    exact hrun (h.idle (by simpa using hs)).1
  · by_contra hq
    exact hrun (h.quit (by simpa using hq)).1

/-- No peer is being finalized, and no shutdown is on. -/
def FpControl.Plain (c : FpControl) : Prop := c.finalizing = [] ∧ c.isShutdown = false

theorem FpControl.drain_plain (pt : FpDrainPoint) : (FpControl.drain pt).Plain := ⟨rfl, rfl⟩

theorem FpControl.tick_plain (env : FpEnv) (pt : FpTickPoint) (rest toFinalize : List ℕ) :
    (FpControl.tick env pt rest toFinalize).Plain := ⟨rfl, rfl⟩

theorem RegInv.advance {s : FpStore} (h : RegInv s) {control : FpControl}
    (hrun : s.control ≠ .loop) (hold : s.control.Plain) (hnew : control.Plain) :
    RegInv (s.goto control) := by
  obtain ⟨hstarted, hquit⟩ := h.thread hrun
  refine h.goto hstarted hquit ?_ ?_ ?_
  · intro p hp
    rw [hold.1] at hp
    cases hp
  · intro p hp
    rw [hnew.1] at hp
    cases hp
  · intro hs
    rw [hnew.2] at hs
    cases hs

/-! ## Calls -/

theorem RegInv.peerClose {s : FpStore} (h : RegInv s) (env : FpEnv) (onThread : Bool) (p : ℕ) :
    RegInv (s.peerClose env onThread p) := by
  apply h.touch
  intro q hq
  split
  · exact h
  split
  · apply h.requests
    · rintro (hmem | hmem)
      · rcases List.mem_append.mp hmem with hmem | hmem
        · exact h.request (.inl hmem)
        · cases List.mem_singleton.mp hmem
      · exact h.request (.inr (.inl hmem))
    · exact fun hs => (h.idle hs).2
  · exact h.write hq (fpPeerRequestClose_sameClosed env q)

theorem RegInv.engineClose {s : FpStore} (h : RegInv s) {onThread : Bool}
    (hclose : s.closeRequested = true ∨ s.threadStarted = true ∨ s.NoneLeft)
    (hthread : s.closeRequested = true ∨ onThread = false ∨ s.NoneOpen) :
    RegInv (s.engineClose onThread) := by
  unfold FpStore.engineClose
  split
  · exact h
  rename_i hno
  rw [not_or, Bool.not_eq_true] at hno
  have hleft : s.threadStarted = true ∨ s.NoneLeft := hclose.resolve_left (by simp [hno.1])
  have hopen : onThread = false ∨ s.NoneOpen := hthread.resolve_left (by simp [hno.1])
  simp only
  split
  · rename_i hstarted
    have hrun : ∀ {P : Prop}, s.threadStarted = false → P := by
      intro P hs
      rw [hstarted] at hs
      cases hs
    split
    · rename_i hon
      refine ⟨h.state, h.registered, h.once, h.released, h.pending, h.finalizing, h.shutdown,
        h.quit, fun _ => rfl, fun _ => rfl, h.idle, fun _ => hrun, ?_, fun _ => ?_⟩
      · exact fun hd => ⟨rfl, (h.done hd).2⟩
      · exact hopen.resolve_left (by simp [hon])
    · refine ⟨h.state, h.registered, h.once, h.released, h.pending, h.finalizing, h.shutdown,
        h.quit, h.closing, fun _ => rfl, h.idle, fun _ => hrun, ?_, h.blocked⟩
      exact fun hd => ⟨rfl, (h.done hd).2⟩
  · rename_i hstarted
    refine ⟨h.state, h.registered, h.once, h.released, h.pending, h.finalizing, h.shutdown,
      h.quit, h.closing, fun _ => rfl, h.idle, ?_, ?_, h.blocked⟩
    · exact fun _ _ => hleft.resolve_left hstarted
    · exact fun hd => ⟨rfl, (h.done hd).2⟩

theorem RegInv.connect {s : FpStore} (h : RegInv s) (env : FpEnv) {addr : FpAddr} (sendOk : Bool)
    (hfree : s.closeRequested = true ∨ s.table.lookup addr = none) (hblocked : s.blocked = false) :
    RegInv (s.connect env addr sendOk) := by
  unfold FpStore.connect
  split
  · exact h
  rename_i hno
  rw [not_or, Bool.not_eq_true] at hno
  -- an engine that is on its way down has been asked to close
  have hopen : ∀ {b : Bool}, (b = true → s.closeInProgress = true) → b = false := by
    intro b hb
    by_contra hbt
    have hreq := h.request (.inr (.inr (hb (by simpa using hbt))))
    rw [hno.1] at hreq
    cases hreq
  apply h.create
  · exact hfree.resolve_left (by simp [hno.1])
  · split
    · show FpState.pending ≠ FpState.closed
      simp
    · show FpState.pending ≠ FpState.closed
      simp
  · exact hopen fun hq => h.closing (.inr hq)
  · exact hopen fun hs => h.closing (.inl hs)
  · exact .inl hno.1
  · exact hblocked

section Thread

variable {hmacSha256 : Bytes → Bytes → Bytes} {engine : FillpEngine} {env : FpEnv} {s : FpStore}

/-- **The condition on a step.** A peer is created only under an address that the table
does not hold. The engine is closed by another thread, and only once its own runs or while
no peer is left. -/
def PeersKept (hmacSha256 : Bytes → Bytes → Bytes) (engine : FillpEngine) (s : FpStore) :
    FpStoreEv → Prop
  | .call _ (.connect addr _) => s.closeRequested = true ∨ s.table.lookup addr = none
  | .callback _ (.connect addr _) => s.closeRequested = true ∨ s.table.lookup addr = none
  | .call _ .engineClose => s.closeRequested = true ∨ s.threadStarted = true ∨ s.NoneLeft
  | .callback _ .engineClose => s.closeRequested = true ∨ s.NoneOpen
  | .step env => ∀ source buf, s.control = .drain (.handle source none buf) →
      fpAdmit hmacSha256 env engine source buf ≠ none → s.table.lookup source = none
  | _ => True

theorem RegInv.call (h : RegInv s) (hblocked : s.blocked = false) {c : FpCall} {s' : FpStore}
    (hok : PeersKept hmacSha256 engine s (.call env c))
    (hs : s.call env false c = some s') : RegInv s' := by
  cases c with
  | peerClose p =>
      simp only [FpStore.call] at hs
      split at hs
      · cases hs
        exact h.peerClose env false p
      · cases hs
  | engineClose =>
      cases hs
      exact h.engineClose hok (.inr (.inl rfl))
  | connect addr sendOk =>
      cases hs
      exact h.connect env sendOk hok hblocked
  | send p data => simp [FpStore.call] at hs

theorem RegInv.callback (h : RegInv s) (hblocked : s.blocked = false)
    (hin : s.control.inCallback = true) {c : FpCall} {s' : FpStore}
    (hok : PeersKept hmacSha256 engine s (.callback env c))
    (hs : s.call env true c = some s') : RegInv s' := by
  cases c with
  | peerClose p =>
      simp only [FpStore.call] at hs
      split at hs
      · cases hs
        exact h.peerClose env true p
      · cases hs
  | engineClose =>
      cases hs
      have hrun : s.control ≠ .loop := by
        intro hloop
        rw [hloop] at hin
        cases hin
      apply h.engineClose
      · exact .inr (.inl (h.thread hrun).1)
      · exact hok.imp_right .inr
  | connect addr sendOk =>
      cases hs
      exact h.connect env sendOk hok hblocked
  | send p data =>
      simp only [FpStore.call] at hs
      split at hs
      · cases hs
        apply h.touch
        intro q hq
        exact h.write hq (.of_state (fillpPeerSend_state q data))
      · cases hs

/-! ## The engine thread -/

theorem fpAdmit_state {source : FpAddr} {buf : Bytes} {q : FillpPeer}
    (h : fpAdmit hmacSha256 env engine source buf = some q) : q.state = .pending := by
  unfold fpAdmit at h
  split at h
  · obtain ⟨r, -, rfl⟩ := Option.map_eq_some_iff.mp h
    rfl
  · cases h

theorem RegInv.handle (h : RegInv s) (hblocked : s.blocked = false) {source : FpAddr}
    {found : Option ℕ} {buf : Bytes} (hcontrol : s.control = .drain (.handle source found buf))
    (hok : PeersKept hmacSha256 engine s (.step env)) :
    RegInv (s.handle hmacSha256 engine env source found buf) := by
  have hrun : s.control ≠ .loop := by simp [hcontrol]
  have hplain : s.control.Plain := hcontrol ▸ FpControl.drain_plain _
  have hwrite : ∀ {p q q'} (pt : FpDrainPoint), s.live p = some q → SameClosed q q' →
      RegInv ((s.write p q').goto (.drain pt)) := by
    intro p q q' pt hq hsame
    exact (h.write hq hsame).advance hrun hplain (FpControl.drain_plain pt)
  unfold FpStore.handle
  cases found with
  | none =>
      simp only
      split
      · exact h.advance hrun hplain (FpControl.drain_plain _)
      · rename_i q hq
        have hcreate : RegInv (s.create source q) := by
          apply h.create
          · exact hok source buf hcontrol (by simp [hq])
          · simp [fpAdmit_state hq]
          · exact (h.thread hrun).2
          · exact hplain.2
          · exact .inr (h.thread hrun).1
          · exact hblocked
        exact hcreate.advance hrun hplain (FpControl.drain_plain _)
  | some p =>
      apply h.touch
      intro q hq
      split
      · split
        · split
          · exact h.advance hrun hplain (FpControl.drain_plain _)
          · rename_i head payload hdata
            unfold FpStore.onData
            split
            · exact hwrite _ hq (.of_state rfl)
            · exact hwrite _ hq (fpOnPkt_sameClosed env q hdata)
        · exact h.advance hrun hplain (FpControl.drain_plain _)
      · exact hwrite _ hq (fpReceive_sameClosed hmacSha256 env engine q buf)

theorem RegInv.flush (h : RegInv s) {p : ℕ} (hcontrol : s.control = .drain (.flush p)) :
    RegInv (s.flush env p) := by
  have hrun : s.control ≠ .loop := by simp [hcontrol]
  have hplain : s.control.Plain := hcontrol ▸ FpControl.drain_plain _
  apply h.touch
  intro q hq
  split
  · have hsame : SameClosed q (fpMaybePack env q) := .of_state (fpMaybePack_keepsOpen env q).state
    exact (h.write hq hsame).advance hrun hplain (FpControl.drain_plain _)
  · rename_i next _
    have hsame : SameClosed q (fpFlushOne q next) := .of_state rfl
    exact (h.write hq hsame).advance hrun hplain (FpControl.drain_plain _)

theorem RegInv.tickStep (h : RegInv s) {tickEnv : FpEnv} {pt : FpTickPoint}
    {rest toFinalize : List ℕ} (hcontrol : s.control = .tick tickEnv pt rest toFinalize) :
    RegInv (s.tickStep engine env tickEnv pt rest toFinalize) := by
  have hrun : s.control ≠ .loop := by simp [hcontrol]
  have hplain : s.control.Plain := hcontrol ▸ FpControl.tick_plain _ _ _ _
  have hwrite : ∀ {p q q'} {control : FpControl}, s.live p = some q → SameClosed q q' →
      control.Plain → RegInv ((s.write p q').goto control) := by
    intro p q q' control hq hsame hnew
    exact (h.write hq hsame).advance hrun hplain hnew
  cases pt with
  | next =>
      cases rest with
      | nil => exact h.advance hrun hplain ⟨rfl, rfl⟩
      | cons p rest =>
          apply h.touch
          intro q hq
          split
          · rename_i hstate
            exact hwrite hq (fpTickPeer_sameClosed tickEnv _ hstate) (FpControl.tick_plain _ _ _ _)
          · exact h.advance hrun hplain (FpControl.tick_plain _ _ _ _)
          · exact h.advance hrun hplain (FpControl.tick_plain _ _ _ _)
  | fill p => exact h
  | complete p => exact h
  | transmit p =>
      apply h.touch
      intro q hq
      exact hwrite hq (fpPumpTransmit_sameClosed tickEnv q) (FpControl.tick_plain _ _ _ _)
  | acknowledge p =>
      apply h.touch
      intro q hq
      exact hwrite hq (fpPumpReplyFin_sameClosed env q) (FpControl.tick_plain _ _ _ _)
  | check p =>
      apply h.touch
      intro q hq
      exact h.advance hrun hplain (FpControl.tick_plain _ _ _ _)

/-- The end of a loop that finalizes peers. -/
theorem RegInv.finalizeEnd (h : RegInv s) {shutdown : Bool}
    (hcontrol : s.control = .finalize shutdown .next []) :
    RegInv { s with quit := s.quit || shutdown, control := .loop } := by
  have hrun : s.control ≠ .loop := by simp [hcontrol]
  obtain ⟨hstarted, hquit⟩ := h.thread hrun
  have hshutdown : s.control.isShutdown = shutdown := by rw [hcontrol]; rfl
  have hidle : ∀ {P : Prop}, s.threadStarted = false → P := by
    intro P hs
    rw [hstarted] at hs
    cases hs
  have hend : (s.quit || shutdown) = true → s.control.isShutdown = true := by
    rw [hquit, hshutdown]
    exact id
  refine ⟨h.state, h.registered, h.once, h.released, ?_, ?_, ?_, ?_, ?_, h.request, hidle,
    fun _ => hidle, h.done, h.blocked⟩
  · intro p st hst hr hpos
    have hp := h.pending p st hst hr hpos
    rw [hcontrol] at hp
    cases hp
  · intro p hp
    cases hp
  · intro hs
    cases hs
  · intro hq
    refine ⟨rfl, fun p st hst => ?_⟩
    by_contra hr
    have hp := h.shutdown (hend hq) p st hst (by simpa using hr)
    rw [hcontrol] at hp
    cases hp
  · rintro (hs | hq)
    · cases hs
    · exact h.closing (.inl (hend hq))

theorem FpStore.fireClosed_cells (p r : ℕ) (q : FillpPeer) :
    (s.fireClosed p q).cells[r]? = if p = r then
      (s.cells[r]?).map fun c => ⟨fpFinalized q, { c.status with onClosed := c.status.onClosed + 1 }⟩
    else s.cells[r]? := by
  unfold fireClosed setStatus write
  simp only [List.getElem?_modify]
  by_cases h : p = r
  · subst h
    cases s.cells[p]? <;> simp
  · simp [h]

/-- The callback of a peer fires when it has not fired before. -/
theorem RegInv.fireClosed (h : RegInv s) (hblocked : s.blocked = false) {shutdown : Bool} {p : ℕ}
    {rest : List ℕ} (hcontrol : s.control = .finalize shutdown .next (p :: rest)) {q : FillpPeer}
    (hq : s.live p = some q) (hopen : q.state ≠ .closed) :
    RegInv ((s.fireClosed p q).goto (.finalize shutdown (.closed p) rest)) := by
  have hrun : s.control ≠ .loop := by simp [hcontrol]
  obtain ⟨hstarted, hquit⟩ := h.thread hrun
  have hidle : ∀ {P : Prop}, s.threadStarted = false → P := by
    intro P hs
    rw [hstarted] at hs
    cases hs
  obtain ⟨c, hc, hreleased, hpeer⟩ := FpStore.live_cell hq
  have hzero : c.status.onClosed = 0 := by
    have hstate := h.state p c hc
    rw [hpeer] at hstate
    by_contra hpos
    exact hopen (hstate.mpr (by omega))
  have hstp : s.status p = some c.status := by rw [FpStore.status, hc]; rfl
  have hshutdown : s.control.isShutdown = shutdown := by rw [hcontrol]; rfl
  -- the peer, or one that has not changed
  have hsplit : ∀ {r st}, (s.fireClosed p q).status r = some st →
      (r = p ∧ st = { c.status with onClosed := 1 }) ∨ (r ≠ p ∧ s.status r = some st) := by
    intro r st hst
    rw [FpStore.fireClosed_status] at hst
    split at hst
    · rename_i hr
      subst hr
      rw [hstp] at hst
      cases hst
      exact .inl ⟨rfl, by simp [hzero]⟩
    · rename_i hr
      exact .inr ⟨Ne.symm hr, hst⟩
  refine ⟨?_, ?_, ?_, ?_, ?_, ?_, ?_, ?_, ?_, h.request, hidle, fun _ => hidle, h.done, ?_⟩
  · intro r c' hc'
    have hc' : (s.fireClosed p q).cells[r]? = some c' := hc'
    rw [FpStore.fireClosed_cells] at hc'
    split at hc'
    · obtain ⟨c₀, -, rfl⟩ := Option.map_eq_some_iff.mp hc'
      simp [fpFinalized]
    · exact h.state r c' hc'
  · intro r st hst hr
    rcases hsplit hst with ⟨rfl, rfl⟩ | ⟨-, hst⟩
    · exact h.registered r c.status hstp hreleased
    · exact h.registered r st hst hr
  · intro r st hst
    rcases hsplit hst with ⟨rfl, rfl⟩ | ⟨-, hst⟩
    · exact Nat.le_refl 1
    · exact h.once r st hst
  · intro r st hst hr
    rcases hsplit hst with ⟨rfl, rfl⟩ | ⟨-, hst⟩
    · exact Nat.one_pos
    · exact h.released r st hst hr
  · intro r st hst hr hpos
    rcases hsplit hst with ⟨rfl, rfl⟩ | ⟨-, hst⟩
    · exact List.mem_singleton_self r
    · have hp := h.pending r st hst hr hpos
      rw [hcontrol] at hp
      cases hp
  · intro r hr
    cases List.mem_singleton.mp hr
    refine ⟨{ c.status with onClosed := c.status.onClosed + 1 }, ?_, Nat.succ_pos _⟩
    show (s.fireClosed p q).status p = _
    rw [FpStore.fireClosed_status, if_pos rfl, hstp]
    rfl
  · intro hs r st hst hr
    have hheld : ∀ r, r ∈ s.control.holds → r ∈ p :: rest := by
      intro r hr
      rw [hcontrol] at hr
      exact hr
    rcases hsplit hst with ⟨rfl, rfl⟩ | ⟨-, hst⟩
    · exact List.mem_cons_self
    · exact hheld r (h.shutdown (hshutdown.trans hs) r st hst hr)
  · intro hq'
    have hq' : s.quit = true := hq'
    rw [hquit] at hq'
    cases hq'
  · rintro (hs | hq')
    · exact h.closing (.inl (hshutdown.trans hs))
    · exact h.closing (.inr hq')
  · intro hb
    have hb : s.blocked = true := hb
    rw [hblocked] at hb
    cases hb

/-- The release of a peer takes its own entry out of the table. -/
theorem RegInv.release (h : RegInv s) {shutdown : Bool} {p : ℕ} {rest : List ℕ}
    (hcontrol : s.control = .finalize shutdown (.release p) rest) {q : FillpPeer}
    (hq : s.live p = some q) :
    RegInv ((s.release p).goto (.finalize shutdown .next rest)) := by
  have hrun : s.control ≠ .loop := by simp [hcontrol]
  obtain ⟨hstarted, hquit⟩ := h.thread hrun
  have hidle : ∀ {P : Prop}, s.threadStarted = false → P := by
    intro P hs
    rw [hstarted] at hs
    cases hs
  obtain ⟨c, hc, hreleased, -⟩ := FpStore.live_cell hq
  have hstp : s.status p = some c.status := by rw [FpStore.status, hc]; rfl
  have hpos : 0 < c.status.onClosed := by
    obtain ⟨st, hst, hpos⟩ := h.finalizing p (by rw [hcontrol]; exact List.mem_singleton_self p)
    rw [hstp] at hst
    cases hst
    exact hpos
  have hentry := h.registered p c.status hstp hreleased
  have hshutdown : s.control.isShutdown = shutdown := by rw [hcontrol]; rfl
  -- the peer, or one that has not changed
  have hsplit : ∀ {r st}, (s.release p).status r = some st →
      (r = p ∧ st = { c.status with released := true }) ∨ (r ≠ p ∧ s.status r = some st) := by
    intro r st hst
    rw [FpStore.release_status] at hst
    split at hst
    · rename_i hr
      subst hr
      rw [hstp] at hst
      cases hst
      exact .inl ⟨rfl, rfl⟩
    · rename_i hr
      exact .inr ⟨Ne.symm hr, hst⟩
  rw [FpStore.release_control]
  refine ⟨?_, ?_, ?_, ?_, ?_, ?_, ?_, ?_, ?_, h.request, hidle, fun _ => hidle, h.done, ?_⟩
  · intro r c' hc'
    have hc' : (s.release p).cells[r]? = some c' := hc'
    have hcells : (s.release p).cells =
        s.cells.modify p fun c => { c with status := { c.status with released := true } } := by
      rw [FpStore.release, hc]
      rfl
    rw [hcells, List.getElem?_modify] at hc'
    obtain ⟨c₀, hc₀, hc'⟩ := Option.map_eq_some_iff.mp hc'
    have hstate := h.state r c₀ hc₀
    split at hc'
    · cases hc'
      exact hstate
    · cases hc'
      exact hstate
  · intro r st hst hr
    rcases hsplit hst with ⟨rfl, rfl⟩ | ⟨hne, hst⟩
    · cases hr
    · have hreg := h.registered r st hst hr
      have haddr : st.addr ≠ c.status.addr := by
        intro heq
        rw [heq, hentry] at hreg
        cases hreg
        exact hne rfl
      show (s.release p).table.lookup st.addr = some r
      rw [FpStore.release_table hstp, AList.lookup_erase_ne haddr]
      exact hreg
  · intro r st hst
    rcases hsplit hst with ⟨rfl, rfl⟩ | ⟨-, hst⟩
    · exact h.once r c.status hstp
    · exact h.once r st hst
  · intro r st hst hr
    rcases hsplit hst with ⟨rfl, rfl⟩ | ⟨-, hst⟩
    · exact hpos
    · exact h.released r st hst hr
  · intro r st hst hr hpos
    rcases hsplit hst with ⟨rfl, rfl⟩ | ⟨hne, hst⟩
    · cases hr
    · have hp := h.pending r st hst hr hpos
      rw [hcontrol] at hp
      exact absurd (List.mem_singleton.mp hp) hne
  · intro r hr
    cases hr
  · intro hs r st hst hr
    have hheld : ∀ r, r ∈ s.control.holds → r ∈ p :: rest := by
      intro r hr
      rw [hcontrol] at hr
      exact hr
    rcases hsplit hst with ⟨rfl, rfl⟩ | ⟨hne, hst⟩
    · cases hr
    · have hp := hheld r (h.shutdown (hshutdown.trans hs) r st hst hr)
      exact (List.mem_cons.mp hp).resolve_left hne
  · intro hq'
    have hq' : s.quit = true := hq'
    rw [hquit] at hq'
    cases hq'
  · rintro (hs | hq')
    · exact h.closing (.inl (hshutdown.trans hs))
    · exact h.closing (.inr hq')
  · intro hb r st hst
    rcases hsplit hst with ⟨rfl, rfl⟩ | ⟨-, hst⟩
    · exact hpos
    · exact h.blocked hb r st hst

theorem RegInv.finalizeStep (h : RegInv s) (hblocked : s.blocked = false) {shutdown : Bool}
    {pt : FpFinalizePoint} {rest : List ℕ} (hcontrol : s.control = .finalize shutdown pt rest) :
    RegInv (s.finalizeStep shutdown pt rest) := by
  cases pt with
  | closed p => exact h
  | release p =>
      apply h.touch
      intro q hq
      exact h.release hcontrol hq
  | next =>
      cases rest with
      | nil => exact h.finalizeEnd hcontrol
      | cons p rest =>
          apply h.touch
          intro q hq
          split
          swap
          · rename_i hopen
            exact h.fireClosed hblocked hcontrol hq hopen
          -- a peer that has been finalized before is gone, so this one is not met
          rename_i hclosed
          exfalso
          obtain ⟨c, hc, hreleased, rfl⟩ := FpStore.live_cell hq
          have hstp : s.status p = some c.status := by rw [FpStore.status, hc]; rfl
          have hp := h.pending p c.status hstp hreleased ((h.state p c hc).mp hclosed)
          rw [hcontrol] at hp
          cases hp

theorem RegInv.threadStep (h : RegInv s) (hblocked : s.blocked = false)
    (hok : PeersKept hmacSha256 engine s (.step env)) {s' : FpStore}
    (hs : s.threadStep hmacSha256 engine env = some s') : RegInv s' := by
  unfold FpStore.threadStep at hs
  split at hs
  · cases hs
  split at hs
  · cases hs
  · cases hs
  · rename_i hcontrol
    cases hs
    exact h.handle hblocked hcontrol hok
  · rename_i hcontrol
    cases hs
    exact h.flush hcontrol
  · cases hs
  · rename_i hcontrol
    cases hs
    exact h.tickStep hcontrol
  · rename_i hcontrol
    cases hs
    exact h.finalizeStep hblocked hcontrol

end Thread

theorem RegInv.callbackReturn {s s' : FpStore} (h : RegInv s) {r : ℤ}
    (hs : s.callbackReturn r = some s') : RegInv s' := by
  unfold FpStore.callbackReturn at hs
  split at hs
  · rename_i hcontrol
    cases hs
    exact h.advance (by simp [hcontrol]) (hcontrol ▸ FpControl.drain_plain _)
      (FpControl.drain_plain _)
  · rename_i hcontrol
    cases hs
    exact h.advance (by simp [hcontrol]) (hcontrol ▸ FpControl.drain_plain _)
      (FpControl.drain_plain _)
  · rename_i hcontrol
    cases hs
    apply h.touch
    intro q hq
    refine RegInv.advance (h.write hq ?_) (by simp [FpStore.write, hcontrol])
      (hcontrol ▸ FpControl.tick_plain _ _ _ _) (FpControl.tick_plain _ _ _ _)
    split
    · exact .of_state rfl
    · exact .of_state rfl
  · rename_i hcontrol
    cases hs
    exact h.advance (by simp [hcontrol]) (hcontrol ▸ FpControl.tick_plain _ _ _ _)
      (FpControl.tick_plain _ _ _ _)
  · rename_i hcontrol
    cases hs
    obtain ⟨hstarted, hquit⟩ := h.thread (by simp [hcontrol])
    refine h.goto hstarted hquit ?_ ?_ ?_
    · rw [hcontrol]
      exact fun p hp => hp
    · rw [hcontrol]
      exact fun p hp => hp
    · rw [hcontrol]
      exact fun hs => ⟨hs, fun p hp => hp⟩
  · cases hs

/-! ## The context -/

theorem RegInv.dispatch {s s' : FpStore} (h : RegInv s) {env : FpEnv} {order : List ℕ}
    (hs : s.dispatch env order = some s') : RegInv s' := by
  unfold FpStore.dispatch at hs
  split at hs
  swap
  · cases hs
  rename_i d rest hcontrol htodo
  have hstarted : s.threadStarted = true := by
    by_contra hno
    have hempty := (h.idle (by simpa using hno)).2
    rw [htodo] at hempty
    cases hempty
  have hidle : ∀ {P : Prop}, s.threadStarted = false → P := by
    intro P hno
    rw [hstarted] at hno
    cases hno
  have hmem : ∀ d', d' ∈ rest → d' ∈ s.todo := by
    intro d' hd
    rw [htodo]
    exact List.mem_cons_of_mem _ hd
  have hrest : RegInv { s with todo := rest } := by
    refine RegInv.requests h ?_ hidle
    rintro (hq | ht)
    · exact h.request (.inl hq)
    · exact h.request (.inr (.inl (hmem _ ht)))
  -- a loop starts only while no shutdown has been
  have hrunning : s.closeInProgress = false → s.quit = false := by
    intro hclose
    by_contra hq
    have hyes := h.closing (.inr (by simpa using hq))
    rw [hclose] at hyes
    cases hyes
  have hloop : ∀ {control : FpControl}, s.closeInProgress = false → control.Plain →
      RegInv (({ s with todo := rest } : FpStore).goto control) := by
    intro control hclose hplain
    refine hrest.goto hstarted (hrunning hclose) ?_ ?_ ?_
    · intro p hp
      have hp : p ∈ s.control.finalizing := hp
      rw [hcontrol] at hp
      cases hp
    · intro p hp
      rw [hplain.1] at hp
      cases hp
    · intro hsh
      rw [hplain.2] at hsh
      cases hsh
  simp only at hs
  split at hs
  · split at hs
    · cases hs
      exact hrest
    · rename_i hclose
      cases hs
      exact hloop (by simpa using hclose) (FpControl.drain_plain _)
  · split at hs
    · cases hs
      exact hrest
    rename_i hclose
    split at hs
    · cases hs
      exact hloop (by simpa using hclose) (FpControl.tick_plain _ _ _ _)
    · cases hs
  · cases hs
    apply hrest.touch
    intro q hq
    exact hrest.write hq (fpPeerRequestClose_sameClosed env q)
  · split at hs
    · cases hs
      exact hrest
    rename_i hclose
    split at hs
    · rename_i hperm
      cases hs
      have hreq : s.closeRequested = true := by
        apply h.request
        right
        left
        rw [htodo]
        exact List.mem_cons_self
      refine ⟨h.state, h.registered, h.once, h.released, ?_, ?_, ?_, ?_, fun _ => rfl,
        fun _ => hreq, hidle, fun _ => hidle, h.done, h.blocked⟩
      · intro p st hst hr hpos
        have hp := h.pending p st hst hr hpos
        rw [hcontrol] at hp
        cases hp
      · intro p hp
        cases hp
      · intro _ p st hst hr
        have hentry := h.registered p st hst hr
        have hvalue : p ∈ s.values :=
          List.mem_map.mpr ⟨⟨st.addr, p⟩, AList.mem_lookup_iff.mp hentry, rfl⟩
        exact hperm.mem_iff.mpr hvalue
      · intro hq
        have hq : s.quit = true := hq
        rw [hrunning (by simpa using hclose)] at hq
        cases hq
    · cases hs

theorem RegInv.poll {s s' : FpStore} (h : RegInv s) {io tick : Bool}
    (hs : s.poll io tick = some s') : RegInv s' := by
  unfold FpStore.poll at hs
  split at hs
  swap
  · cases hs
  split at hs
  swap
  · cases hs
  rename_i hstarted
  cases hs
  apply h.requests
  · rintro (hq | ht)
    · cases hq
    · rcases List.mem_append.mp ht with ht | ht
      · rcases List.mem_append.mp ht with ht | ht <;> split at ht <;> simp at ht
      · obtain ⟨r, hr, heq⟩ := List.mem_map.mp ht
        cases heq
        exact h.request (.inl hr)
  · intro hno
    rw [hstarted.1] at hno
    cases hno

theorem RegInv.start {s s' : FpStore} (h : RegInv s) (hs : s.start = some s') : RegInv s' := by
  unfold FpStore.start at hs
  split at hs
  · cases hs
  rename_i hnew
  rw [not_or, Bool.not_eq_true, Bool.not_eq_true] at hnew
  split at hs
  · rename_i hclose
    cases hs
    have hnone := h.ended hclose hnew.1
    refine ⟨h.state, ?_, h.once, h.released, h.pending, h.finalizing, h.shutdown, h.quit,
      h.closing, h.request, h.idle, h.ended, fun _ => ⟨hclose, hnew.1⟩, h.blocked⟩
    intro p st hst hr
    have hyes := hnone p st hst
    rw [hr] at hyes
    cases hyes
  · rename_i hclose
    cases hs
    refine ⟨h.state, h.registered, h.once, h.released, h.pending, h.finalizing, h.shutdown,
      h.quit, h.closing, h.request, ?_, ?_, ?_, h.blocked⟩
    · intro hno
      cases hno
    · intro hreq
      exact absurd hreq hclose
    · intro hdone
      have hdone : s.threadDone = true := hdone
      rw [hnew.2] at hdone
      cases hdone

theorem RegInv.finish {s s' : FpStore} (h : RegInv s) (hs : s.finish = some s') : RegInv s' := by
  unfold FpStore.finish at hs
  split at hs
  swap
  · cases hs
  rename_i hcontrol htodo
  split at hs
  swap
  · cases hs
  rename_i hend
  cases hs
  have hnone := (h.quit hend.2).2
  have hclosing := h.closing (.inr hend.2)
  have hreq := h.request (.inr (.inr hclosing))
  refine ⟨h.state, ?_, h.once, h.released, h.pending, h.finalizing, h.shutdown, h.quit, h.closing,
    fun _ => hreq, fun _ => ⟨hcontrol, htodo⟩, fun _ _ => hnone, fun _ => ⟨hreq, rfl⟩, h.blocked⟩
  intro p st hst hr
  have hyes := hnone p st hst
  rw [hr] at hyes
  cases hyes

/-! ## Runs -/

/-- **Step lemma.** -/
theorem RegInv.step {hmacSha256 : Bytes → Bytes → Bytes} {engine : FillpEngine}
    {s s' : FpStore} {e : FpStoreEv} (h : RegInv s) (hok : PeersKept hmacSha256 engine s e)
    (hs : s.step hmacSha256 engine e = some s') : RegInv s' := by
  unfold FpStore.step at hs
  split at hs
  · cases hs
  rename_i hruns
  rw [not_or, Bool.not_eq_true, Bool.not_eq_true] at hruns
  have hblocked := hruns.2
  cases e with
  | call env c => exact h.call hblocked hok hs
  | callback env c =>
      simp only at hs
      split at hs
      · rename_i hin
        exact h.callback hblocked hin hok hs
      · cases hs
  | start => exact h.start hs
  | poll io tick => exact h.poll hs
  | dispatch env order => exact h.dispatch hs
  | datagram source buf =>
      simp only at hs
      split at hs
      · rename_i hcontrol
        cases hs
        exact h.advance (by simp [hcontrol]) (hcontrol ▸ FpControl.drain_plain _)
          (FpControl.drain_plain _)
      · cases hs
  | wouldBlock =>
      simp only at hs
      split at hs
      · rename_i hcontrol
        cases hs
        exact h.advance (by simp [hcontrol]) (hcontrol ▸ FpControl.drain_plain _) ⟨rfl, rfl⟩
      · cases hs
  | step env => exact h.threadStep hblocked hok hs
  | ret r => exact h.callbackReturn hs
  | finish => exact h.finish hs

/-- The engine will not call back any more: its thread has ended, or waits for a lock that
it holds. -/
def FpStore.Silent (s : FpStore) : Prop := s.threadDone = true ∨ s.blocked = true

end HwPhoneLink.Fillp
