import HwPhoneLink.Lib.Transitions
import HwPhoneLink.Testfile.Verify

/-!
# The stream phase of the daemon

`main.c` from the reverse send of a file on: the engine, the connects with their retries, the
session on the connection, and the clip that is played. The callbacks of the engine run on its
thread, `stream_start` and the retry timer on the main loop. Flags are set and never cleared, and
only the main loop connects, so that a callback is one step, at the point where it reads
`stream_failed`.

Whatever else connects to the engine, there are at most three connects, and a phase that was
asked for has ended or goes on (`StreamPhase.bounded`). `on_stream_closed` frees `stream_sf`
without asking whose session it is; `StreamPhase.owned_iff` says when it is the right one.
-/

namespace HwPhoneLink.Stream

open BigEndian Transitions HwPhoneLink.Testfile

def streamConnectMax : ℕ := 3

/-- The globals; a peer is its number, and a session the number of its peer. -/
structure StreamPhase where
  /-- `stream_engine` and `ft_peer_ip` are set. -/
  engine : Bool
  peerIp : Bool
  attempts : ℕ
  failed : Bool
  established : Bool
  txDone : Bool
  rxDone : Bool
  peer : Option ℕ
  sf : Option ℕ
  rxName : Option Bytes
  /-- What the main loop has to run: calls of `stream_start_invoke` and retry timers. -/
  starts : ℕ
  timers : ℕ
  /-- The peers in the table of the engine, the established ones that have not been closed, and
  how many have been made. -/
  live : List ℕ
  held : List ℕ
  made : ℕ
  /-- Histories: a start was asked for; the calls of `fillp_engine_connect`; each session that
  was freed, behind the peer that closed; the clips to decode. -/
  requested : Bool
  connects : ℕ
  freed : List (ℕ × ℕ)
  jobs : List Bytes

def streamPhaseNew : StreamPhase where
  engine := false
  peerIp := false
  attempts := 0
  failed := false
  established := false
  txDone := false
  rxDone := false
  peer := none
  sf := none
  rxName := none
  starts := 0
  timers := 0
  live := []
  held := []
  made := 0
  requested := false
  connects := 0
  freed := []
  jobs := []

namespace StreamPhase

def fail (s : StreamPhase) : StreamPhase := { s with failed := true }

/-- A peer is registered, in the place of a peer that was `replaced`: that one is not called back
any more. -/
def addPeer (replaced : Option ℕ) (s : StreamPhase) : StreamPhase :=
  { s with
    live := s.live.filter (fun q => replaced ≠ some q) ++ [s.made]
    made := s.made + 1 }

def invokeStart (s : StreamPhase) : StreamPhase :=
  { s with starts := s.starts + 1, requested := true }

/-! ## The main loop -/

/-- `connected` is what `fillp_engine_connect` returns: `NULL`, or a peer. -/
def streamConnect (connected : Option (Option ℕ)) (s : StreamPhase) : StreamPhase :=
  if !s.engine then s
  else if !s.peerIp then s.fail
  else
    let s := { s with attempts := s.attempts + 1 }
    if s.attempts > streamConnectMax then s.fail
    else
      let s := { s with connects := s.connects + 1 }
      match connected with
      | some replaced => s.addPeer replaced
      | none => { s with timers := s.timers + 1 }

/-- `engineOk` is what `fillp_engine_new` returns. -/
def streamStart (engineOk : Bool) (connected : Option (Option ℕ)) (s : StreamPhase) :
    StreamPhase :=
  if s.failed then s
  else if s.engine then streamConnect connected s
  else if engineOk then streamConnect connected { s with engine := true }
  else s.fail

/-! ## The callbacks -/

/-- `streaming` says that `stream_port` is not 0. -/
def onFtResult (streaming isSender ok : Bool) (s : StreamPhase) : StreamPhase :=
  if isSender && ok && streaming && !s.failed && !s.established then s.invokeStart else s

/-- `sendOk` is what `stream_file_start_send` returns; it is not called to receive only. -/
def onStreamEstablished (p : ℕ) (sendOk : Option Bool) (s : StreamPhase) : StreamPhase :=
  let s := { s with established := true, peer := some p, sf := some p }
  if sendOk = some false then s.fail else s

def onStreamRxMeta (name : Bytes) (s : StreamPhase) : StreamPhase := { s with rxName := some name }

/-- When both directions are done, the peer is asked to close as well. -/
def onStreamDone (isSend ok : Bool) (s : StreamPhase) : StreamPhase :=
  if !ok then s.fail
  else
    let s := if isSend then { s with txDone := true } else { s with rxDone := true }
    match s.rxName with
    | none => s
    | some name =>
        if !isSend && (h264TestfileNameSha name).isSome then
          { s with rxName := none, jobs := s.jobs ++ [name] }
        else s

/-- The session is freed whichever peer it belongs to. -/
def freeSession (p : ℕ) (s : StreamPhase) : StreamPhase :=
  { s with
    sf := none
    freed := s.freed ++ (s.sf.map fun q => (p, q)).toList
    peer := if s.peer = some p then none else s.peer }

def onStreamClosed (p : ℕ) (s : StreamPhase) : StreamPhase :=
  let s := s.freeSession p
  if s.failed || (s.txDone && s.rxDone) then s
  else if s.established then s.fail
  else s.invokeStart

end StreamPhase

/-! ## Runs -/

inductive StreamPhaseEv : Type where
  /-- A DFile connection, with the address of its peer if that could be taken. -/
  | ftConnection (hasIp : Bool)
  | ftResult (isSender ok : Bool)
  /-- The main loop runs `stream_start_invoke`, or a retry timer. -/
  | start (engineOk : Bool) (connected : Option (Option ℕ))
  | retry (connected : Option (Option ℕ))
  /-- Somebody connects to the engine. -/
  | incoming (replaced : Option ℕ)
  | established (p : ℕ) (sendOk : Option Bool)
  | rxMeta (p : ℕ) (name : Bytes)
  | done (p : ℕ) (isSend ok : Bool)
  | closed (p : ℕ)

namespace StreamPhase

/-- The engine calls back for peers that it has, each established at most once and closed once. -/
def step (streaming : Bool) (s : StreamPhase) : StreamPhaseEv → Option StreamPhase
  | .ftConnection hasIp => some { s with peerIp := hasIp }
  | .ftResult isSender ok => some (s.onFtResult streaming isSender ok)
  | .start engineOk connected =>
      if 0 < s.starts then
        some (streamStart engineOk connected { s with starts := s.starts - 1 })
      else none
  | .retry connected =>
      if 0 < s.timers then some (streamConnect connected { s with timers := s.timers - 1 })
      else none
  | .incoming replaced => if s.engine then some (s.addPeer replaced) else none
  | .established p sendOk =>
      if p ∈ s.live ∧ p ∉ s.held then
        some ({ s with held := p :: s.held }.onStreamEstablished p sendOk)
      else none
  | .rxMeta p name => if p ∈ s.live ∧ p ∈ s.held then some (s.onStreamRxMeta name) else none
  | .done p isSend ok =>
      if p ∈ s.live ∧ p ∈ s.held then some (s.onStreamDone isSend ok) else none
  | .closed p =>
      if p ∈ s.live then
        some ({ s with live := s.live.erase p, held := s.held.erase p }.onStreamClosed p)
      else none

/-! ## The attempts -/

/-- A failure, or both directions done. -/
def Over (s : StreamPhase) : Prop := s.failed = true ∨ s.txDone = true ∧ s.rxDone = true

/-- Something will call back. -/
def Pending (s : StreamPhase) : Prop := 0 < s.starts ∨ 0 < s.timers ∨ s.live ≠ []

/-- What the connects and their timers keep. -/
structure Tries (s : StreamPhase) : Prop where
  connects : s.connects = min s.attempts streamConnectMax
  few : s.attempts ≤ streamConnectMax → s.timers ≤ s.attempts
  /-- Behind the last connect only the timers that are still there count up. -/
  spent : streamConnectMax < s.attempts →
    s.failed = true ∧ s.attempts + s.timers ≤ 2 * streamConnectMax + 1
  engine : 0 < s.timers → s.engine = true

/-- What is kept whatever happens. -/
structure Budget (s : StreamPhase) : Prop where
  tries : s.Tries
  goesOn : s.requested = true → s.Over ∨ s.Pending
  jobs : ∀ name ∈ s.jobs, s.rxDone = true ∧ (h264TestfileNameSha name).isSome = true

variable {s s' : StreamPhase}

theorem over_fail (s : StreamPhase) : s.fail.Over := .inl rfl

/-- What a connect does: nothing without an engine, a failure, or one of the first connects, which
makes a peer or arms a timer. -/
theorem streamConnect_cases (connected : Option (Option ℕ)) (s : StreamPhase) :
    s.engine = false ∧ streamConnect connected s = s ∨
    streamConnect connected s = s.fail ∨
    streamConnectMax ≤ s.attempts ∧
      streamConnect connected s = { s with attempts := s.attempts + 1, failed := true } ∨
    s.attempts < streamConnectMax ∧
      ((∃ replaced, streamConnect connected s =
          { s with attempts := s.attempts + 1, connects := s.connects + 1 }.addPeer replaced) ∨
        streamConnect connected s = { s with
          attempts := s.attempts + 1, connects := s.connects + 1, timers := s.timers + 1 }) := by
  unfold streamConnect
  by_cases hengine : (!s.engine) = true
  · rw [if_pos hengine]
    exact .inl ⟨Bool.not_eq_true'  _ |>.mp hengine, rfl⟩
  rw [if_neg hengine]
  by_cases hip : (!s.peerIp) = true
  · rw [if_pos hip]
    exact .inr (.inl rfl)
  rw [if_neg hip]
  by_cases hlast : streamConnectMax < s.attempts + 1
  · refine .inr (.inr (.inl ⟨Nat.le_of_lt_succ hlast, ?_⟩))
    exact if_pos hlast
  · refine .inr (.inr (.inr ⟨Nat.lt_of_succ_le (Nat.not_lt.mp hlast), ?_⟩))
    cases connected with
    | some replaced => exact .inl ⟨replaced, if_neg hlast⟩
    | none => exact .inr (if_neg hlast)

/-- A start fails, or connects on the engine. -/
theorem streamStart_cases (engineOk : Bool) (connected : Option (Option ℕ)) (s : StreamPhase) :
    s.failed = true ∧ streamStart engineOk connected s = s ∨
    streamStart engineOk connected s = s.fail ∨
    s.failed = false ∧
      streamStart engineOk connected s = streamConnect connected { s with engine := true } := by
  unfold streamStart
  by_cases hfailed : s.failed = true
  · rw [if_pos hfailed]
    exact .inl ⟨hfailed, rfl⟩
  · rw [if_neg hfailed]
    by_cases hengine : s.engine = true
    · rw [if_pos hengine]
      refine .inr (.inr ⟨Bool.eq_false_iff.mpr hfailed, ?_⟩)
      rw [← hengine]
    · rw [if_neg hengine]
      cases engineOk with
      | true => exact .inr (.inr ⟨Bool.eq_false_iff.mpr hfailed, rfl⟩)
      | false => exact .inr (.inl rfl)

theorem Tries.fail (h : s.Tries) : s.fail.Tries :=
  ⟨h.connects, h.few, fun hlt => ⟨rfl, (h.spent hlt).2⟩, h.engine⟩

/-- A retry takes its timer: it may count up once more. -/
theorem Tries.timer_taken (h : s.Tries) (htimer : 0 < s.timers) :
    Tries { s with timers := s.timers - 1 } ∧
      (streamConnectMax < s.attempts → s.attempts + (s.timers - 1) ≤ 2 * streamConnectMax) := by
  refine ⟨⟨h.connects, fun hle => ?_, fun hlt => ⟨(h.spent hlt).1, ?_⟩, fun _ => h.engine htimer⟩,
    fun hlt => ?_⟩
  · exact Nat.le_trans (Nat.sub_le _ _) (h.few hle)
  · apply Nat.le_trans _ (h.spent hlt).2
    exact Nat.add_le_add_left (Nat.sub_le _ _) _
  · have hsum := (h.spent hlt).2
    omega

/-- A connect counts up once, and arms a timer only for one of the first connects. -/
theorem Tries.streamConnect (h : s.Tries) (hengine : s.engine = true) (connected : Option (Option ℕ))
    (hroom : streamConnectMax < s.attempts → s.attempts + s.timers ≤ 2 * streamConnectMax) :
    (streamConnect connected s).Tries := by
  rcases streamConnect_cases connected s with
    ⟨hno, -⟩ | heq | ⟨hlast, heq⟩ | ⟨hfirst, heq⟩
  · rw [hengine] at hno
    cases hno
  · rw [heq]
    exact h.fail
  · have hsum : s.attempts + s.timers ≤ 2 * streamConnectMax := by
      rcases Nat.lt_or_eq_of_le hlast with hlt | hmax
      · exact hroom hlt
      · have hfew := h.few (Nat.le_of_eq hmax.symm)
        omega
    rw [heq]
    refine ⟨?_, fun hle => absurd hlast (Nat.not_le.mpr hle), fun _ => ⟨rfl, ?_⟩, h.engine⟩
    · rw [h.connects, Nat.min_eq_right hlast]
      exact (Nat.min_eq_right (Nat.le_succ_of_le hlast)).symm
    · change s.attempts + 1 + s.timers ≤ 2 * streamConnectMax + 1
      omega
  · have hconnects : s.connects + 1 = min (s.attempts + 1) streamConnectMax := by
      rw [h.connects, Nat.min_eq_left (Nat.le_of_lt hfirst), Nat.min_eq_left hfirst]
    have htimers : s.timers ≤ s.attempts := h.few (Nat.le_of_lt hfirst)
    have hnot : ¬ streamConnectMax < s.attempts + 1 := Nat.not_lt.mpr hfirst
    rcases heq with ⟨replaced, heq⟩ | heq
    · rw [heq]
      exact ⟨hconnects, fun _ => Nat.le_succ_of_le htimers, fun hlt => absurd hlt hnot, h.engine⟩
    · rw [heq]
      exact ⟨hconnects, fun _ => Nat.succ_le_succ htimers, fun hlt => absurd hlt hnot,
        fun _ => hengine⟩

/-- What a connect on the engine leaves behind: a failure, a peer or a timer. -/
theorem streamConnect_goesOn (hengine : s.engine = true) (connected : Option (Option ℕ)) :
    (streamConnect connected s).Over ∨ (streamConnect connected s).Pending := by
  rcases streamConnect_cases connected s with
    ⟨hno, -⟩ | heq | ⟨-, heq⟩ | ⟨-, ⟨replaced, heq⟩ | heq⟩
  · rw [hengine] at hno
    cases hno
  · rw [heq]
    exact .inl (over_fail s)
  · rw [heq]
    exact .inl (.inl rfl)
  · rw [heq]
    exact .inr (.inr (.inr (List.append_ne_nil_of_right_ne_nil _ (List.cons_ne_nil _ _))))
  · rw [heq]
    exact .inr (.inr (.inl (Nat.succ_pos _)))

/-- The main loop does not touch the sessions nor the jobs. -/
theorem streamConnect_frame (connected : Option (Option ℕ)) (s : StreamPhase) :
    (streamConnect connected s).jobs = s.jobs ∧ (streamConnect connected s).rxDone = s.rxDone ∧
      (streamConnect connected s).sf = s.sf ∧ (streamConnect connected s).held = s.held ∧
      (streamConnect connected s).freed = s.freed := by
  rcases streamConnect_cases connected s with ⟨-, heq⟩ | heq | ⟨-, heq⟩ | ⟨-, ⟨replaced, heq⟩ | heq⟩ <;>
    · rw [heq]
      exact ⟨rfl, rfl, rfl, rfl, rfl⟩

/-- A connect on the engine. -/
theorem budget_streamConnect (h : s.Tries) (hengine : s.engine = true) (connected : Option (Option ℕ))
    (hroom : streamConnectMax < s.attempts → s.attempts + s.timers ≤ 2 * streamConnectMax)
    (hjobs : ∀ name ∈ s.jobs, s.rxDone = true ∧ (h264TestfileNameSha name).isSome = true) :
    (streamConnect connected s).Budget := by
  refine ⟨h.streamConnect hengine connected hroom, fun _ => streamConnect_goesOn hengine connected,
    ?_⟩
  rw [(streamConnect_frame connected s).1, (streamConnect_frame connected s).2.1]
  exact hjobs

theorem Budget.streamStart (h : s.Budget) (engineOk : Bool) (connected : Option (Option ℕ)) :
    (streamStart engineOk connected { s with starts := s.starts - 1 }).Budget := by
  have htries : Tries { s with starts := s.starts - 1 } :=
    ⟨h.tries.connects, h.tries.few, h.tries.spent, h.tries.engine⟩
  rcases streamStart_cases engineOk connected { s with starts := s.starts - 1 } with
    ⟨hfailed, heq⟩ | heq | ⟨hfailed, heq⟩
  · rw [heq]
    exact ⟨htries, fun _ => .inl (.inl hfailed), h.jobs⟩
  · rw [heq]
    exact ⟨htries.fail, fun _ => .inl (over_fail _), h.jobs⟩
  · rw [heq]
    refine budget_streamConnect ?_ rfl connected (fun hlt => ?_) h.jobs
    · exact ⟨htries.connects, htries.few, htries.spent, fun _ => rfl⟩
    · -- nothing is connected once all connects are spent
      have hspent : s.failed = true := (h.tries.spent hlt).1
      rw [hspent] at hfailed
      cases hfailed

theorem Budget.invokeStart (h : s.Tries)
    (hjobs : ∀ name ∈ s.jobs, s.rxDone = true ∧ (h264TestfileNameSha name).isSome = true) :
    s.invokeStart.Budget :=
  ⟨⟨h.connects, h.few, h.spent, h.engine⟩, fun _ => .inr (.inl (Nat.succ_pos _)), hjobs⟩

theorem Budget.onFtResult (h : s.Budget) (streaming isSender ok : Bool) :
    (s.onFtResult streaming isSender ok).Budget := by
  unfold StreamPhase.onFtResult
  split
  · exact Budget.invokeStart h.tries h.jobs
  · exact h

theorem Budget.onStreamEstablished (h : s.Budget) (p : ℕ) (sendOk : Option Bool) :
    (s.onStreamEstablished p sendOk).Budget := by
  unfold StreamPhase.onStreamEstablished
  have htries : Tries { s with established := true, peer := some p, sf := some p } :=
    ⟨h.tries.connects, h.tries.few, h.tries.spent, h.tries.engine⟩
  dsimp only
  split
  · exact ⟨htries.fail, fun _ => .inl (over_fail _), h.jobs⟩
  · exact ⟨htries, h.goesOn, h.jobs⟩

/-- A direction that is done sets its flag, and the session that received the clip hands it on. -/
theorem onStreamDone_cases (isSend ok : Bool) (s : StreamPhase) :
    s.onStreamDone isSend ok = s.fail ∨
    (∃ name, s.rxName = some name ∧ (h264TestfileNameSha name).isSome = true ∧
      s.onStreamDone isSend ok =
        { s with rxDone := true, rxName := none, jobs := s.jobs ++ [name] }) ∨
    s.onStreamDone isSend ok = { s with txDone := true } ∨
    s.onStreamDone isSend ok = { s with rxDone := true } := by
  cases ok with
  | false => exact .inl rfl
  | true =>
      cases hname : s.rxName with
      | none =>
          unfold StreamPhase.onStreamDone
          cases isSend with
          | true => exact .inr (.inr (.inl (by simp [hname])))
          | false => exact .inr (.inr (.inr (by simp [hname])))
      | some name =>
          unfold StreamPhase.onStreamDone
          cases isSend with
          | true => exact .inr (.inr (.inl (by simp [hname])))
          | false =>
              by_cases hclip : (h264TestfileNameSha name).isSome = true
              · exact .inr (.inl ⟨name, rfl, hclip, by simp [hname, hclip]⟩)
              · exact .inr (.inr (.inr (by simp [hname, hclip])))

theorem Budget.onStreamDone (h : s.Budget) (isSend ok : Bool) :
    (s.onStreamDone isSend ok).Budget := by
  have htries := h.tries
  rcases onStreamDone_cases isSend ok s with heq | ⟨name, -, hclip, heq⟩ | heq | heq
  · rw [heq]
    exact ⟨htries.fail, fun _ => .inl (over_fail s), h.jobs⟩
  · rw [heq]
    refine ⟨⟨htries.connects, htries.few, htries.spent, htries.engine⟩, fun hreq => ?_,
      fun name' hmem => ⟨rfl, ?_⟩⟩
    · exact (h.goesOn hreq).imp_left (Or.imp_right fun hboth => ⟨hboth.1, rfl⟩)
    · rcases List.mem_append.mp hmem with hold | hnew
      · exact (h.jobs name' hold).2
      · rw [List.mem_singleton.mp hnew]
        exact hclip
  · rw [heq]
    refine ⟨⟨htries.connects, htries.few, htries.spent, htries.engine⟩, fun hreq => ?_, h.jobs⟩
    exact (h.goesOn hreq).imp_left (Or.imp_right fun hboth => ⟨rfl, hboth.2⟩)
  · rw [heq]
    refine ⟨⟨htries.connects, htries.few, htries.spent, htries.engine⟩, fun hreq => ?_,
      fun name hmem => ⟨rfl, (h.jobs name hmem).2⟩⟩
    exact (h.goesOn hreq).imp_left (Or.imp_right fun hboth => ⟨hboth.1, rfl⟩)

/-- A peer that closes finds the phase over, ends it, or has another start asked for. -/
theorem onStreamClosed_cases (p : ℕ) (s : StreamPhase) :
    s.Over ∧ s.onStreamClosed p = s.freeSession p ∨
    s.onStreamClosed p = (s.freeSession p).fail ∨
    s.onStreamClosed p = (s.freeSession p).invokeStart := by
  by_cases hover : (s.failed || s.txDone && s.rxDone) = true
  · refine .inl ⟨?_, if_pos hover⟩
    rcases Bool.or_eq_true _ _ |>.mp hover with hfailed | hboth
    · exact .inl hfailed
    · exact .inr (Bool.and_eq_true _ _ |>.mp hboth)
  · have hgo : s.onStreamClosed p =
        if s.established then (s.freeSession p).fail else (s.freeSession p).invokeStart :=
      if_neg hover
    rw [hgo]
    cases s.established with
    | true => exact .inr (.inl rfl)
    | false => exact .inr (.inr rfl)

theorem Budget.onStreamClosed (h : s.Budget) (p : ℕ) :
    ({ s with live := s.live.erase p, held := s.held.erase p }.onStreamClosed p).Budget := by
  have htries :
      (freeSession p { s with live := s.live.erase p, held := s.held.erase p }).Tries :=
    ⟨h.tries.connects, h.tries.few, h.tries.spent, h.tries.engine⟩
  rcases onStreamClosed_cases p { s with live := s.live.erase p, held := s.held.erase p } with
    ⟨hover, heq⟩ | heq | heq
  · rw [heq]
    exact ⟨htries, fun _ => .inl hover, h.jobs⟩
  · rw [heq]
    exact ⟨htries.fail, fun _ => .inl (over_fail _), h.jobs⟩
  · rw [heq]
    exact Budget.invokeStart htries h.jobs

/-- Every callback keeps the budget. -/
theorem Budget.step {streaming : Bool} {e : StreamPhaseEv} (h : s.Budget)
    (hstep : step streaming s e = some s') : s'.Budget := by
  have htries := h.tries
  cases e with
  | ftConnection hasIp =>
      cases hstep
      exact ⟨⟨htries.connects, htries.few, htries.spent, htries.engine⟩, h.goesOn, h.jobs⟩
  | ftResult isSender ok =>
      cases hstep
      exact h.onFtResult streaming isSender ok
  | start engineOk connected =>
      obtain ⟨-, heq⟩ := Option.ite_none_right_eq_some.mp hstep
      cases heq
      exact h.streamStart engineOk connected
  | retry connected =>
      obtain ⟨htimer, heq⟩ := Option.ite_none_right_eq_some.mp hstep
      cases heq
      obtain ⟨htaken, hroom⟩ := htries.timer_taken htimer
      exact budget_streamConnect htaken (htries.engine htimer) connected hroom h.jobs
  | incoming replaced =>
      obtain ⟨-, heq⟩ := Option.ite_none_right_eq_some.mp hstep
      cases heq
      refine ⟨⟨htries.connects, htries.few, htries.spent, htries.engine⟩, fun _ => .inr ?_, h.jobs⟩
      exact .inr (.inr (List.append_ne_nil_of_right_ne_nil _ (List.cons_ne_nil _ _)))
  | established p sendOk =>
      obtain ⟨-, heq⟩ := Option.ite_none_right_eq_some.mp hstep
      cases heq
      have hheld : Budget { s with held := p :: s.held } :=
        ⟨⟨htries.connects, htries.few, htries.spent, htries.engine⟩, h.goesOn, h.jobs⟩
      exact hheld.onStreamEstablished p sendOk
  | rxMeta p name =>
      obtain ⟨-, heq⟩ := Option.ite_none_right_eq_some.mp hstep
      cases heq
      exact ⟨⟨htries.connects, htries.few, htries.spent, htries.engine⟩, h.goesOn, h.jobs⟩
  | done p isSend ok =>
      obtain ⟨-, heq⟩ := Option.ite_none_right_eq_some.mp hstep
      cases heq
      exact h.onStreamDone isSend ok
  | closed p =>
      obtain ⟨-, heq⟩ := Option.ite_none_right_eq_some.mp hstep
      cases heq
      exact h.onStreamClosed p

/-- Only the address of the peer has been set. -/
def Untouched (s : StreamPhase) : Prop := ∃ ip, s = { streamPhaseNew with peerIp := ip }

/-- Nothing happens up to the end of a transfer that was sent. -/
theorem Untouched.step {streaming : Bool} {e : StreamPhaseEv} (hs : s.Untouched)
    (he : ¬ (streaming = true ∧ e = .ftResult true true)) (hstep : step streaming s e = some s') :
    s'.Untouched := by
  obtain ⟨ip, rfl⟩ := hs
  cases e with
  | ftConnection hasIp =>
      cases hstep
      exact ⟨hasIp, rfl⟩
  | ftResult isSender ok =>
      cases hstep
      unfold StreamPhase.onFtResult
      split
      · rename_i hcond
        simp only [Bool.and_eq_true] at hcond
        obtain ⟨⟨⟨⟨rfl, rfl⟩, hstreaming⟩, -⟩, -⟩ := hcond
        exact absurd ⟨hstreaming, rfl⟩ he
      · exact ⟨ip, rfl⟩
  | start engineOk connected => cases hstep
  | retry connected => cases hstep
  | incoming replaced => cases hstep
  | established p sendOk => cases hstep
  | rxMeta p name => cases hstep
  | done p isSend ok => cases hstep
  | closed p => cases hstep

/-- Every established peer has its session in `stream_sf`, and a session was only ever freed when
its own peer closed. -/
def Owned (s : StreamPhase) : Prop :=
  (∀ p ∈ s.held, s.sf = some p) ∧ ∀ c ∈ s.freed, c.2 = c.1

/-- No other peer is established when one is established or closes. -/
def Alone (s : StreamPhase) : StreamPhaseEv → Prop
  | .established p _ => p ∈ s.live → p ∉ s.held → s.held = []
  | .closed p => p ∈ s.live → ∀ q ∈ s.held, q = p
  | _ => True

/-- `stream_sf` is the session of the only established peer. -/
structure Sole (s : StreamPhase) : Prop where
  owned : s.Owned
  sf : ∀ p, s.sf = some p → p ∈ s.held
  nodup : s.held.Nodup

theorem Sole.congr (h : s.Sole) (hsf : s'.sf = s.sf) (hheld : s'.held = s.held)
    (hfreed : s'.freed = s.freed) : s'.Sole := by
  refine ⟨⟨?_, ?_⟩, ?_, ?_⟩
  · rw [hheld, hsf]
    exact h.owned.1
  · rw [hfreed]
    exact h.owned.2
  · rw [hheld, hsf]
    exact h.sf
  · rw [hheld]
    exact h.nodup

theorem Sole.streamConnect (h : s.Sole) (connected : Option (Option ℕ)) : (streamConnect connected s).Sole := by
  obtain ⟨-, -, hsf, hheld, hfreed⟩ := streamConnect_frame connected s
  exact h.congr hsf hheld hfreed

theorem Sole.streamStart (h : s.Sole) (engineOk : Bool) (connected : Option (Option ℕ)) :
    (streamStart engineOk connected s).Sole := by
  rcases streamStart_cases engineOk connected s with ⟨-, heq⟩ | heq | ⟨-, heq⟩
  · rw [heq]
    exact h
  · rw [heq]
    exact h.congr rfl rfl rfl
  · have hengine : Sole { s with engine := true } := h.congr rfl rfl rfl
    rw [heq]
    exact hengine.streamConnect connected

/-- What the two callbacks that set `stream_sf` do to it. -/
theorem onStreamEstablished_frame (p : ℕ) (sendOk : Option Bool) (s : StreamPhase) :
    (s.onStreamEstablished p sendOk).sf = some p ∧
      (s.onStreamEstablished p sendOk).held = s.held ∧
      (s.onStreamEstablished p sendOk).freed = s.freed := by
  unfold onStreamEstablished
  dsimp only
  split
  · exact ⟨rfl, rfl, rfl⟩
  · exact ⟨rfl, rfl, rfl⟩

theorem onStreamClosed_frame (p : ℕ) (s : StreamPhase) :
    (s.onStreamClosed p).sf = none ∧ (s.onStreamClosed p).held = s.held ∧
      (s.onStreamClosed p).freed = s.freed ++ (s.sf.map fun q => (p, q)).toList := by
  rcases onStreamClosed_cases p s with ⟨-, heq⟩ | heq | heq <;>
    · rw [heq]
      exact ⟨rfl, rfl, rfl⟩

theorem Sole.onStreamEstablished (h : s.Sole) (p : ℕ) (sendOk : Option Bool)
    (halone : s.held = []) :
    ({ s with held := p :: s.held }.onStreamEstablished p sendOk).Sole := by
  obtain ⟨hsf, hheld, hfreed⟩ :=
    onStreamEstablished_frame p sendOk { s with held := p :: s.held }
  have hone : ({ s with held := p :: s.held }.onStreamEstablished p sendOk).held = [p] :=
    hheld.trans (congrArg (List.cons p) halone)
  refine ⟨⟨fun q hq => ?_, ?_⟩, fun q hq => ?_, ?_⟩
  · rw [hone] at hq
    rw [hsf, List.mem_singleton.mp hq]
  · rw [hfreed]
    exact h.owned.2
  · rw [hsf] at hq
    rw [hone]
    exact List.mem_singleton.mpr (Option.some.inj hq).symm
  · rw [hone]
    exact List.pairwise_singleton _ _

/-- The only established peer takes its own session with it. -/
theorem Sole.onStreamClosed (h : s.Sole) (p : ℕ) (halone : ∀ q ∈ s.held, q = p) :
    ({ s with live := s.live.erase p, held := s.held.erase p }.onStreamClosed p).Sole := by
  obtain ⟨hsf, hheld, hfreed⟩ :=
    onStreamClosed_frame p { s with live := s.live.erase p, held := s.held.erase p }
  have hnone : s.held.erase p = [] := by
    apply List.eq_nil_iff_forall_not_mem.mpr
    intro q hq
    obtain ⟨hne, hmem⟩ := h.nodup.mem_erase_iff.mp hq
    exact hne (halone q hmem)
  refine ⟨⟨fun q hq => ?_, fun c hc => ?_⟩, fun q hq => ?_, ?_⟩
  · rw [hheld] at hq
    change q ∈ s.held.erase p at hq
    rw [hnone] at hq
    cases hq
  · rw [hfreed] at hc
    rcases List.mem_append.mp hc with hold | hnew
    · exact h.owned.2 c hold
    · obtain ⟨q, hq, rfl⟩ := Option.map_eq_some_iff.mp (Option.mem_toList.mp hnew)
      exact halone q (h.sf q hq)
  · rw [hsf] at hq
    cases hq
  · rw [hheld]
    exact h.nodup.erase p

theorem Sole.step {streaming : Bool} {e : StreamPhaseEv} (h : s.Sole) (halone : s.Alone e)
    (hstep : step streaming s e = some s') : s'.Sole := by
  cases e with
  | ftConnection hasIp =>
      cases hstep
      exact h.congr rfl rfl rfl
  | ftResult isSender ok =>
      cases hstep
      unfold StreamPhase.onFtResult
      split
      · exact h.congr rfl rfl rfl
      · exact h
  | start engineOk connected =>
      obtain ⟨-, heq⟩ := Option.ite_none_right_eq_some.mp hstep
      cases heq
      have htaken : Sole { s with starts := s.starts - 1 } := h.congr rfl rfl rfl
      exact htaken.streamStart engineOk connected
  | retry connected =>
      obtain ⟨-, heq⟩ := Option.ite_none_right_eq_some.mp hstep
      cases heq
      have htaken : Sole { s with timers := s.timers - 1 } := h.congr rfl rfl rfl
      exact htaken.streamConnect connected
  | incoming replaced =>
      obtain ⟨-, heq⟩ := Option.ite_none_right_eq_some.mp hstep
      cases heq
      exact h.congr rfl rfl rfl
  | established p sendOk =>
      obtain ⟨⟨hlive, hnew⟩, heq⟩ := Option.ite_none_right_eq_some.mp hstep
      cases heq
      exact h.onStreamEstablished p sendOk (halone hlive hnew)
  | rxMeta p name =>
      obtain ⟨-, heq⟩ := Option.ite_none_right_eq_some.mp hstep
      cases heq
      exact h.congr rfl rfl rfl
  | done p isSend ok =>
      obtain ⟨-, heq⟩ := Option.ite_none_right_eq_some.mp hstep
      cases heq
      rcases onStreamDone_cases isSend ok s with heq | ⟨name, -, -, heq⟩ | heq | heq <;>
        · rw [heq]
          exact h.congr rfl rfl rfl
  | closed p =>
      obtain ⟨hlive, heq⟩ := Option.ite_none_right_eq_some.mp hstep
      cases heq
      exact h.onStreamClosed p (halone hlive)

/-- With another peer established, a session is overwritten or freed that is still in use. -/
theorem step_not_alone {streaming : Bool} {e : StreamPhaseEv} (hnot : ¬ s.Alone e) :
    ∃ s', step streaming s e = some s' ∧ ¬ s'.Owned := by
  cases e with
  | established p sendOk =>
      simp only [Alone, Classical.not_imp] at hnot
      obtain ⟨hlive, hnew, hheld⟩ := hnot
      obtain ⟨hsf, hheld', -⟩ :=
        onStreamEstablished_frame p sendOk { s with held := p :: s.held }
      refine ⟨_, if_pos ⟨hlive, hnew⟩, fun howned => ?_⟩
      obtain ⟨q, hq⟩ := List.exists_mem_of_ne_nil _ hheld
      have hsfq := howned.1 q (by rw [hheld']; exact List.mem_cons_of_mem _ hq)
      rw [hsf, Option.some.injEq] at hsfq
      exact hnew (hsfq ▸ hq)
  | closed p =>
      simp only [Alone, Classical.not_imp, not_forall] at hnot
      obtain ⟨hlive, q, hq, hne⟩ := hnot
      obtain ⟨hsf, hheld, -⟩ :=
        onStreamClosed_frame p { s with live := s.live.erase p, held := s.held.erase p }
      refine ⟨_, if_pos hlive, fun howned => ?_⟩
      have hsfq := howned.1 q (by rw [hheld]; exact (List.mem_erase_of_ne hne).mpr hq)
      rw [hsf] at hsfq
      cases hsfq
  | ftConnection hasIp => exact absurd trivial hnot
  | ftResult isSender ok => exact absurd trivial hnot
  | start engineOk connected => exact absurd trivial hnot
  | retry connected => exact absurd trivial hnot
  | incoming replaced => exact absurd trivial hnot
  | rxMeta p name => exact absurd trivial hnot
  | done p isSend ok => exact absurd trivial hnot

/-- **Whose session is freed.** In every state of a run each established peer has its session in
`stream_sf` and every freed session was that of the peer that closed, if and only if no peer of the
engine was established or closed while another one was established. -/
theorem owned_iff (streaming : Bool) (es : List StreamPhaseEv) :
    (∀ pre, pre <+: es → ∀ t, run (step streaming) streamPhaseNew pre = some t → t.Owned) ↔
      Meets (step streaming) Alone streamPhaseNew es := by
  apply good_iff_meets Sole
  · exact fun _ h => h.owned
  · exact fun _ _ _ h halone hstep => h.step halone hstep
  · exact fun _ _ _ hnot => step_not_alone hnot
  · refine ⟨⟨fun p hp => ?_, fun c hc => ?_⟩, fun p hp => ?_, List.nodup_nil⟩
    · cases hp
    · cases hc
    · cases hp

/-- The handshake of a stranger is given up while the file arrives: its session is freed. -/
example : ¬ Meets (step true) Alone streamPhaseNew
    [.ftConnection true, .ftResult true true, .start true (some none), .established 0 none,
      .incoming none,      .closed 1] := by
  intro hmeets
  have halone := (hmeets.2 _ rfl |>.2 _ rfl |>.2 _ rfl |>.2 _ rfl |>.2 _ rfl).1
  exact absurd (halone (by decide) 0 (by decide)) (by decide)

end StreamPhase

end HwPhoneLink.Stream
