import HwPhoneLink.DFile.Header

/-!
# A transfer ends once

`FAILED`, `TX_DONE` and `RX_DONE`: what a move may do to a transfer that has
ended, and when a result is reported.
-/

namespace HwPhoneLink.DFile

open BigEndian Transitions HwPhoneLink.Testfile

/-- The phase a reported result stands for. -/
def endPhase (isSender ok : Bool) : DCPhase :=
  if ok then if isSender then .txDone else .rxDone else .failed

/-- The frames that only a live transfer of the direction sends. -/
def ownFrames (isSender : Bool) : List DFileFrameType :=
  if isSender then [.fileData, .fileTransferDoneAck] else [.fileDataAck, .fileTransferDone]

/-- None of the writes is of such a frame, by the first byte. -/
def Silent (isSender : Bool) (ws : List Bytes) : Prop :=
  ∀ w ∈ ws, ∀ type ∈ ownFrames isSender, w.head? ≠ some type.code

/-- The callback is a result of the direction. -/
def DcEvent.isResult (isSender : Bool) : DcEvent → Bool
  | .result s _ _ => s == isSender
  | _ => false

@[simp] theorem endPhase_terminal (isSender ok : Bool) : (endPhase isSender ok).terminal = true := by
  cases isSender <;> cases ok <;> rfl

section
variable {sha256Hex : Bytes → Bytes} {env : DcEnv} {fr : Option Bytes}

/-- A direction keeps its phase, or lives on, or dies with the process. -/
def DcQuiet (c c' : DFileConn) (isSender : Bool) : Prop :=
  c'.phase isSender = c.phase isSender ∨
    ((c.phase isSender).terminal = false ∧
      ((c'.phase isSender).terminal = false ∨ c'.crash.isSome = true))

/-- What a move does to the callbacks and the phases. -/
inductive DcProgress (c c' : DFileConn) : Prop
  | quiet : c'.events = c.events → (∀ s, DcQuiet c c' s) → DcProgress c c'
  | told (e : DcEvent) :
      c'.events = c.events ++ [(c'.out.length, e)] → (∀ s, e.isResult s = false) →
      (∀ s, c'.phase s = c.phase s) → DcProgress c c'
  | ended (isSender ok : Bool) (message : String) :
      c'.events = c.events ++ [(c'.out.length, .result isSender ok message)] →
      (c.phase isSender).terminal = false → c'.phase isSender = endPhase isSender ok →
      c'.phase (!isSender) = c.phase (!isSender) → DcProgress c c'

theorem DcProgress.of_same {c c' : DFileConn} (hevents : c'.events = c.events)
    (htx : c'.tx = c.tx) (hrx : c'.rx = c.rx) : DcProgress c c' := by
  refine .quiet hevents fun s => Or.inl ?_
  cases s
  · simp [DFileConn.phase, DFileConn.trans, hrx]
  · simp [DFileConn.phase, DFileConn.trans, htx]

/-- The other direction is untouched, and this one lives on. -/
theorem DcProgress.of_live {c c' : DFileConn} (isSender : Bool) (hevents : c'.events = c.events)
    (hother : c'.trans (!isSender) = c.trans (!isSender))
    (hlive : (c.phase isSender).terminal = false) (hlive' : (c'.phase isSender).terminal = false) :
    DcProgress c c' := by
  refine .quiet hevents fun s => ?_
  by_cases hs : s = isSender
  · subst hs
    exact Or.inr ⟨hlive, Or.inl hlive'⟩
  · left
    rw [DFileConn.phase, DFileConn.phase, Bool.eq_not.mpr hs, hother]

theorem DcMove.progress {c c' : DFileConn} (hm : DcMove sha256Hex env False fr c c') (h : DcBase c) :
    DcProgress c c' := by
  have htx : ∀ {t t' : DCTrans}, c.tx = some t → c'.tx = some t' → c'.rx = c.rx →
      c'.events = c.events → t.phase.terminal = false → t'.phase.terminal = false →
      DcProgress c c' := by
    intro t t' ht ht' hrx hevents hlive hlive'
    refine .of_live true hevents hrx ?_ ?_
    · rw [DFileConn.phase_of_tx ht, hlive]
    · rw [DFileConn.phase_of_tx ht', hlive']
  have hrx : ∀ {t t' : DCTrans}, c.rx = some t → c'.rx = some t' → c'.tx = c.tx →
      c'.events = c.events → t.phase.terminal = false → t'.phase.terminal = false →
      DcProgress c c' := by
    intro t t' ht ht' htx hevents hlive hlive'
    refine .of_live false hevents htx ?_ ?_
    · rw [DFileConn.phase_of_rx ht, hlive]
    · rw [DFileConn.phase_of_rx ht', hlive']
  have hsame : ∀ {t t' : DCTrans}, c.rx = some t → c'.rx = some t' → c'.tx = c.tx →
      c'.events = c.events → t'.phase = t.phase → DcProgress c c' := by
    intro t t' ht ht' htx hevents hphase
    refine .quiet hevents fun s => Or.inl ?_
    cases s
    · rw [DFileConn.phase_of_rx ht, DFileConn.phase_of_rx ht', hphase]
    · simp [DFileConn.phase, DFileConn.trans, htx]
  have hsending : ∀ {p : DCPhase}, p = .txSending ∨ p = .txWaitDone → p.terminal = false := by
    rintro p (rfl | rfl) <;> rfl
  cases hm with
  | fail isSender reason sendRst =>
      rcases transFail_spec env isSender reason sendRst c with heq |
        ⟨t, w, crash, ht, hlive, hw, hcrash, heq⟩
      · rw [heq]
        exact .of_same rfl rfl rfl
      · have hends : (transFail env isSender reason sendRst c).phase isSender = .failed ∧
            (transFail env isSender reason sendRst c).trans (!isSender) = c.trans (!isSender) := by
          rw [heq]
          cases isSender <;> exact ⟨rfl, rfl⟩
        have hlive' : (c.phase isSender).terminal = false := by
          rw [DFileConn.phase, ht]
          exact hlive
        have hother : (transFail env isSender reason sendRst c).phase (!isSender) =
            c.phase (!isSender) := by
          rw [DFileConn.phase, DFileConn.phase, hends.2]
        have hout : (transFail env isSender reason sendRst c).out = c.out ++ w := by rw [heq]
        have hdead : (transFail env isSender reason sendRst c).crash = crash := by rw [heq]
        have hevents : (transFail env isSender reason sendRst c).events =
            if crash.isSome then c.events
            else c.events ++ [((c.out ++ w).length, .result isSender false reason)] := by rw [heq]
        split at hevents
        · rename_i hcrashed
          refine .quiet hevents fun s => ?_
          by_cases hs : s = isSender
          · subst hs
            exact Or.inr ⟨hlive', Or.inr (hdead ▸ hcrashed)⟩
          · rw [Bool.eq_not.mpr hs]
            exact Or.inl hother
        · exact .ended isSender false reason (hout ▸ hevents) hlive' hends.1 hother
  | closed => exact .told _ rfl (fun _ => rfl) fun _ => rfl
  | negotiate => exact .told _ rfl (fun _ => rfl) fun _ => rfl
  | fileList => exact .told _ rfl (fun _ => rfl) fun _ => rfl
  | startTx hready hfree =>
      refine .of_live true rfl rfl ?_ rfl
      simp [DFileConn.phase, DFileConn.trans, hfree, DCPhase.terminal]
  | dropTx ht hphase =>
      refine .of_live true rfl rfl ?_ rfl
      rw [DFileConn.phase_of_tx ht, hphase]
      rfl
  | armed ht hphase => exact htx ht rfl rfl rfl (by rw [hphase]; rfl) rfl
  | retry _ _ ht hphase => exact htx ht rfl rfl rfl (by rw [hphase]; rfl) (by rw [hphase]; rfl)
  | ctrl _ ht hphase =>
      refine htx ht rfl rfl rfl (by rw [hphase]; rfl) ?_
      rcases txCtrlUpdate_phase _ _ _ with hkept | hsend
      · rw [hkept, hphase]
        rfl
      · rw [hsend]
        rfl
  | newBlock ht hphase => exact htx ht rfl rfl rfl (hsending hphase) (hsending hphase)
  | retran ht hphase => exact htx ht rfl rfl rfl (hsending hphase) (hsending hphase)
  | allSent ht hphase => exact htx ht rfl rfl rfl (by rw [hphase]; rfl) rfl
  | ack _ ht hphase => exact htx ht rfl rfl rfl (hsending hphase) (hsending hphase)
  | doneReceived _ ht hfail hdone =>
      have hlive := (h.tx _ ht).live hdone hfail
      refine htx ht rfl rfl rfl hlive ?_
      simp only
      split
      · rfl
      · exact hlive
  | finish ht _ hdone hfail =>
      refine .ended true true _ rfl ?_ rfl rfl
      rw [DFileConn.phase_of_tx ht]
      exact (h.tx _ ht).live hdone hfail
  | header _ _ _ hfrom =>
      rcases hfrom with ⟨hnone, rfl⟩ | ⟨ht, -⟩
      · refine .of_live false rfl rfl ?_ rfl
        simp [DFileConn.phase, DFileConn.trans, hnone, DCPhase.terminal]
      · exact hsame ht rfl rfl rfl rfl
  | opened _ _ ht => exact hsame ht rfl rfl rfl rfl
  | waitData ht hphase => exact hrx ht rfl rfl rfl (by rw [hphase]; rfl) rfl
  | write _ _ ht => exact hsame ht rfl rfl rfl rfl
  | flushNone ht => exact hsame ht rfl rfl rfl rfl
  | flush ht => exact hsame ht rfl rfl rfl rfl
  | digest ht => exact hsame ht rfl rfl rfl rfl
  | done ht hphase =>
      rw [or_false] at hphase
      exact hrx ht rfl rfl rfl (by rw [hphase]; rfl) rfl
  | doneack _ ht hphase =>
      refine .ended false true _ rfl ?_ rfl rfl
      rw [DFileConn.phase_of_rx ht, hphase]
      rfl
  | _ => exact .of_same rfl rfl rfl

/-! ## Along a run -/

structure Ended (c : DFileConn) : Prop where
  base : DcBase c
  stamped : ∀ n e, (n, e) ∈ c.events → n ≤ c.out.length
  once : ∀ s, (c.events.filter fun e => e.2.isResult s).length ≤ 1
  final : ∀ n s ok m, (n, DcEvent.result s ok m) ∈ c.events →
    c.phase s = endPhase s ok ∧ Silent s (c.out.drop n)
  told : ∀ s, (c.phase s).terminal = true → c.crash = none →
    ∃ n ok m, (n, DcEvent.result s ok m) ∈ c.events

/-- A move writes nothing for a direction that has ended. -/
theorem DcWrites.silent {c c' : DFileConn} (h : DcWrites env False c c') :
    ∃ ws, c'.out = c.out ++ ws ∧ ∀ s, (c.phase s).terminal = true → Silent s ws := by
  rcases h.out with hsame | ⟨type, f, hframe, hallowed, hout, -⟩
  · exact ⟨[], by rw [hsame, List.append_nil], fun s _ w hw => by cases hw⟩
  refine ⟨_, hout, fun s hended w hw other hother hhead => ?_⟩
  obtain rfl : type = other := PieceOf.type_eq ⟨f, hframe, dcWrite_front hw⟩ hhead
  rcases hallowed with hallowed | hnone
  · cases s
    · rcases List.mem_pair.mp hother with rfl | rfl
      · rw [show (c.phase false).terminal = false from hallowed] at hended
        cases hended
      · rcases hallowed with hlive | hlate
        · rw [hlive] at hended
          cases hended
        · exact hlate
    · rcases List.mem_pair.mp hother with rfl | rfl
      · rw [show (c.phase true).terminal = false from hallowed] at hended
        cases hended
      · rw [show (c.phase true).terminal = false from hallowed] at hended
        cases hended
  · rw [hnone w hw] at hhead
    cases hhead

theorem Silent.append {s : Bool} {ws us : List Bytes} (h : Silent s ws) (h' : Silent s us) :
    Silent s (ws ++ us) := by
  intro w hw
  rcases List.mem_append.mp hw with hw | hw
  · exact h w hw
  · exact h' w hw

theorem Ended.live {c : DFileConn} (h : Ended c) {s : Bool} (hlive : (c.phase s).terminal = false)
    {n : ℕ} {ok : Bool} {m : String} : (n, DcEvent.result s ok m) ∉ c.events := by
  intro hmem
  rw [(h.final n s ok m hmem).1, endPhase_terminal] at hlive
  cases hlive

/-- What a move writes, against the callbacks it makes. -/
structure DcExtends (c c' : DFileConn) : Prop where
  base : DcBase c'
  out : ∃ ws, c'.out = c.out ++ ws ∧ ∀ s, (c.phase s).terminal = true → Silent s ws
  events : c.events <+: c'.events
  alive : c'.crash = none → c.crash = none

theorem DcMove.extends {c c' : DFileConn} (h : DcBase c) (hm : DcMove sha256Hex env False fr c c') :
    DcExtends c c' where
  base := hm.base h
  out := (hm.writes h).silent
  events := by
    rcases hm.progress h with ⟨hevents, -⟩ | ⟨e, hevents, -⟩ | ⟨s, ok, message, hevents, -⟩
    · exact ⟨[], (List.append_nil _).trans hevents.symm⟩
    · exact ⟨_, hevents.symm⟩
    · exact ⟨_, hevents.symm⟩
  alive := hm.alive h

section
variable {c c' : DFileConn} (h : Ended c) (hext : DcExtends c c')
include h hext

theorem Ended.stamp {n : ℕ} {e : DcEvent} (hmem : (n, e) ∈ c.events) : n ≤ c'.out.length := by
  obtain ⟨ws, hout, -⟩ := hext.out
  have hle := h.stamped n e hmem
  rw [hout, List.length_append]
  exact hle.trans (Nat.le_add_right _ _)

/-- What has been reported stays as it was. -/
theorem Ended.keeps {n : ℕ} {s ok : Bool} {m : String}
    (hmem : (n, DcEvent.result s ok m) ∈ c.events) (hsame : c'.phase s = c.phase s) :
    c'.phase s = endPhase s ok ∧ Silent s (c'.out.drop n) := by
  obtain ⟨ws, hout, hsilent⟩ := hext.out
  obtain ⟨hphase, hquiet⟩ := h.final n s ok m hmem
  refine ⟨hsame.trans hphase, ?_⟩
  rw [hout, List.drop_append_of_le_length (h.stamped _ _ hmem)]
  refine hquiet.append (hsilent s ?_)
  rw [hphase, endPhase_terminal]

theorem Ended.quiet (hevents : c'.events = c.events) (hphases : ∀ s, DcQuiet c c' s) :
    Ended c' where
  base := hext.base
  stamped n e hmem := h.stamp hext (hevents ▸ hmem)
  once := hevents ▸ h.once
  final n s ok m hmem := by
    rw [hevents] at hmem
    rcases hphases s with hsame | ⟨hlive, -⟩
    · exact h.keeps hext hmem hsame
    · exact absurd hmem (h.live hlive)
  told s hended hcrash := by
    rw [hevents]
    rcases hphases s with hsame | ⟨-, hlive | hdead⟩
    · exact h.told s (hsame ▸ hended) (hext.alive hcrash)
    · rw [hlive] at hended
      cases hended
    · rw [hcrash] at hdead
      cases hdead

theorem Ended.report {e : DcEvent} (hevents : c'.events = c.events ++ [(c'.out.length, e)])
    (hother : ∀ s, e.isResult s = false) (hphases : ∀ s, c'.phase s = c.phase s) : Ended c' where
  base := hext.base
  stamped n e' hmem := by
    rw [hevents, List.mem_append, List.mem_singleton] at hmem
    rcases hmem with hmem | hmem
    · exact h.stamp hext hmem
    · cases hmem
      exact Nat.le_refl _
  once s := by
    rw [hevents, List.filter_append, List.filter_singleton, hother s, Bool.cond_false,
      List.append_nil]
    exact h.once s
  final n s ok m hmem := by
    rw [hevents, List.mem_append, List.mem_singleton] at hmem
    rcases hmem with hmem | hmem
    · exact h.keeps hext hmem (hphases s)
    · have hno := hother s
      rw [← (Prod.mk.inj hmem).2] at hno
      simp [DcEvent.isResult] at hno
  told s hended hcrash := by
    obtain ⟨n, ok, m, hmem⟩ := h.told s (hphases s ▸ hended) (hext.alive hcrash)
    rw [hevents]
    exact ⟨n, ok, m, List.mem_append_left _ hmem⟩

theorem Ended.finish {s ok : Bool} {message : String}
    (hevents : c'.events = c.events ++ [(c'.out.length, .result s ok message)])
    (hlive : (c.phase s).terminal = false) (hend : c'.phase s = endPhase s ok)
    (hother : c'.phase (!s) = c.phase (!s)) : Ended c' where
  base := hext.base
  stamped n e' hmem := by
    rw [hevents, List.mem_append, List.mem_singleton] at hmem
    rcases hmem with hmem | hmem
    · exact h.stamp hext hmem
    · cases hmem
      exact Nat.le_refl _
  once s' := by
    rw [hevents, List.filter_append, List.length_append]
    by_cases hs : s' = s
    · subst hs
      have hnone : (c.events.filter fun e => e.2.isResult s') = [] := by
        rw [List.filter_eq_nil_iff]
        rintro ⟨n, e⟩ hmem hres
        cases e with
        | result s'' ok' m =>
            obtain rfl : s'' = s' := by simpa [DcEvent.isResult] using hres
            exact h.live hlive hmem
        | _ => cases hres
      rw [hnone, List.length_nil, Nat.zero_add]
      exact List.length_filter_le _ _
    · have hno : (s == s') = false := by
        rw [beq_eq_false_iff_ne]
        exact fun heq => hs heq.symm
      rw [List.filter_singleton, show (DcEvent.result s ok message).isResult s' = (s == s') from rfl,
        hno]
      exact h.once s'
  final n s' ok' m hmem := by
    rw [hevents, List.mem_append, List.mem_singleton] at hmem
    rcases hmem with hmem | hmem
    · by_cases hs : s' = s
      · exact absurd hmem (h.live (hs ▸ hlive))
      · exact h.keeps hext hmem (Bool.eq_not.mpr hs ▸ hother)
    · cases hmem
      refine ⟨hend, ?_⟩
      rw [List.drop_length]
      intro w hw
      cases hw
  told s' hended hcrash := by
    rw [hevents]
    by_cases hs : s' = s
    · rw [hs]
      exact ⟨_, ok, message, List.mem_append_right _ (List.mem_singleton.mpr rfl)⟩
    · rw [Bool.eq_not.mpr hs] at hended ⊢
      obtain ⟨n, ok', m, hmem⟩ := h.told _ (hother ▸ hended) (hext.alive hcrash)
      exact ⟨n, ok', m, List.mem_append_left _ hmem⟩

end

theorem DcMove.ended {c c' : DFileConn} (h : Ended c) (hm : DcMove sha256Hex env False fr c c') :
    Ended c' := by
  have hext := hm.extends h.base
  rcases hm.progress h.base with ⟨hevents, hphases⟩ | ⟨e, hevents, hother, hphases⟩ |
    ⟨s, ok, message, hevents, hlive, hend, hother⟩
  · exact h.quiet hext hevents hphases
  · exact h.report hext hevents hother hphases
  · exact h.finish hext hevents hlive hend hother

/-- The ACK of a tick is not cut off with everything there. -/
def DcAckWhole (sha256Hex : Bytes → Bytes) (c : DFileConn) : DcEv → Prop
  | .tick env => ¬ AckInterrupted sha256Hex env (dcTimeouts env c)
  | _ => True

theorem DFileConn.step_ended {c c' : DFileConn} {e : DcEv} (h : Ended c ∧ c.Sound)
    (hok : DcAckWhole sha256Hex c e) (hs : c.step sha256Hex e = some c') : Ended c' ∧ c'.Sound := by
  refine DFileConn.step_keeps Ended False (fun _ => True) (fun _ hinv hm => hm.ended hinv) h.1 h.2 trivial
    ?_ hs
  rintro env rfl
  exact hok

/-- What a run does to the transfers that have ended before it: their phase
stays, they send nothing of their own, and each direction reports at most one
result, which is its last word. -/
structure EndsOnce (c c' : DFileConn) : Prop where
  absorbing : ∀ s, (c.phase s).terminal = true → c'.phase s = c.phase s
  silent : ∀ s, (c.phase s).terminal = true → Silent s (c'.out.drop c.out.length)
  once : ∀ s, (c'.events.filter fun e => e.2.isResult s).length ≤ 1
  last : ∀ n s ok m, (n, DcEvent.result s ok m) ∈ c'.events →
    c'.phase s = endPhase s ok ∧ Silent s (c'.out.drop n)

theorem dcAlloc_ended (now : UInt64) (recvDir : Option Bytes) : Ended (dcAlloc now recvDir) where
  base := dcAlloc_base now recvDir
  stamped := by rintro n e ⟨⟩
  once _ := Nat.zero_le _
  final := by rintro n s ok m ⟨⟩
  told := by rintro (_ | _) ⟨⟩

/-- What a step adds to the writes and the callbacks comes after what was there. -/
theorem DFileConn.step_extends {c c' : DFileConn} {e : DcEv} (h : Ended c ∧ c.Sound)
    (hok : DcAckWhole sha256Hex c e) (hs : c.step sha256Hex e = some c') :
    c.out <+: c'.out ∧ c.events <+: c'.events := by
  have hkeep : (Ended c' ∧ c.out <+: c'.out ∧ c.events <+: c'.events) ∧ c'.Sound := by
    refine DFileConn.step_keeps
      (fun d => Ended d ∧ c.out <+: d.out ∧ c.events <+: d.events) False (fun _ => True) ?_
      ⟨h.1, List.prefix_refl _, List.prefix_refl _⟩ h.2 trivial ?_ hs
    · rintro env fr d d' - ⟨hd, hout, hevents⟩ hm
      have hext := hm.extends hd.base
      obtain ⟨ws, hws, -⟩ := hext.out
      refine ⟨hm.ended hd, ?_, hevents.trans hext.events⟩
      rw [hws]
      exact hout.trans (List.prefix_append _ _)
    · rintro env rfl
      exact hok
  exact hkeep.1.2

/-- **A transfer ends once.** As long as no tick cuts off the ACK of a complete
receive, an ended transfer stays as it is, in every continuation of every run. -/
theorem DFileConn.endsOnce {now : UInt64} {recvDir : Option Bytes} {es fs : List DcEv}
    {c c' : DFileConn}
    (hok : Meets (DFileConn.step sha256Hex) (DcAckWhole sha256Hex) (dcAlloc now recvDir) es)
    (hrun : run (DFileConn.step sha256Hex) (dcAlloc now recvDir) es = some c)
    (hok' : Meets (DFileConn.step sha256Hex) (DcAckWhole sha256Hex) c fs)
    (hrun' : run (DFileConn.step sha256Hex) c fs = some c') : EndsOnce c c' := by
  have hstep : ∀ c e c', (Ended c ∧ c.Sound) → DcAckWhole sha256Hex c e →
      c.step sha256Hex e = some c' → Ended c' ∧ c'.Sound :=
    fun _ _ _ h hok hs => DFileConn.step_ended h hok hs
  have h : Ended c ∧ c.Sound := run_inv _ _ hstep
    ⟨dcAlloc_ended now recvDir, dcAlloc_sound now recvDir⟩ hok hrun
  have h' : Ended c' ∧ c'.Sound := run_inv _ _ hstep h hok' hrun'
  have hext : (Ended c' ∧ c'.Sound) ∧ c.out <+: c'.out ∧ c.events <+: c'.events := by
    refine run_inv (fun d => (Ended d ∧ d.Sound) ∧ c.out <+: d.out ∧ c.events <+: d.events) _ ?_
      ⟨h, List.prefix_refl _, List.prefix_refl _⟩ hok' hrun'
    rintro d e d' ⟨hd, hout, hevents⟩ hoke hs
    obtain ⟨hout', hevents'⟩ := DFileConn.step_extends hd hoke hs
    exact ⟨hstep d e d' hd hoke hs, hout.trans hout', hevents.trans hevents'⟩
  -- an ended transfer has been reported, unless the process is dead
  have hlast : ∀ s, (c.phase s).terminal = true →
      c'.phase s = c.phase s ∧ Silent s (c'.out.drop c.out.length) := by
    intro s hended
    rcases fs with _ | ⟨e, fs⟩
    · cases hrun'
      refine ⟨rfl, ?_⟩
      rw [List.drop_length]
      intro w hw
      cases hw
    · obtain ⟨c₁, hfirst, -⟩ := run_cons_eq_some hrun'
      have halive : c.crash = none := by
        unfold DFileConn.step at hfirst
        split at hfirst
        · rename_i henabled
          rw [Bool.and_eq_true, Bool.not_eq_true'] at henabled
          exact (DFileConn.stopped_eq_false henabled.1).1
        · cases hfirst
      obtain ⟨n, ok, m, hmem⟩ := h.1.told s hended halive
      obtain ⟨hphase, hquiet⟩ := h'.1.final n s ok m (hext.2.2.subset hmem)
      refine ⟨hphase.trans (h.1.final n s ok m hmem).1.symm, ?_⟩
      intro w hw
      have hle : n ≤ c.out.length := h.1.stamped n _ hmem
      exact hquiet w ((List.drop_sublist_drop_left _ hle).subset hw)
  exact ⟨fun s hs => (hlast s hs).1, fun s hs => (hlast s hs).2, h'.1.once, h'.1.final⟩

theorem not_ackInterrupted (hsend : ∀ n, (env.send n).neverInterrupted = true) (c : DFileConn) :
    ¬ AckInterrupted sha256Hex env c := by
  rintro ⟨t, f, -, -, -, -, -, hopen, hint, -⟩
  rw [dcWrite, if_neg (by simp [hopen])] at hint
  exact dcSendLoop_neverInterrupted _ (hsend _) hint

end

/-! ### An acknowledgement cut off by a signal -/

/-- The data of the one-byte file, and the end of its exchange. -/
def oneByteData : Bytes :=
  (dfileEncodeData (dfileFrameMaxSize + 16) 1 dfileFlagDataEnd 1 0 [65]).getD []

def oneByteDoneAck : Bytes :=
  (dfileEncodeIdlist dcIdlistCap .fileTransferDoneAck 0 1 [1]).getD []

/-- Receive a one-byte file; `ack` is for the ACK frame. -/
def receiveOneByte (ack : DcSocket) : List DcEv :=
  let env := oneByteEnv 0 fun _ => dcTakesAll
  [.start env, .read env dcPeerSetting, .read env (oneByteHeader 1 (ascii "f")), .read env oneByteData,
    .tick (oneByteEnv 0 fun n => if n = 3 then ack else dcTakesAll), .read env oneByteDoneAck]

theorem DFileConn.endsOnce_receiveOneByte :
    ∃ c, run (DFileConn.step id) (dcAlloc 0 (some (ascii "/d"))) (receiveOneByte dcTakesAll) =
      some c ∧ (c.phase false).terminal = true ∧ EndsOnce c c := by
  obtain ⟨c, hrun, hended⟩ := Option.map_eq_some_iff.mp (show
    (run (DFileConn.step id) (dcAlloc 0 (some (ascii "/d"))) (receiveOneByte dcTakesAll)).map
      (fun c => (c.phase false).terminal) = some true by decide +kernel)
  have htick : ∀ c, ¬ AckInterrupted id
      (oneByteEnv 0 fun n => if n = 3 then dcTakesAll else dcTakesAll) c :=
    not_ackInterrupted fun n => by
      show (if n = 3 then dcTakesAll else dcTakesAll).neverInterrupted = true
      rw [ite_self]
      rfl
  have hok : Meets (DFileConn.step id) (DcAckWhole id) (dcAlloc 0 (some (ascii "/d")))
      (receiveOneByte dcTakesAll) :=
    ⟨trivial, fun _ _ => ⟨trivial, fun _ _ => ⟨trivial, fun _ _ => ⟨trivial, fun _ _ =>
      ⟨htick _, fun _ _ => ⟨trivial, fun _ _ => trivial⟩⟩⟩⟩⟩⟩
  have hdone : Meets (DFileConn.step id) (DcAckWhole id) c [] := trivial
  exact ⟨c, hrun, hended, DFileConn.endsOnce hok hrun hdone rfl⟩

/-- **A tick goes on after its ACK has failed the transfer**: the DONE frame is
sent all the same, and two results are reported. -/
theorem DFileConn.not_endsOnce :
    ¬ ∀ (sha256Hex : Bytes → Bytes) (now : UInt64) (recvDir : Option Bytes) (es fs : List DcEv)
        (c c' : DFileConn), run (DFileConn.step sha256Hex) (dcAlloc now recvDir) es = some c →
      run (DFileConn.step sha256Hex) c fs = some c' → EndsOnce c c' := by
  intro h
  obtain ⟨c, hrun, hcount⟩ := Option.map_eq_some_iff.mp (show
    (run (DFileConn.step id) (dcAlloc 0 (some (ascii "/d"))) (receiveOneByte .interrupted)).map
      (fun c => (c.events.filter fun e => e.2.isResult false).length) = some 2 by decide +kernel)
  have hle := (h id 0 _ _ [] c c hrun rfl).once false
  rw [hcount] at hle
  exact absurd hle (by decide)

end HwPhoneLink.DFile
