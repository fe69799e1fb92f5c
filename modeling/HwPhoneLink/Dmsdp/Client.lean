import HwPhoneLink.Dmsdp.Build
import HwPhoneLink.Lib.Transitions

/-!
# The DMSDP client

`dmsdp_client_send` and `dmsdp_client_recv`: SETUP, its reply, PLAY, its reply.
A reply is accepted on its parsed fields, and the parser leaves a zero for a
sequence number that the text does not carry.
-/

namespace HwPhoneLink.Dmsdp

open BigEndian Path Transitions HwPhoneLink.Testfile

inductive DmsdpClientState : Type where
  | init | waitSetupReply | sendPlay | waitPlayReply | ready | error
deriving DecidableEq, Repr

structure DmsdpClient where
  state : DmsdpClientState
  pendingCseq : UInt32
deriving DecidableEq, Repr

def dmsdpClientNew : DmsdpClient := ⟨.init, 0⟩

/-- The send once the state allows it: the client and the framed text. -/
def dmsdpClientEmit (c : DmsdpClient) (msg : DmsdpMsg) (cap : ℕ) : DmsdpClient × Option Bytes :=
  match (dmsdpBuild msg dmsdpTextMax).bind fun text => dmsdpFrame text cap with
  | none => ({ c with state := .error }, none)
  | some wire => (c, some wire)

def dmsdpClientSend (c : DmsdpClient) (msg : DmsdpMsg) (cap : ℕ) : DmsdpClient × Option Bytes :=
  match c.state with
  | .init =>
      if msg.type ≠ dmsdpTypeSetup ∨ msg.cseq ≠ 0 then ({ c with state := .error }, none)
      else dmsdpClientEmit { state := .waitSetupReply, pendingCseq := 0 } msg cap
  | .sendPlay =>
      if msg.type ≠ dmsdpTypePlay ∨ msg.cseq ≠ 1 then ({ c with state := .error }, none)
      else dmsdpClientEmit { state := .waitPlayReply, pendingCseq := 1 } msg cap
  | _ => (c, none)

/-- The reply that is waited for, as the client checks it. -/
def DmsdpClient.accepts (c : DmsdpClient) (p : DmsdpParsed) : Bool :=
  p.type = dmsdpTypeResponse && p.responseFail = 0 && p.cseq = c.pendingCseq

/-- The client, and whether the call succeeds. -/
def dmsdpClientRecv (c : DmsdpClient) (p : DmsdpParsed) : DmsdpClient × Bool :=
  match c.state with
  | .ready => (c, true)
  | .waitSetupReply =>
      if c.accepts p then ({ c with state := .sendPlay }, true)
      else ({ c with state := .error }, false)
  | .waitPlayReply =>
      if c.accepts p then ({ c with state := .ready }, true)
      else ({ c with state := .error }, false)
  | .error => (c, false)
  | .init | .sendPlay => ({ c with state := .error }, false)

/-! ## Runs -/

inductive DmsdpEv : Type where
  | send (msg : DmsdpMsg) (cap : ℕ)
  | recv (text : Bytes)

/-- What has happened on the line. -/
inductive DmsdpLog : Type where
  | emitted (msg : DmsdpMsg) (wire : Bytes)
  | got (text : Bytes)

structure DmsdpRun where
  client : DmsdpClient
  log : List DmsdpLog

def dmsdpRunNew : DmsdpRun := ⟨dmsdpClientNew, []⟩

/-- One call. A text is received once it parses. -/
def DmsdpRun.step (s : DmsdpRun) : DmsdpEv → Option DmsdpRun
  | .send msg cap =>
      let r := dmsdpClientSend s.client msg cap
      some ⟨r.1, s.log ++ (r.2.map (DmsdpLog.emitted msg)).toList⟩
  | .recv text =>
      match dmsdpParse text with
      | .error _ => none
      | .ok p => some ⟨(dmsdpClientRecv s.client p).1, s.log ++ [.got text]⟩

/-- The messages that have gone out. -/
def DmsdpRun.emissions (s : DmsdpRun) : List (DmsdpMsg × Bytes) :=
  s.log.filterMap fun
    | .emitted msg wire => some (msg, wire)
    | .got _ => none

/-! ## The exchange -/

/-- A 200 response. -/
def Is200 (text : Bytes) : Prop :=
  ∃ p, dmsdpParse text = .ok p ∧ p.type = dmsdpTypeResponse ∧ p.responseFail = 0

/-- A 200 response with a CSeq header of the number. -/
structure Answers (text : Bytes) (n : UInt32) : Prop where
  is200 : Is200 text
  cseq : CSeqIs text n

structure IsSetup (msg : DmsdpMsg) : Prop where
  type_eq : msg.type = dmsdpTypeSetup
  cseq_eq : msg.cseq = 0

structure IsPlay (msg : DmsdpMsg) : Prop where
  type_eq : msg.type = dmsdpTypePlay
  cseq_eq : msg.cseq = 1

/-- The log that brings a client to its state. -/
inductive Exchange : DmsdpClientState → List DmsdpLog → Prop
  | init : Exchange .init []
  | setup {msg : DmsdpMsg} (wire : Bytes) :
      IsSetup msg → Exchange .waitSetupReply [.emitted msg wire]
  | setupReply {log : List DmsdpLog} {text : Bytes} :
      Exchange .waitSetupReply log → Answers text 0 → Exchange .sendPlay (log ++ [.got text])
  | play {log : List DmsdpLog} {msg : DmsdpMsg} (wire : Bytes) :
      Exchange .sendPlay log → IsPlay msg → Exchange .waitPlayReply (log ++ [.emitted msg wire])
  | playReply {log : List DmsdpLog} {text : Bytes} :
      Exchange .waitPlayReply log → Answers text 1 → Exchange .ready (log ++ [.got text])
  | ignored {log : List DmsdpLog} (text : Bytes) :
      Exchange .ready log → Exchange .ready (log ++ [.got text])
  | failed (log : List DmsdpLog) : Exchange .error log

theorem Exchange.waitSetupReply_eq {log : List DmsdpLog} (h : Exchange .waitSetupReply log) :
    ∃ msg wire, log = [.emitted msg wire] ∧ IsSetup msg := by
  cases h with
  | setup wire hmsg => exact ⟨_, wire, rfl, hmsg⟩

theorem Exchange.sendPlay_eq {log : List DmsdpLog} (h : Exchange .sendPlay log) :
    ∃ msg wire text, log = [.emitted msg wire, .got text] ∧ IsSetup msg ∧ Answers text 0 := by
  cases h with
  | setupReply h htext =>
      obtain ⟨msg, wire, rfl, hmsg⟩ := h.waitSetupReply_eq
      exact ⟨msg, wire, _, rfl, hmsg, htext⟩

theorem Exchange.waitPlayReply_eq {log : List DmsdpLog} (h : Exchange .waitPlayReply log) :
    ∃ msg wire text msg' wire', log = [.emitted msg wire, .got text, .emitted msg' wire'] ∧
      IsSetup msg ∧ Answers text 0 ∧ IsPlay msg' := by
  cases h with
  | play wire h hmsg =>
      obtain ⟨msg, wire', text, rfl, hsetup, htext⟩ := h.sendPlay_eq
      exact ⟨msg, wire', text, _, wire, rfl, hsetup, htext, hmsg⟩

theorem Exchange.ready_eq {log : List DmsdpLog} (h : Exchange .ready log) :
    ∃ msg wire text msg' wire' text' later,
      log = [.emitted msg wire, .got text, .emitted msg' wire', .got text'] ++
        List.map DmsdpLog.got later ∧
      IsSetup msg ∧ Answers text 0 ∧ IsPlay msg' ∧ Answers text' 1 := by
  generalize hstate : DmsdpClientState.ready = state at h
  induction h with
  | playReply h htext =>
      obtain ⟨msg, wire, text, msg', wire', rfl, hsetup, hfirst, hplay⟩ := h.waitPlayReply_eq
      exact ⟨msg, wire, text, msg', wire', _, [], rfl, hsetup, hfirst, hplay, htext⟩
  | ignored text h ih =>
      obtain ⟨msg, wire, text', msg', wire', text'', later, rfl, hfacts⟩ := ih rfl
      refine ⟨msg, wire, text', msg', wire', text'', later ++ [text], ?_, hfacts⟩
      rw [List.map_append, List.append_assoc]
      rfl
  | _ => cases hstate

/-! ### Steps -/

/-- Everything a reply can do. -/
theorem dmsdpClientRecv_cases (c : DmsdpClient) (p : DmsdpParsed) :
    (c.state = .waitSetupReply ∧ c.accepts p = true ∧
        dmsdpClientRecv c p = (⟨.sendPlay, c.pendingCseq⟩, true)) ∨
      (c.state = .waitPlayReply ∧ c.accepts p = true ∧
        dmsdpClientRecv c p = (⟨.ready, c.pendingCseq⟩, true)) ∨
      (c.state = .ready ∧ dmsdpClientRecv c p = (c, true)) ∨
      dmsdpClientRecv c p = (⟨.error, c.pendingCseq⟩, false) := by
  rcases c with ⟨state, pending⟩
  cases state with
  | init => exact Or.inr (Or.inr (Or.inr rfl))
  | sendPlay => exact Or.inr (Or.inr (Or.inr rfl))
  | error => exact Or.inr (Or.inr (Or.inr rfl))
  | ready => exact Or.inr (Or.inr (Or.inl ⟨rfl, rfl⟩))
  | waitSetupReply =>
      by_cases hacc : (DmsdpClient.mk .waitSetupReply pending).accepts p = true
      · exact Or.inl ⟨rfl, hacc, if_pos hacc⟩
      · exact Or.inr (Or.inr (Or.inr (if_neg hacc)))
  | waitPlayReply =>
      by_cases hacc : (DmsdpClient.mk .waitPlayReply pending).accepts p = true
      · exact Or.inr (Or.inl ⟨rfl, hacc, if_pos hacc⟩)
      · exact Or.inr (Or.inr (Or.inr (if_neg hacc)))

/-- A received text that parses. -/
theorem DmsdpRun.step_recv {s s' : DmsdpRun} {text : Bytes} (hs : s.step (.recv text) = some s') :
    ∃ p, dmsdpParse text = .ok p ∧
      s' = ⟨(dmsdpClientRecv s.client p).1, s.log ++ [.got text]⟩ := by
  simp only [DmsdpRun.step] at hs
  split at hs
  · cases hs
  · rename_i p hp
    cases hs
    exact ⟨p, hp, rfl⟩

/-- An error is final, and nothing goes out any more. -/
theorem DmsdpRun.step_error {s s' : DmsdpRun} {e : DmsdpEv} (herror : s.client.state = .error)
    (hs : s.step e = some s') : s'.client.state = .error ∧ s'.emissions = s.emissions := by
  cases e with
  | send msg cap =>
      have hsend : dmsdpClientSend s.client msg cap = (s.client, none) := by
        unfold dmsdpClientSend
        rw [herror]
      simp only [DmsdpRun.step, hsend, Option.map_none, Option.toList_none, List.append_nil,
        Option.some.injEq] at hs
      subst hs
      exact ⟨herror, rfl⟩
  | recv text =>
      obtain ⟨p, -, rfl⟩ := DmsdpRun.step_recv hs
      constructor
      · show (dmsdpClientRecv s.client p).1.state = .error
        unfold dmsdpClientRecv
        rw [herror]
        exact herror
      · show List.filterMap _ (s.log ++ [.got text]) = _
        rw [List.filterMap_append]
        exact List.append_nil _

theorem DmsdpRun.run_error {s t : DmsdpRun} {es : List DmsdpEv} (herror : s.client.state = .error)
    (hrun : run DmsdpRun.step s es = some t) :
    t.client.state = .error ∧ t.emissions = s.emissions :=
  run_inv_all (fun u => u.client.state = .error ∧ u.emissions = s.emissions)
    (fun u e u' hu hstep => by
      obtain ⟨hstate, hsame⟩ := DmsdpRun.step_error hu.1 hstep
      exact ⟨hstate, hsame.trans hu.2⟩)
    ⟨herror, rfl⟩ hrun

/-! ## What the client promises -/

/-- Each state is reached by its exchange, and an error is final. -/
structure DmsdpRun.Lawful (s : DmsdpRun) : Prop where
  /-- One SETUP and one PLAY, each with its answer, and what is ignored. -/
  ready : s.client.state = .ready → ∃ msg wire text msg' wire' text' later,
    s.log = [.emitted msg wire, .got text, .emitted msg' wire', .got text'] ++
        List.map DmsdpLog.got later ∧
      IsSetup msg ∧ Answers text 0 ∧ IsPlay msg' ∧ Answers text' 1
  /-- The answer to the SETUP has been received, and nothing else. -/
  sendPlay : s.client.state = .sendPlay → ∃ msg wire text,
    s.log = [.emitted msg wire, .got text] ∧ IsSetup msg ∧ Answers text 0
  error : s.client.state = .error → ∀ es t, run DmsdpRun.step s es = some t →
    t.client.state = .error ∧ t.emissions = s.emissions

/-- The exchange so far, and the number that is waited for. -/
structure DmsdpRun.Inv (s : DmsdpRun) : Prop where
  exchange : Exchange s.client.state s.log
  setup : s.client.state = .waitSetupReply → s.client.pendingCseq = 0
  play : s.client.state = .waitPlayReply → s.client.pendingCseq = 1

theorem DmsdpRun.Inv.lawful {s : DmsdpRun} (h : s.Inv) : s.Lawful where
  ready := fun hstate => (hstate ▸ h.exchange).ready_eq
  sendPlay := fun hstate => (hstate ▸ h.exchange).sendPlay_eq
  error := fun hstate _ _ hrun => DmsdpRun.run_error hstate hrun

theorem DmsdpRun.inv_new : dmsdpRunNew.Inv where
  exchange := Exchange.init
  setup := fun hstate => by cases hstate
  play := fun hstate => by cases hstate

def playReply : Bytes := ascii "DMSDP/1.0 200 OK\r\nCSeq: 1\r\n\r\n"

/-- The texts that have been received. -/
def DmsdpRun.texts (s : DmsdpRun) : List Bytes :=
  s.log.filterMap fun
    | .emitted _ _ => none
    | .got text => some text

end HwPhoneLink.Dmsdp
