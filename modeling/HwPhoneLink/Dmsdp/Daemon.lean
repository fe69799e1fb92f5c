import HwPhoneLink.Dmsdp.Client
import HwPhoneLink.Remote.Input
import HwPhoneLink.Softbus.Agreement

/-!
# The DMSDP exchange of the daemon

The session callbacks of `main.c`: authentication, then DMSDP frames for the
control client and the echo of everything else. The client is a global pointer
that every completed authentication replaces; the client before is not freed,
so the clients made so far are a list and pointers are positions in it.

A callback runs to its end before the next one starts. `turns` is a history: what
each callback of a session has received and sent, and where the client that its
authentication made stood before and after.
-/

namespace HwPhoneLink.Dmsdp

open BigEndian Transitions HwPhoneLink.Remote HwPhoneLink.Softbus
open HwPhoneLink.Testfile (ascii)

def dmsdpStandService : Bytes := ascii "hwphonelink-mirror"

/-- What is handed to `softbus_session_send`. -/
inductive DaemonSend : Type where
  | auth (json : Bytes)
  | setup (wire : Bytes)
  | play (wire : Bytes)
  | input (packet : Bytes)
  | echo (data : Bytes)
deriving DecidableEq, Repr

/-- The surroundings of one callback. `send` is by the number of sends before. -/
structure DaemonEnv where
  auth : AuthEnv
  send : ℕ → Bool

/-- What a callback works on: the client behind the pointer, the flags it sets
and its sends, each with the result. -/
structure DmsdpPlane where
  client : Option DmsdpClient
  ready : Bool
  failed : Bool
  sends : List (DaemonSend × Bool)

def DmsdpPlane.send (env : DaemonEnv) (item : DaemonSend) (p : DmsdpPlane) : DmsdpPlane × Bool :=
  let ok := env.send p.sends.length
  ({ p with sends := p.sends ++ [(item, ok)] }, ok)

/-- The reply of the authentication, if there is one. -/
def DmsdpPlane.sendReply (env : DaemonEnv) (reply : Option Bytes) (p : DmsdpPlane) : DmsdpPlane :=
  match reply with
  | none => p
  | some reply => (p.send env (.auth reply)).1

def DmsdpPlane.fail (p : DmsdpPlane) : DmsdpPlane := { p with failed := true }

/-- `dmsdp_client_send` on the client and `softbus_session_send` of its text. -/
def dmsdpSendMsg (env : DaemonEnv) (item : Bytes → DaemonSend) (msg : DmsdpMsg) (c : DmsdpClient)
    (p : DmsdpPlane) : DmsdpPlane :=
  match dmsdpClientSend c msg (3 + dmsdpTextMax) with
  | (c, none) => { p with client := some c }.fail
  | (c, some wire) =>
      let r := { p with client := some c }.send env (item wire)
      if r.2 then r.1 else r.1.fail

def dmsdpSendSetup (env : DaemonEnv) (port : UInt32) (c : DmsdpClient) (p : DmsdpPlane) :
    DmsdpPlane :=
  dmsdpSendMsg env .setup (dmsdpMsgSetup 0 (some dmsdpStandService) 0 1 0 port port) c p

/-- The loop of `send_input_sequence`. -/
def sendInputs (env : DaemonEnv) : List (RemoteInputEvent × ℕ) → DmsdpPlane → DmsdpPlane
  | [], p => p
  | (ev, i) :: events, p =>
      match inputPacket ev i with
      | none => p.fail
      | some packet =>
          let r := p.send env (.input packet)
          if r.2 then sendInputs env events r.1 else r.1.fail

def sendInputSequence (env : DaemonEnv) (p : DmsdpPlane) : DmsdpPlane :=
  sendInputs env inputEvents.zipIdx p

def dmsdpHandleReply (env : DaemonEnv) (parsed : DmsdpParsed) (c : DmsdpClient) (p : DmsdpPlane) :
    DmsdpPlane :=
  match dmsdpClientRecv c parsed with
  | (c, false) => { p with client := some c }.fail
  | (c, true) =>
      match c.state with
      | .sendPlay =>
          dmsdpSendMsg env .play (dmsdpMsgPlay 1 (some dmsdpStandService) 0 1) c p
      | .ready => sendInputSequence env { p with client := some c, ready := true }
      | _ => { p with client := some c }

/-- The text of a NoCrypto frame. -/
def dmsdpNocrypto (data : Bytes) : Option Bytes :=
  if data.length < 3 ∨ u8At data 0 ≠ dmsdpFrameTypeNocrypto then none
  else
    let n := (u16At data 1).toNat
    if n ≤ dmsdpFrameMaxPayload ∧ 3 + n = data.length then some (data.drop 3) else none

/-- A session's data after its authentication. -/
def onControl (env : DaemonEnv) (data : Bytes) (p : DmsdpPlane) : DmsdpPlane :=
  let echo := (p.send env (.echo data)).1
  match p.client with
  | none => echo
  | some c =>
      if c.state = .error then echo
      else
        match dmsdpNocrypto data with
        | none => echo
        | some text =>
            match dmsdpParse text with
            | .ok parsed => dmsdpHandleReply env parsed c p
            | .error _ => p.fail

structure DaemonConfig where
  device : SoftbusDevice
  psk : Bytes
  streamPort : UInt32

section
variable (crypto : SoftbusCrypto) (json : JsonGlib) (config : DaemonConfig)

/-- `on_session_data`: the authentication, what the callback has worked on, and
whether it has made a client. -/
def onSessionData (env : DaemonEnv) (data : Bytes) (auth : SoftbusAuth) (p : DmsdpPlane) :
    SoftbusAuth × DmsdpPlane × Bool :=
  if auth.state = .done then (auth, onControl env data p, false)
  else
    let r := softbusAuthFeed crypto json { env.auth with wantsReply := true } auth data
    let p := p.sendReply env r.outJson
    if r.result = .complete ∧ config.streamPort > 0 then
      (r.auth, dmsdpSendSetup env config.streamPort dmsdpClientNew p, true)
    else (r.auth, p, false)

/-! ## The daemon -/

structure SessionTurn where
  before : Option DmsdpClientState
  data : Bytes
  sends : List (DaemonSend × Bool)
  after : Option DmsdpClientState

/-- `client` is a history: the client that the session's authentication made. -/
structure DaemonSession where
  auth : SoftbusAuth
  client : Option ℕ
  turns : List SessionTurn

structure Daemon where
  clients : List DmsdpClient
  dmsdpCl : Option ℕ
  dmsdpReady : Bool
  dmsdpFailed : Bool
  sessions : ℕ → Option DaemonSession

def daemonNew : Daemon := ⟨[], none, false, false, fun _ => none⟩

/-- The client behind a pointer. -/
def Daemon.clientAt (d : Daemon) (pointer : Option ℕ) : Option DmsdpClient :=
  pointer.bind fun k => d.clients[k]?

/-- Store a client behind a pointer. -/
def storeAt (clients : List DmsdpClient) (pointer : Option ℕ) (c : Option DmsdpClient) :
    List DmsdpClient :=
  match pointer, c with
  | some k, some c => clients.set k c
  | _, _ => clients

inductive SessionEv : Type where
  /-- The transport opens the session. -/
  | opened (env : DaemonEnv) (authId : UInt64) (nonce : AuthNonce)
  | data (env : DaemonEnv) (data : Bytes)

/-- `on_session_opened`: the authentication, and the first message. -/
def onSessionOpened (env : DaemonEnv) (authId : UInt64) (nonce : AuthNonce) :
    SoftbusAuth × List (DaemonSend × Bool) :=
  let r := softbusAuthBeginActive json { env.auth with wantsReply := true }
    (softbusAuthNew config.device (some config.psk) authId nonce)
  let sends :=
    if r.result = .send then (r.outJson.map fun first => (DaemonSend.auth first, env.send 0)).toList
    else []
  (r.auth, sends)

/-- After session `i` is opened. `r` is what `onSessionOpened` returns. -/
def Daemon.entered (d : Daemon) (i : ℕ) (r : SoftbusAuth × List (DaemonSend × Bool)) : Daemon :=
  { d with
    sessions := Function.update d.sessions i (some ⟨r.1, none, [⟨none, [], r.2, none⟩]⟩) }

/-- After a data callback of session `i`, which is `s`. `r` is what `onSessionData`
returns. -/
def Daemon.turned (d : Daemon) (i : ℕ) (s : DaemonSession) (data : Bytes)
    (r : SoftbusAuth × DmsdpPlane × Bool) : Daemon :=
  let made := some d.clients.length
  let clients :=
    if r.2.2 then d.clients ++ r.2.1.client.toList else storeAt d.clients d.dmsdpCl r.2.1.client
  let client := if r.2.2 then made else s.client
  let before := (d.clientAt s.client).map DmsdpClient.state
  let after := (client.bind fun k => clients[k]?).map DmsdpClient.state
  { clients := clients
    dmsdpCl := if r.2.2 then made else d.dmsdpCl
    dmsdpReady := d.dmsdpReady || r.2.1.ready
    dmsdpFailed := d.dmsdpFailed || r.2.1.failed
    sessions := Function.update d.sessions i
      (some ⟨r.1, client, s.turns ++ [⟨before, data, r.2.1.sends, after⟩]⟩) }

/-- One callback of session `e.1`. -/
def Daemon.step (d : Daemon) (e : ℕ × SessionEv) : Option Daemon :=
  match e.2, d.sessions e.1 with
  | .opened env authId nonce, none =>
      some (d.entered e.1 (onSessionOpened json config env authId nonce))
  | .data env data, some s =>
      some (d.turned e.1 s data (onSessionData crypto json config env data s.auth
        ⟨d.clientAt d.dmsdpCl, false, false, []⟩))
  | _, _ => none

end

/-! ## One session -/

/-- What concerns one session: its authentication, the client it has made and
its history. -/
structure SessionView where
  auth : SoftbusAuth
  client : Option DmsdpClient
  turns : List SessionTurn

def Daemon.view (d : Daemon) (i : ℕ) : Option SessionView :=
  (d.sessions i).map fun s => ⟨s.auth, d.clientAt s.client, s.turns⟩

section
variable (crypto : SoftbusCrypto) (json : JsonGlib) (config : DaemonConfig)

/-- The callback of a session whose client is behind the pointer. -/
def SessionView.onData (env : DaemonEnv) (data : Bytes) (v : SessionView) : SessionView :=
  let r := onSessionData crypto json config env data v.auth ⟨v.client, false, false, []⟩
  { auth := r.1
    client := r.2.1.client
    turns := v.turns ++ [⟨v.client.map DmsdpClient.state, data, r.2.1.sends,
      r.2.1.client.map DmsdpClient.state⟩] }

/-- A session on its own. -/
def SessionView.step : Option SessionView → SessionEv → Option (Option SessionView)
  | none, .opened env authId nonce =>
      let r := onSessionOpened json config env authId nonce
      some (some ⟨r.1, none, [⟨none, [], r.2, none⟩]⟩)
  | some v, .data env data => some (some (v.onData crypto json config env data))
  | _, _ => none

end

section
variable {crypto : SoftbusCrypto} {json : JsonGlib} {config : DaemonConfig} {env : DaemonEnv}
  {data : Bytes} {auth : SoftbusAuth} {p : DmsdpPlane}

theorem dmsdpSendMsg_client (item : Bytes → DaemonSend) (msg : DmsdpMsg) (c : DmsdpClient) :
    ∃ c', (dmsdpSendMsg env item msg c p).client = some c' := by
  unfold dmsdpSendMsg
  split
  · exact ⟨_, rfl⟩
  · simp only
    split
    · exact ⟨_, rfl⟩
    · exact ⟨_, rfl⟩

theorem dmsdpSendSetup_client (env : DaemonEnv) (port : UInt32) (c : DmsdpClient)
    (p : DmsdpPlane) : ∃ c', (dmsdpSendSetup env port c p).client = some c' :=
  dmsdpSendMsg_client _ _ c

theorem DmsdpPlane.sendReply_client (env : DaemonEnv) (reply : Option Bytes) (p : DmsdpPlane) :
    (p.sendReply env reply).client = p.client := by
  cases reply <;> rfl

/-- Sending does not look at the client behind the pointer. -/
theorem DmsdpPlane.sendReply_with (env : DaemonEnv) (reply : Option Bytes) (p : DmsdpPlane)
    (c : Option DmsdpClient) :
    ({ p with client := c } : DmsdpPlane).sendReply env reply =
      { p.sendReply env reply with client := c } := by
  cases reply <;> rfl

/-- The SETUP is sent for the client that it is given. -/
theorem dmsdpSendSetup_with (env : DaemonEnv) (port : UInt32) (c : DmsdpClient)
    (p : DmsdpPlane) (c' : Option DmsdpClient) :
    dmsdpSendSetup env port c { p with client := c' } = dmsdpSendSetup env port c p := by
  unfold dmsdpSendSetup
  generalize dmsdpMsgSetup 0 (some dmsdpStandService) 0 1 0 port port = msg
  rfl

theorem sendInputs_client (events : List (RemoteInputEvent × ℕ)) : ∀ p : DmsdpPlane,
    (sendInputs env events p).client = p.client := by
  induction events with
  | nil => intro p; rfl
  | cons x events ih =>
      intro p
      unfold sendInputs
      split
      · rfl
      simp only
      split
      · rw [ih]
        rfl
      · rfl

theorem dmsdpHandleReply_client (parsed : DmsdpParsed) (c : DmsdpClient) :
    ∃ c', (dmsdpHandleReply env parsed c p).client = some c' := by
  unfold dmsdpHandleReply
  split
  · exact ⟨_, rfl⟩
  split
  · exact dmsdpSendMsg_client _ _ _
  · exact ⟨_, sendInputs_client _ _⟩
  · exact ⟨_, rfl⟩

/-- A client is not lost. -/
theorem onControl_client {c : DmsdpClient} (hc : p.client = some c) :
    ∃ c', (onControl env data p).client = some c' := by
  unfold onControl
  rw [hc]
  simp only
  split
  · exact ⟨c, hc⟩
  split
  · exact ⟨c, hc⟩
  split
  · exact dmsdpHandleReply_client _ _
  · exact ⟨c, hc⟩

/-- What is no NoCrypto frame is echoed. -/
theorem onControl_echo (h : dmsdpNocrypto data = none) :
    onControl env data p = (p.send env (.echo data)).1 := by
  unfold onControl
  split
  · rfl
  split
  · rfl
  · rw [h]

/-- A callback before the end of the authentication. -/
theorem onSessionData_auth (hdone : auth.state ≠ .done) :
    onSessionData crypto json config env data auth p =
      let r := softbusAuthFeed crypto json { env.auth with wantsReply := true } auth data
      let p' := p.sendReply env r.outJson
      if r.result = .complete ∧ config.streamPort > 0 then
        (r.auth, dmsdpSendSetup env config.streamPort dmsdpClientNew p', true)
      else (r.auth, p', false) :=
  if_neg hdone

theorem onSessionData_done (hdone : auth.state = .done) :
    onSessionData crypto json config env data auth p = (auth, onControl env data p, false) :=
  if_pos hdone

/-- A callback that makes a client has it behind the pointer, and none is lost. -/
theorem onSessionData_client
    (h : (onSessionData crypto json config env data auth p).2.2 = true ∨ p.client ≠ none) :
    ∃ c, (onSessionData crypto json config env data auth p).2.1.client = some c := by
  by_cases hdone : auth.state = .done
  · rw [onSessionData_done hdone] at h ⊢
    obtain ⟨c, hc⟩ := Option.ne_none_iff_exists'.mp (h.resolve_left Bool.false_ne_true)
    exact onControl_client hc
  · rw [onSessionData_auth hdone] at h ⊢
    generalize softbusAuthFeed crypto json { env.auth with wantsReply := true } auth data = r at h ⊢
    simp only at h ⊢
    obtain ⟨c', hc'⟩ := dmsdpSendSetup_client env config.streamPort dmsdpClientNew
      (p.sendReply env r.outJson)
    generalize dmsdpSendSetup env config.streamPort dmsdpClientNew (p.sendReply env r.outJson) = q
      at h hc' ⊢
    split
    · exact ⟨c', hc'⟩
    · rename_i hnot
      rw [if_neg hnot] at h
      obtain ⟨c, hc⟩ := Option.ne_none_iff_exists'.mp (h.resolve_left Bool.false_ne_true)
      exact ⟨c, (DmsdpPlane.sendReply_client env _ p).trans hc⟩

/-- The client behind the pointer matters for NoCrypto frames after the
authentication only. -/
theorem onSessionData_indep (h : auth.state = .done → dmsdpNocrypto data = none)
    (c : Option DmsdpClient) :
    onSessionData crypto json config env data auth { p with client := c } =
      let r := onSessionData crypto json config env data auth p
      (r.1, { r.2.1 with client := if r.2.2 then r.2.1.client else c }, r.2.2) := by
  by_cases hdone : auth.state = .done
  · rw [onSessionData_done hdone, onSessionData_done hdone, onControl_echo (h hdone),
      onControl_echo (h hdone)]
    rfl
  · rw [onSessionData_auth hdone, onSessionData_auth hdone]
    generalize softbusAuthFeed crypto json { env.auth with wantsReply := true } auth data = r
    simp only
    rw [DmsdpPlane.sendReply_with, dmsdpSendSetup_with]
    generalize dmsdpSendSetup env config.streamPort dmsdpClientNew (p.sendReply env r.outJson) = q
    split
    · rfl
    · rfl

/-- A callback without a client leaves none unless it makes one. -/
theorem onSessionData_none (hc : p.client = none)
    (h : (onSessionData crypto json config env data auth p).2.2 = false) :
    (onSessionData crypto json config env data auth p).2.1.client = none := by
  by_cases hdone : auth.state = .done
  · rw [onSessionData_done hdone]
    unfold onControl
    rw [hc]
    exact hc
  · rw [onSessionData_auth hdone] at h ⊢
    generalize softbusAuthFeed crypto json { env.auth with wantsReply := true } auth data = r at h ⊢
    simp only at h ⊢
    generalize dmsdpSendSetup env config.streamPort dmsdpClientNew (p.sendReply env r.outJson) = q
      at h ⊢
    split
    · rename_i hmade
      rw [if_pos hmade] at h
      cases h
    · exact (DmsdpPlane.sendReply_client env _ p).trans hc

end

end HwPhoneLink.Dmsdp
