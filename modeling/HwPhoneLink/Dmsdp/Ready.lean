import HwPhoneLink.Dmsdp.Isolation

/-!
# The input sequence

`dmsdp_handle_reply` acts on the state of the client after a reply, and a client
that is ready accepts every reply. So a session sends the input sequence when its
client becomes ready, and again with every DMSDP message that follows.
-/

namespace HwPhoneLink.Dmsdp

open BigEndian Transitions HwPhoneLink.Remote HwPhoneLink.Softbus

/-! ## What a session promises -/

/-- The packets of `send_input_sequence`. -/
def inputSequence : List Bytes := inputEvents.zipIdx.filterMap fun x => inputPacket x.1 x.2

/-- The lengths that the source gives. -/
example : inputSequence.map List.length = [28, 28, 28, 26, 26, 26, 20, 22, 24, 22, 24, 24] := by
  decide +kernel

def inputsOf (sends : List (DaemonSend × Bool)) : List Bytes :=
  sends.filterMap fun
    | (.input packet, _) => some packet
    | _ => none

/-- A NoCrypto frame whose text parses. -/
def IsDmsdp (data : Bytes) : Prop :=
  ∃ text p, dmsdpNocrypto data = some text ∧ dmsdpParse text = .ok p

def SessionView.state (v : SessionView) : Option DmsdpClientState := v.client.map DmsdpClient.state

structure SessionView.Lawful (v : SessionView) : Prop where
  /-- The packets of one sequence, as far as the sends go. -/
  once : (v.turns.flatMap fun t => inputsOf t.sends) <+: inputSequence
  transition : ∀ t ∈ v.turns, inputsOf t.sends ≠ [] →
    t.before ≠ some .ready ∧ t.after = some .ready
  ignored : ∀ t ∈ v.turns, t.before = some .ready → IsDmsdp t.data → t.sends = []

/-- No DMSDP message comes once the client of session `i` is ready. -/
def Daemon.QuietWhenReady (i : ℕ) (d : Daemon) (e : SessionEv) : Prop :=
  match e with
  | .opened _ _ _ => True
  | .data _ data => ∀ v, d.view i = some v → v.state = some .ready → ¬ IsDmsdp data

/-! ## Sends -/

section
variable {crypto : SoftbusCrypto} {json : JsonGlib} {config : DaemonConfig} {env : DaemonEnv}
  {data : Bytes} {p : DmsdpPlane}

theorem inputsOf_append (sends sends' : List (DaemonSend × Bool)) :
    inputsOf (sends ++ sends') = inputsOf sends ++ inputsOf sends' :=
  List.filterMap_append

/-- The loop sends the packets in order and stops where a send fails. -/
theorem sendInputs_inputs (events : List (RemoteInputEvent × ℕ)) : ∀ p : DmsdpPlane,
    ∃ l, inputsOf (sendInputs env events p).sends = inputsOf p.sends ++ l ∧
      l <+: events.filterMap fun x => inputPacket x.1 x.2 := by
  induction events with
  | nil => exact fun p => ⟨[], (List.append_nil _).symm, List.nil_prefix⟩
  | cons x events ih =>
      intro p
      obtain ⟨ev, i⟩ := x
      unfold sendInputs
      cases hpacket : inputPacket ev i with
      | none => exact ⟨[], (List.append_nil _).symm, List.nil_prefix⟩
      | some packet =>
          have hsent : ∀ ok, inputsOf (p.sends ++ [(DaemonSend.input packet, ok)]) =
              inputsOf p.sends ++ [packet] := fun ok => inputsOf_append _ _
          have hpackets : ((ev, i) :: events).filterMap (fun x => inputPacket x.1 x.2) =
              packet :: events.filterMap fun x => inputPacket x.1 x.2 :=
            List.filterMap_cons_some hpacket
          rw [hpackets]
          simp only
          split
          · obtain ⟨l, hl, hprefix⟩ := ih (p.send env (.input packet)).1
            refine ⟨packet :: l, ?_, List.cons_prefix_cons.mpr ⟨rfl, hprefix⟩⟩
            rw [hl]
            show inputsOf (p.sends ++ [(DaemonSend.input packet, _)]) ++ l = _
            rw [hsent, List.append_assoc]
            rfl
          · exact ⟨[packet], hsent _, List.cons_prefix_cons.mpr ⟨rfl, List.nil_prefix⟩⟩

theorem sendInputs_ne_nil (events : List (RemoteInputEvent × ℕ)) : ∀ p : DmsdpPlane,
    p.sends ≠ [] → (sendInputs env events p).sends ≠ [] := by
  induction events with
  | nil => exact fun p hp => hp
  | cons x events ih =>
      intro p hp
      unfold sendInputs
      split
      · exact hp
      simp only
      split
      · exact ih _ (List.append_ne_nil_of_right_ne_nil _ (List.cons_ne_nil _ _))
      · exact List.append_ne_nil_of_right_ne_nil _ (List.cons_ne_nil _ _)

/-- At least the first packet is handed over. -/
theorem sendInputSequence_ne_nil (env : DaemonEnv) (p : DmsdpPlane) :
    (sendInputSequence env p).sends ≠ [] := by
  have hfirst : ∃ packet, inputPacket (touchAt 0 1234 5678) 0 = some packet :=
    Option.isSome_iff_exists.mp (by decide +kernel)
  obtain ⟨packet, hpacket⟩ := hfirst
  show (sendInputs env ((touchAt 0 1234 5678, 0) :: inputEvents.tail.zipIdx 1) p).sends ≠ []
  unfold sendInputs
  rw [hpacket]
  simp only
  split
  · exact sendInputs_ne_nil _ _ (List.append_ne_nil_of_right_ne_nil _ (List.cons_ne_nil _ _))
  · exact List.append_ne_nil_of_right_ne_nil _ (List.cons_ne_nil _ _)

/-- A message is no input. -/
theorem dmsdpSendMsg_inputs {item : Bytes → DaemonSend}
    (hitem : ∀ wire ok, inputsOf [(item wire, ok)] = []) (msg : DmsdpMsg) (c : DmsdpClient) :
    inputsOf (dmsdpSendMsg env item msg c p).sends = inputsOf p.sends := by
  unfold dmsdpSendMsg
  generalize dmsdpClientSend c msg (3 + dmsdpTextMax) = r
  obtain ⟨c', wire⟩ := r
  cases wire with
  | none => rfl
  | some wire =>
      have hsends : ∀ ok, inputsOf (p.sends ++ [(item wire, ok)]) = inputsOf p.sends := fun ok => by
        rw [inputsOf_append, hitem, List.append_nil]
      simp only
      split
      · exact hsends _
      · exact hsends _

/-! ## One callback -/

/-- What a callback may do with the client and the inputs: a client that is ready
stays so, and the one that becomes ready is sent the sequence. -/
structure Quiet (state state' : Option DmsdpClientState) (inputs : List Bytes) : Prop where
  stays : state = some .ready → state' = some .ready
  transition : inputs ≠ [] → state ≠ some .ready ∧ state' = some .ready
  sequence : inputs <+: inputSequence

theorem Quiet.none {state state' : Option DmsdpClientState}
    (h : state = some .ready → state' = some .ready) : Quiet state state' [] where
  stays := h
  transition := fun hne => absurd rfl hne
  sequence := List.nil_prefix

theorem inputsOf_echo (hp : inputsOf p.sends = []) :
    inputsOf (p.send env (.echo data)).1.sends = [] := by
  show inputsOf (p.sends ++ [(DaemonSend.echo data, _)]) = []
  rw [inputsOf_append, hp]
  rfl

theorem dmsdpHandleReply_quiet {c : DmsdpClient} (parsed : DmsdpParsed) (hc : c.state ≠ .ready)
    (hp : inputsOf p.sends = []) :
    Quiet (some c.state) ((dmsdpHandleReply env parsed c p).client.map DmsdpClient.state)
      (inputsOf (dmsdpHandleReply env parsed c p).sends) := by
  have hnot : some c.state ≠ some .ready := fun h => hc (Option.some.inj h)
  rcases dmsdpClientRecv_cases c parsed with
    ⟨-, -, hrecv⟩ | ⟨-, -, hrecv⟩ | ⟨hstate, -⟩ | hrecv
  · -- the SETUP is answered, and the PLAY goes out
    have heq : dmsdpHandleReply env parsed c p = dmsdpSendMsg env .play
        (dmsdpMsgPlay 1 (some dmsdpStandService) 0 1) ⟨.sendPlay, c.pendingCseq⟩ p := by
      unfold dmsdpHandleReply
      rw [hrecv]
    rw [heq, dmsdpSendMsg_inputs (fun _ _ => rfl), hp]
    exact Quiet.none (fun h => absurd h hnot)
  · -- the PLAY is answered
    have heq : dmsdpHandleReply env parsed c p = sendInputSequence env
        { p with client := some ⟨.ready, c.pendingCseq⟩, ready := true } := by
      unfold dmsdpHandleReply
      rw [hrecv]
    rw [heq, sendInputSequence, sendInputs_client]
    have hloop : ∃ l, inputsOf (sendInputs env inputEvents.zipIdx
        { p with client := some ⟨.ready, c.pendingCseq⟩, ready := true }).sends =
          inputsOf p.sends ++ l ∧ l <+: inputSequence := sendInputs_inputs _ _
    obtain ⟨l, hl, hprefix⟩ := hloop
    have hinputs : inputsOf (sendInputs env inputEvents.zipIdx
        { p with client := some ⟨.ready, c.pendingCseq⟩, ready := true }).sends = l :=
      hl.trans (congrArg (· ++ l) hp)
    rw [hinputs]
    exact ⟨fun _ => rfl, fun _ => ⟨hnot, rfl⟩, hprefix⟩
  · exact absurd hstate hc
  · have heq : dmsdpHandleReply env parsed c p =
        { p with client := some ⟨.error, c.pendingCseq⟩ }.fail := by
      unfold dmsdpHandleReply
      rw [hrecv]
    rw [heq]
    show Quiet _ (some DmsdpClientState.error) (inputsOf p.sends)
    rw [hp]
    exact Quiet.none (fun h => absurd h hnot)

theorem onControl_quiet (hp : inputsOf p.sends = [])
    (hquiet : p.client.map DmsdpClient.state = some .ready → ¬ IsDmsdp data) :
    Quiet (p.client.map DmsdpClient.state)
      ((onControl env data p).client.map DmsdpClient.state)
      (inputsOf (onControl env data p).sends) := by
  have hecho : Quiet (p.client.map DmsdpClient.state)
      ((p.send env (.echo data)).1.client.map DmsdpClient.state)
      (inputsOf (p.send env (.echo data)).1.sends) := by
    rw [inputsOf_echo hp]
    exact Quiet.none (fun h => h)
  unfold onControl
  cases hclient : p.client with
  | none =>
      rw [hclient] at hecho
      exact hecho
  | some c =>
      rw [hclient] at hecho hquiet
      simp only
      split
      · exact hecho
      split
      · exact hecho
      rename_i text htext
      split
      · rename_i parsed hparsed
        refine dmsdpHandleReply_quiet parsed (fun hready => ?_) hp
        exact hquiet (congrArg some hready) ⟨text, parsed, htext, hparsed⟩
      · show Quiet _ (p.client.map DmsdpClient.state) (inputsOf p.sends)
        rw [hclient, hp]
        exact Quiet.none (fun h => h)

/-- A DMSDP message for a client that is ready is answered. -/
theorem onControl_loud {c : DmsdpClient} (hc : p.client = some c) (hready : c.state = .ready)
    (hdata : IsDmsdp data) : (onControl env data p).sends ≠ [] := by
  obtain ⟨text, parsed, htext, hparsed⟩ := hdata
  have hrecv : dmsdpClientRecv c parsed = (c, true) := by
    unfold dmsdpClientRecv
    rw [hready]
  have heq : onControl env data p = dmsdpHandleReply env parsed c p := by
    unfold onControl
    rw [hc]
    simp only [hready, reduceCtorEq, if_false, htext, hparsed]
  have heq' : dmsdpHandleReply env parsed c p =
      sendInputSequence env { p with client := some c, ready := true } := by
    unfold dmsdpHandleReply
    rw [hrecv]
    simp only [hready]
  rw [heq, heq']
  exact sendInputSequence_ne_nil env _

/-- A data callback, and the client is there only after the authentication. -/
theorem onSessionData_quiet {auth : SoftbusAuth} (hdone : p.client ≠ none → auth.state = .done)
    (hp : inputsOf p.sends = [])
    (hquiet : p.client.map DmsdpClient.state = some .ready → ¬ IsDmsdp data) :
    Quiet (p.client.map DmsdpClient.state)
        ((onSessionData crypto json config env data auth p).2.1.client.map DmsdpClient.state)
        (inputsOf (onSessionData crypto json config env data auth p).2.1.sends) ∧
      ((onSessionData crypto json config env data auth p).2.1.client ≠ none →
        (onSessionData crypto json config env data auth p).1.state = .done) := by
  by_cases hauth : auth.state = .done
  · rw [onSessionData_done hauth]
    exact ⟨onControl_quiet hp hquiet, fun _ => hauth⟩
  · have hnone : p.client = none := by
      by_contra hsome
      exact hauth (hdone hsome)
    rw [onSessionData_auth hauth, hnone]
    have hhonest : (softbusAuthFeed crypto json { env.auth with wantsReply := true } auth
        data).Honest := softbusAuthFeed_honest _ _ data
    generalize softbusAuthFeed crypto json { env.auth with wantsReply := true } auth data = r
      at hhonest ⊢
    have hreply : inputsOf (p.sendReply env r.outJson).sends = [] := by
      cases r.outJson with
      | none => exact hp
      | some reply =>
          show inputsOf (p.sends ++ [(DaemonSend.auth reply, _)]) = []
          rw [inputsOf_append, hp]
          rfl
    have hsetup : inputsOf (dmsdpSendSetup env config.streamPort dmsdpClientNew
        (p.sendReply env r.outJson)).sends = [] :=
      (dmsdpSendMsg_inputs (fun _ _ => rfl) _ _).trans hreply
    have hclient : (p.sendReply env r.outJson).client = none :=
      (DmsdpPlane.sendReply_client env _ p).trans hnone
    simp only
    generalize dmsdpSendSetup env config.streamPort dmsdpClientNew (p.sendReply env r.outJson) = q
      at hsetup ⊢
    split
    · rename_i hmade
      rw [hsetup]
      exact ⟨Quiet.none (fun h => by cases h), fun _ => hhonest hmade.1⟩
    · rw [hreply]
      exact ⟨Quiet.none (fun h => by cases h), fun h => absurd hclient h⟩

/-! ## Runs of one session -/

/-- The client comes with the end of the authentication, and no input has been sent
before the client is ready. -/
structure SessionView.Inv (v : SessionView) : Prop where
  lawful : v.Lawful
  done : v.client ≠ none → v.auth.state = .done
  silent : v.state ≠ some .ready → (v.turns.flatMap fun t => inputsOf t.sends) = []

theorem SessionView.inv_opened (r : SoftbusAuth × List (DaemonSend × Bool))
    (hr : inputsOf r.2 = []) : (SessionView.mk r.1 none [⟨none, [], r.2, none⟩]).Inv := by
  have hall : (([⟨none, [], r.2, none⟩] : List SessionTurn).flatMap fun t => inputsOf t.sends) =
      [] := by
    rw [List.flatMap_singleton]
    exact hr
  constructor
  · constructor
    · rw [hall]
      exact List.nil_prefix
    · intro t ht hne
      rw [List.mem_singleton.mp ht] at hne
      exact absurd hr hne
    · intro t ht hready
      rw [List.mem_singleton.mp ht] at hready
      cases hready
  · exact fun h => absurd rfl h
  · exact fun _ => hall

theorem onSessionOpened_inputs (authId : UInt64) (nonce : AuthNonce) :
    inputsOf (onSessionOpened json config env authId nonce).2 = [] := by
  unfold onSessionOpened
  simp only
  split
  · cases (softbusAuthBeginActive json { env.auth with wantsReply := true }
      (softbusAuthNew config.device (some config.psk) authId nonce)).outJson <;> rfl
  · rfl

theorem SessionView.inv_onData {v : SessionView} (h : v.Inv)
    (hquiet : v.state = some .ready → ¬ IsDmsdp data) :
    (v.onData crypto json config env data).Inv := by
  obtain ⟨hlawful, hauth, hsilent⟩ := h
  have hturn : Quiet v.state (v.onData crypto json config env data).state
        (inputsOf (onSessionData crypto json config env data v.auth
          ⟨v.client, false, false, []⟩).2.1.sends) ∧
      ((v.onData crypto json config env data).client ≠ none →
        (v.onData crypto json config env data).auth.state = .done) :=
    onSessionData_quiet (p := ⟨v.client, false, false, []⟩) hauth rfl hquiet
  obtain ⟨hturn, hdone⟩ := hturn
  have hall : ((v.onData crypto json config env data).turns.flatMap fun t => inputsOf t.sends) =
      (v.turns.flatMap fun t => inputsOf t.sends) ++
        inputsOf (onSessionData crypto json config env data v.auth
          ⟨v.client, false, false, []⟩).2.1.sends := by
    show (v.turns ++ [_]).flatMap (fun t : SessionTurn => inputsOf t.sends) = _
    rw [List.flatMap_append, List.flatMap_singleton]
  constructor
  · constructor
    · rw [hall]
      by_cases hinputs : inputsOf (onSessionData crypto json config env data v.auth
          ⟨v.client, false, false, []⟩).2.1.sends = []
      · rw [hinputs, List.append_nil]
        exact hlawful.once
      · rw [hsilent (hturn.transition hinputs).1]
        exact hturn.sequence
    · intro t ht hne
      rcases List.mem_append.mp ht with hold | hnew
      · exact hlawful.transition t hold hne
      · rw [List.mem_singleton.mp hnew] at hne ⊢
        exact hturn.transition hne
    · intro t ht hready hdata
      rcases List.mem_append.mp ht with hold | hnew
      · exact hlawful.ignored t hold hready hdata
      · rw [List.mem_singleton.mp hnew] at hready hdata
        exact absurd hdata (hquiet hready)
  · exact hdone
  · intro hnot
    have hinputs : inputsOf (onSessionData crypto json config env data v.auth
        ⟨v.client, false, false, []⟩).2.1.sends = [] := by
      by_contra hne
      exact hnot (hturn.transition hne).2
    rw [hall, hsilent (fun h => hnot (hturn.stays h)), hinputs]
    rfl

/-- A DMSDP message for a session whose client is ready. -/
theorem SessionView.not_lawful_onData {v : SessionView} (h : v.Inv) (hready : v.state = some .ready)
    (hdata : IsDmsdp data) : ¬ (v.onData crypto json config env data).Lawful := by
  intro hlawful
  obtain ⟨c, hc, hstate⟩ := Option.map_eq_some_iff.mp hready
  have hdone : v.auth.state = .done := h.done (by rw [hc]; exact Option.some_ne_none c)
  have hsends : (onSessionData crypto json config env data v.auth
      ⟨v.client, false, false, []⟩).2.1.sends = [] :=
    hlawful.ignored _ (List.mem_append_right _ (List.mem_singleton_self _)) hready hdata
  rw [onSessionData_done hdone] at hsends
  exact onControl_loud hc hstate hdata hsends

/-- **When the input sequence is sent at most once**: exactly as long as no DMSDP
message comes to a session whose client is ready. -/
theorem Daemon.inputs_once_iff (i : ℕ) (es : List SessionEv) :
    (∀ pre, pre <+: es → ∀ d,
        run (fun d e => Daemon.step crypto json config d (i, e)) daemonNew pre = some d →
          ∀ v, d.view i = some v → v.Lawful) ↔
      Meets (fun d e => Daemon.step crypto json config d (i, e)) (Daemon.QuietWhenReady i)
        daemonNew es := by
  refine good_iff_meets (fun d => d.Alone i ∧ ∀ v, d.view i = some v → v.Inv) ?_ ?_ ?_ ?_
  · exact fun d h v hv => (h.2 v hv).lawful
  · rintro d e d' ⟨halone, hinv⟩ hquiet hstep
    have hown := (Daemon.step_isolated halone.wf (halone.ownClient e) hstep).own
    refine ⟨halone.step hstep, fun v hv => ?_⟩
    rw [hv] at hown
    cases hview : d.view i with
    | none =>
        rw [hview] at hown
        cases e with
        | opened env authId nonce =>
            cases hown
            exact SessionView.inv_opened _ (onSessionOpened_inputs authId nonce)
        | data env data => cases hown
    | some w =>
        rw [hview] at hown
        cases e with
        | opened env authId nonce => cases hown
        | data env data =>
            cases hown
            exact SessionView.inv_onData (hinv w hview) (hquiet w hview)
  · rintro d e ⟨halone, hinv⟩ hbad
    cases e with
    | opened env authId nonce => exact absurd trivial hbad
    | data env data =>
        simp only [Daemon.QuietWhenReady, not_forall, not_not] at hbad
        obtain ⟨v, hv, hready, hdata⟩ := hbad
        have hview : SessionView.step crypto json config (d.view i) (.data env data) =
            some (some (v.onData crypto json config env data)) := by
          rw [hv]
          rfl
        obtain ⟨d', hd'⟩ := Daemon.step_enabled hview
        refine ⟨d', hd', fun hlawful => ?_⟩
        have hown := (Daemon.step_isolated halone.wf (halone.ownClient _) hd').own
        exact SessionView.not_lawful_onData (hinv v hv) hready hdata
          (hlawful _ (Option.some.inj (hown.symm.trans hview)))
  · exact ⟨daemonNew_alone i, fun v hv => (by cases hv)⟩

end

/-! ### The answer to the PLAY comes twice -/

def twiceReady : List SessionEv :=
  eventsOf 0 (authenticate 0 ++
    [reply 0 setupReply, reply 0 playReply, reply 0 playReply])

/-- **The input sequence is sent again.** -/
theorem Daemon.not_inputs_once :
    ¬ ∀ crypto json config i es d,
      run (fun d e => Daemon.step crypto json config d (i, e)) daemonNew es = some d →
        ∀ v, d.view i = some v → v.Lawful := by
  intro h
  obtain ⟨d, hrun, hview⟩ := Option.bind_eq_some_iff.mp (show
    ((run (fun d e => Daemon.step exchangeCrypto exchangeJson pcConfig d (0, e)) daemonNew
      twiceReady).bind fun d => (d.view 0).map fun v =>
        (v.turns.flatMap fun t => inputsOf t.sends).length) = some 24 by decide +kernel)
  obtain ⟨v, hv, hcount⟩ := Option.map_eq_some_iff.mp hview
  have hprefix := (h exchangeCrypto exchangeJson pcConfig 0 twiceReady d hrun v hv).once.length_le
  have htwelve : inputSequence.length = 12 := by decide +kernel
  rw [hcount, htwelve] at hprefix
  exact absurd hprefix (by decide)

end HwPhoneLink.Dmsdp
