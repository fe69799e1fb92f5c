import HwPhoneLink.Fillp.Admission

/-!
# One address of an engine

The table is keyed by the address the datagrams come from, and no event looks
at a peer of another address. What the engine does to one entry of the table is
written out here, with the datagrams it hands to the socket for that address,
and `FillpEngine.step_lookup` says that the engine does just this.
-/

namespace HwPhoneLink.Fillp

open BigEndian Transitions

/-! ## What happens to an entry -/

/-- The datagrams sent between two states of a peer. -/
def fpNewlySent (p p' : FillpPeer) : List Bytes := p'.sent.drop p.sent.length

section Receive

variable (hmacSha256 : Bytes → Bytes → Bytes)

/-- The dispatcher on a known peer. The engine is read for its key and address. -/
def fpReceive (env : FpEnv) (e : FillpEngine) (p : FillpPeer) (buf : Bytes) : FillpPeer :=
  match fpTypeOf buf with
  | some .connReq =>
      match fillpDecodeConnReq buf with
      | none => p
      | some _ => if p.state = .pending then fpSendConnReqAck env p else p
  | some .connReqAck => fpHandleConnReqAck env e.localAddr p buf
  | some .connConfirm => fpHandleConnConfirm hmacSha256 env e p buf
  | some .connConfirmAck => fpHandleConnConfirmAck env p buf
  | some _ => fpDataPlane env p buf
  | none => p

/-- The server peer that a datagram from an unknown address creates. -/
def fpAdmit (env : FpEnv) (e : FillpEngine) (source : FpAddr) (buf : Bytes) : Option FillpPeer :=
  match fpTypeOf buf with
  | some .connReq => (fillpDecodeConnReq buf).map fun r =>
      fpSendConnReqAck env (fpServerPeer hmacSha256 env e source r)
  | _ => none

/-- A datagram for an entry: the entry after it, and what is sent. -/
def fpEntryDatagram (env : FpEnv) (e : FillpEngine) (source : FpAddr) (buf : Bytes) :
    Option FillpPeer → Option FillpPeer × List Bytes
  | none => (fpAdmit hmacSha256 env e source buf,
      ((fpAdmit hmacSha256 env e source buf).map FillpPeer.sent).getD [])
  | some p => (some (fpReceive hmacSha256 env e p buf),
      fpNewlySent p (fpReceive hmacSha256 env e p buf))

end Receive

/-- The tick on an entry. A peer that is to be finalized leaves the table. -/
def fpEntryTick (env : FpEnv) (localAddr : Bytes) (fill : Option FpFill) :
    Option FillpPeer → Option FillpPeer × List Bytes
  | none => (none, [])
  | some p =>
      let r := fpTickPeer env localAddr fill p
      (if r.2 then none else some r.1, fpNewlySent p r.1)

/-- The peer that a connect puts into the table. -/
def fpConnected (env : FpEnv) (sendOk : Bool) : FillpPeer :=
  if sendOk then fpResendConnReq (fpClientPeer env) else fpPeerRequestClose env (fpClientPeer env)

/-- What an event of the engine does to the entry of an address. -/
def fpEntryStep (hmacSha256 : Bytes → Bytes → Bytes) (e : FillpEngine) (a : FpAddr)
    (ev : FpEngineEv) (entry : Option FillpPeer) : Option FillpPeer :=
  match ev with
  | .datagram env source buf =>
      if source = a then (fpEntryDatagram hmacSha256 env e a buf entry).1 else entry
  | .tick env fills => (fpEntryTick env e.localAddr (fills a) entry).1
  | .connect env addr sendOk => if addr = a then some (fpConnected env sendOk) else entry
  | .send addr data => if addr = a then entry.map fun p => fillpPeerSend p data else entry
  | .close env addr => if addr = a then entry.map (fpPeerRequestClose env) else entry
  | .shutdown => entry.filter fun p => p.state = .closed

/-- What an event makes the engine hand to the socket for an address. -/
def fpEntrySends (hmacSha256 : Bytes → Bytes → Bytes) (e : FillpEngine) (a : FpAddr)
    (ev : FpEngineEv) (entry : Option FillpPeer) : List Bytes :=
  match ev with
  | .datagram env source buf =>
      if source = a then (fpEntryDatagram hmacSha256 env e a buf entry).2 else []
  | .tick env fills => (fpEntryTick env e.localAddr (fills a) entry).2
  | .connect env addr sendOk => if addr = a then (fpConnected env sendOk).sent else []
  | .close env addr =>
      match entry with
      | some p => if addr = a then fpNewlySent p (fpPeerRequestClose env p) else []
      | none => []
  | .send _ _ => []
  | .shutdown => []

/-! ## The settings of the engine -/

/-- What `fillp_engine_new` sets up for good. -/
def FillpEngine.settings (e : FillpEngine) : UInt16 × Bytes × Bytes :=
  (e.port, e.macKey, e.localAddr)

theorem FillpEngine.onPeer_settings (e : FillpEngine) (a : FpAddr) (f : FillpPeer → FillpPeer) :
    (e.onPeer a f).settings = e.settings := by
  unfold FillpEngine.onPeer
  split <;> rfl

theorem foldl_fpPeerFinalize_settings (bs : List FpAddr) : ∀ e : FillpEngine,
    (bs.foldl fpPeerFinalize e).settings = e.settings := by
  induction bs with
  | nil => intro e; rfl
  | cons b bs ih =>
      intro e
      rw [List.foldl_cons, ih, fpPeerFinalize]
      split
      · rfl
      split <;> rfl

theorem foldl_fpTickOne_settings (env : FpEnv) (fills : FpAddr → Option FpFill)
    (bs : List FpAddr) : ∀ acc : FillpEngine × List FpAddr,
    (bs.foldl (fpTickOne env fills) acc).1.settings = acc.1.settings := by
  induction bs with
  | nil => intro acc; rfl
  | cons b bs ih =>
      intro acc
      rw [List.foldl_cons, ih, fpTickOne]
      split <;> rfl

theorem FillpEngine.step_settings {hmacSha256 : Bytes → Bytes → Bytes} {e e' : FillpEngine}
    {ev : FpEngineEv} (hs : e.step hmacSha256 ev = some e') : e'.settings = e.settings := by
  unfold FillpEngine.step at hs
  split at hs
  · cases hs
    rfl
  simp only [Option.some.injEq] at hs
  subst hs
  cases ev with
  | datagram env source buf =>
      change (fpHandleDatagram hmacSha256 env e source buf).settings = e.settings
      unfold fpHandleDatagram
      split
      · unfold fpHandleConnReq
        split
        · rfl
        split
        · split <;> rfl
        · rfl
      · exact e.onPeer_settings source _
      · exact e.onPeer_settings source _
      · exact e.onPeer_settings source _
      · exact e.onPeer_settings source _
      · rfl
  | tick env fills =>
      exact (foldl_fpPeerFinalize_settings _ _).trans (foldl_fpTickOne_settings env fills _ _)
  | connect env addr sendOk => rfl
  | send addr data => exact e.onPeer_settings addr _
  | close env addr => exact e.onPeer_settings addr _
  | shutdown => exact foldl_fpPeerFinalize_settings _ _

theorem FillpEngine.step_localAddr {hmacSha256 : Bytes → Bytes → Bytes} {e e' : FillpEngine}
    {ev : FpEngineEv} (hs : e.step hmacSha256 ev = some e') : e'.localAddr = e.localAddr :=
  congrArg (fun c => c.2.2) (FillpEngine.step_settings hs)

/-! ## The engine acts on each entry by itself -/

theorem FillpEngine.lookup_setPeer (e : FillpEngine) (a b : FpAddr) (p : FillpPeer) :
    (e.setPeer b p).peers.lookup a = if b = a then some p else e.peers.lookup a := by
  change (e.peers.insert b p).lookup a = _
  split
  · rename_i hb
    rw [hb, AList.lookup_insert]
  · rename_i hb
    exact AList.lookup_insert_ne fun h => hb h.symm

theorem FillpEngine.lookup_onPeer (e : FillpEngine) (a b : FpAddr) (f : FillpPeer → FillpPeer) :
    (e.onPeer b f).peers.lookup a =
      if b = a then (e.peers.lookup a).map f else e.peers.lookup a := by
  unfold FillpEngine.onPeer
  split
  · rename_i hnone
    split
    · rename_i hb
      rw [← hb, hnone]
      rfl
    · rfl
  · rename_i p hp
    rw [FillpEngine.lookup_setPeer]
    split
    · rename_i hb
      rw [← hb, hp]
      rfl
    · rfl

theorem fpHandleDatagram_lookup (hmacSha256 : Bytes → Bytes → Bytes) (env : FpEnv)
    (e : FillpEngine) (source a : FpAddr) (buf : Bytes) :
    (fpHandleDatagram hmacSha256 env e source buf).peers.lookup a =
      if source = a then (fpEntryDatagram hmacSha256 env e a buf (e.peers.lookup a)).1
      else e.peers.lookup a := by
  have hentry : (fpEntryDatagram hmacSha256 env e a buf (e.peers.lookup a)).1 =
      match e.peers.lookup a with
      | none => fpAdmit hmacSha256 env e a buf
      | some p => some (fpReceive hmacSha256 env e p buf) := by
    cases e.peers.lookup a <;> rfl
  -- the cases that only look at a known peer
  have hknown : ∀ f : FillpPeer → FillpPeer, (∀ p, fpReceive hmacSha256 env e p buf = f p) →
      fpAdmit hmacSha256 env e a buf = none →
      (e.onPeer source f).peers.lookup a =
        if source = a then (fpEntryDatagram hmacSha256 env e a buf (e.peers.lookup a)).1
        else e.peers.lookup a := by
    intro f hf hadmit
    rw [FillpEngine.lookup_onPeer, hentry, hadmit]
    cases e.peers.lookup a <;> simp [hf]
  unfold fpHandleDatagram
  cases htype : fpTypeOf buf with
  | none =>
      rw [hentry]
      simp only [fpAdmit, fpReceive, htype]
      cases e.peers.lookup a <;> simp
  | some t =>
      cases t with
      | connReq =>
          simp only [fpHandleConnReq]
          rw [hentry]
          by_cases hsource : source = a
          · subst hsource
            simp only [fpAdmit, fpReceive, htype, if_true]
            cases hdec : fillpDecodeConnReq buf with
            | none => cases e.peers.lookup source <;> rfl
            | some r =>
                cases hlook : e.peers.lookup source with
                | none => simp [FillpEngine.lookup_setPeer]
                | some p =>
                    simp only
                    split
                    · simp [FillpEngine.lookup_setPeer]
                    · exact hlook
          · rw [if_neg hsource]
            split
            · rfl
            split
            · split
              · rw [FillpEngine.lookup_setPeer, if_neg hsource]
              · rfl
            · rw [FillpEngine.lookup_setPeer, if_neg hsource]
      | connReqAck => exact hknown _ (fun p => by simp [fpReceive, htype]) (by simp [fpAdmit, htype])
      | connConfirm => exact hknown _ (fun p => by simp [fpReceive, htype]) (by simp [fpAdmit, htype])
      | connConfirmAck =>
          exact hknown _ (fun p => by simp [fpReceive, htype]) (by simp [fpAdmit, htype])
      | _ => exact hknown _ (fun p => by simp [fpReceive, htype]) (by simp [fpAdmit, htype])

/-- **When the tick finalizes.** The peer is closing after its pump, and the close
has drained or has timed out. -/
theorem fpTickPeer_finalize {env : FpEnv} {localAddr : Bytes} {fill : Option FpFill}
    {p : FillpPeer} (h : (fpTickPeer env localAddr fill p).2 = true) :
    (fpTickPeer env localAddr fill p).1 = fpPump env fill p ∧
      (fpPump env fill p).state = .closing ∧
      (fpCloseDrained (fpPump env fill p) = true ∨
        env.now - (fpPump env fill p).tStageMs ≥ fpCloseTimeoutMs) := by
  have hopen : (fpTickPeer env localAddr fill p) = (fpPump env fill p,
      decide ((fpPump env fill p).state = .closing) && (fpCloseDrained (fpPump env fill p) ||
        decide (env.now - (fpPump env fill p).tStageMs ≥ fpCloseTimeoutMs))) →
      (fpTickPeer env localAddr fill p).1 = fpPump env fill p ∧
      (fpPump env fill p).state = .closing ∧
      (fpCloseDrained (fpPump env fill p) = true ∨
        env.now - (fpPump env fill p).tStageMs ≥ fpCloseTimeoutMs) := by
    intro heq
    rw [heq] at h ⊢
    simp only [Bool.and_eq_true, Bool.or_eq_true, decide_eq_true_eq] at h
    exact ⟨rfl, h⟩
  cases hst : p.state with
  | pending =>
      simp only [fpTickPeer, hst] at h
      split at h
      · cases h
      split at h <;> cases h
  | closed => simp [fpTickPeer, hst] at h
  | established => exact hopen (by simp [fpTickPeer, hst])
  | closing => exact hopen (by simp [fpTickPeer, hst])

theorem fpPeerFinalize_lookup (e : FillpEngine) (a b : FpAddr) :
    (fpPeerFinalize e b).peers.lookup a =
      if b = a then (e.peers.lookup a).filter fun p => p.state = .closed else e.peers.lookup a := by
  unfold fpPeerFinalize
  split
  · rename_i hnone
    split
    · rename_i hb
      rw [← hb, hnone]
      rfl
    · rfl
  · rename_i p hp
    by_cases hclosed : p.state = .closed
    · rw [if_pos hclosed]
      split
      · rename_i hb
        rw [← hb, hp]
        simp [Option.filter, hclosed]
      · rfl
    · rw [if_neg hclosed]
      change (e.peers.erase b).lookup a = _
      split
      · rename_i hb
        rw [← hb, hp, AList.lookup_erase]
        simp [Option.filter, hclosed]
      · rename_i hb
        exact AList.lookup_erase_ne fun h => hb h.symm

/-- Finalizing a list of addresses: an entry is touched if it is in the list. -/
theorem foldl_fpPeerFinalize_lookup (bs : List FpAddr) (a : FpAddr) : ∀ e : FillpEngine,
    (bs.foldl fpPeerFinalize e).peers.lookup a =
      if a ∈ bs then (e.peers.lookup a).filter fun p => p.state = .closed
      else e.peers.lookup a := by
  induction bs with
  | nil => intro e; rfl
  | cons b bs ih =>
      intro e
      rw [List.foldl_cons, ih, fpPeerFinalize_lookup]
      by_cases hb : b = a
      · subst hb
        cases e.peers.lookup b with
        | none => simp
        | some p => by_cases hp : p.state = .closed <;> simp [Option.filter, hp]
      · have hb' : a ≠ b := fun h => hb h.symm
        simp [hb, hb']

/-- The first loop of the tick, on the addresses that are still ahead. -/
theorem foldl_fpTickOne_lookup (env : FpEnv) (fills : FpAddr → Option FpFill) (a : FpAddr)
    (as : List FpAddr) : ∀ acc : FillpEngine × List FpAddr, as.Nodup → a ∉ acc.2 ∨ a ∉ as →
      (as.foldl (fpTickOne env fills) acc).1.peers.lookup a =
        (if a ∈ as then (acc.1.peers.lookup a).map fun p =>
          (fpTickPeer env acc.1.localAddr (fills a) p).1 else acc.1.peers.lookup a) ∧
      (a ∈ (as.foldl (fpTickOne env fills) acc).2 ↔ a ∈ acc.2 ∨ (a ∈ as ∧
        ∃ p, acc.1.peers.lookup a = some p ∧
          (fpTickPeer env acc.1.localAddr (fills a) p).2 = true)) := by
  induction as with
  | nil => intro acc _ _; simp
  | cons b bs ih =>
      intro acc hnodup hnew
      obtain ⟨hb, hbs⟩ := List.nodup_cons.mp hnodup
      have hone : (fpTickOne env fills acc b).1.localAddr = acc.1.localAddr :=
        congrArg (fun c => c.2.2) (foldl_fpTickOne_settings env fills [b] acc)
      by_cases hba : b = a
      · subst hba
        obtain ⟨hlook, hmem⟩ := ih (fpTickOne env fills acc b) hbs (Or.inr hb)
        rw [List.foldl_cons, hlook, if_neg hb, hmem]
        constructor
        · unfold fpTickOne
          split
          · rename_i hnone
            simp [hnone]
          · rename_i p hp
            simp [FillpEngine.lookup_setPeer, hp]
        · unfold fpTickOne
          split
          · rename_i hnone
            simp [hb, hnone]
          · rename_i p hp
            simp only [hb, hp]
            by_cases hgone : (fpTickPeer env acc.1.localAddr (fills b) p).2 = true
            · simp [hgone]
            · simp [hgone]
      · have hkeep : (fpTickOne env fills acc b).1.peers.lookup a = acc.1.peers.lookup a := by
          unfold fpTickOne
          split
          · rfl
          · rw [FillpEngine.lookup_setPeer, if_neg hba]
        have hlist : a ∈ (fpTickOne env fills acc b).2 ↔ a ∈ acc.2 := by
          have hab : a ≠ b := fun h => hba h.symm
          unfold fpTickOne
          split
          · rfl
          · simp only
            split <;> simp [hab]
        have hnew' : a ∉ (fpTickOne env fills acc b).2 ∨ a ∉ bs := by
          rw [hlist]
          exact hnew.imp_right fun h hmem => h (List.mem_cons_of_mem _ hmem)
        obtain ⟨hlook, hmem⟩ := ih (fpTickOne env fills acc b) hbs hnew'
        have hab : a ≠ b := fun h => hba h.symm
        rw [List.foldl_cons, hlook, hmem, hone, hkeep, hlist]
        constructor
        · simp [hab]
        · simp [hab]

theorem FillpEngine.mem_keys (e : FillpEngine) (a : FpAddr) :
    a ∈ e.peers.keys ↔ (e.peers.lookup a).isSome = true := AList.lookup_isSome.symm

theorem fpOnTick_lookup (env : FpEnv) (fills : FpAddr → Option FpFill) (e : FillpEngine)
    (a : FpAddr) : (fpOnTick env fills e).peers.lookup a =
      (fpEntryTick env e.localAddr (fills a) (e.peers.lookup a)).1 := by
  obtain ⟨hlook, hmem⟩ := foldl_fpTickOne_lookup env fills a e.peers.keys (e, [])
    e.peers.keys_nodup (Or.inl List.not_mem_nil)
  have hkeys := e.mem_keys a
  simp only [fpOnTick, foldl_fpPeerFinalize_lookup]
  rw [hlook]
  cases hp : e.peers.lookup a with
  | none =>
      rw [hp] at hkeys hmem
      simp only [Option.isSome_none, Bool.false_eq_true, iff_false] at hkeys
      simp [fpEntryTick, hkeys]
  | some p =>
      rw [hp] at hkeys hmem
      simp only [Option.isSome_some, iff_true] at hkeys
      simp only [hkeys, List.not_mem_nil, Option.some.injEq, exists_eq_left', true_and,
        false_or] at hmem
      simp only [hkeys, fpEntryTick, if_true, Option.map_some]
      by_cases hfin : (fpTickPeer env e.localAddr (fills a) p).2 = true
      · obtain ⟨heq, hclosing, -⟩ := fpTickPeer_finalize hfin
        rw [if_pos (hmem.mpr hfin), if_pos hfin, heq]
        simp [Option.filter, hclosing]
      · rw [if_neg fun h => hfin (hmem.mp h), if_neg hfin]

/-- **One entry at a time.** -/
theorem FillpEngine.step_lookup {hmacSha256 : Bytes → Bytes → Bytes} {e e' : FillpEngine}
    {ev : FpEngineEv} (hopen : e.closeInProgress = false) (hs : e.step hmacSha256 ev = some e')
    (a : FpAddr) : e'.peers.lookup a = fpEntryStep hmacSha256 e a ev (e.peers.lookup a) := by
  unfold FillpEngine.step at hs
  rw [hopen, if_neg (by simp)] at hs
  simp only [Option.some.injEq] at hs
  subst hs
  cases ev with
  | datagram env source buf => exact fpHandleDatagram_lookup hmacSha256 env e source a buf
  | tick env fills => exact fpOnTick_lookup env fills e a
  | connect env addr sendOk => exact FillpEngine.lookup_setPeer e a addr _
  | send addr data => exact FillpEngine.lookup_onPeer e a addr _
  | close env addr => exact FillpEngine.lookup_onPeer e a addr _
  | shutdown =>
      change (fpEngineShutdown e).peers.lookup a = _
      rw [fpEngineShutdown, foldl_fpPeerFinalize_lookup]
      have hkeys := e.mem_keys a
      cases hp : e.peers.lookup a with
      | none => simp [fpEntryStep]
      | some p =>
          rw [hp] at hkeys
          rw [if_pos (hkeys.mpr rfl)]
          rfl

end HwPhoneLink.Fillp
