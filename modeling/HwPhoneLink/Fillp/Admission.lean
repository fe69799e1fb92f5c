import HwPhoneLink.Fillp.Engine

/-!
# Who may send data to a peer

A peer that has never been established should not deliver, buffer or
acknowledge anything (`Untouched`). The dispatcher admits DATA in CLOSING
without asking how the peer got there, so this holds along the runs in which no
DATA reaches a closing peer that was never established (`NoEarlyData`), and
fails on others. A server peer becomes established through a CONN_CONFIRM with
a verifying cookie only.
-/

namespace HwPhoneLink.Fillp

open BigEndian Transitions

/-! ## Peers that the data plane has not touched -/

structure Untouched (p : FillpPeer) : Prop where
  delivered : p.delivered = []
  ofo : p.ofo = ∅
  ofoBytes : p.ofoBytes = 0
  unacked : p.deliveredSincePack = 0
  recvPktNum : p.recvPktNum = 0
  silent : ∀ d ∈ p.sent, fpTypeOf d ≠ some .pack ∧ fpTypeOf d ≠ some .nack

/-- A peer that was never established is neither open nor touched. -/
def Unopened (p : FillpPeer) : Prop :=
  p.wasEstablished = false → p.state ≠ .established ∧ Untouched p

theorem Untouched.congr {p p' : FillpPeer} (h : Untouched p) (hs : SameRcv p p') :
    Untouched p' := by
  obtain ⟨ds, hds, hno⟩ := hs.sent
  refine ⟨hs.delivered.trans h.delivered, hs.ofo.trans h.ofo, hs.ofoBytes.trans h.ofoBytes,
    hs.unacked.trans h.unacked, hs.num.trans h.recvPktNum, ?_⟩
  intro d hd
  rw [hds, List.mem_append] at hd
  rcases hd with hd | hd
  · exact h.silent d hd
  · exact hno d hd

/-- An operation that leaves the receive side alone and opens no peer. -/
theorem Unopened.congr {p p' : FillpPeer} (h : Unopened p) (hs : SameRcv p p')
    (hstate : p'.state = .established → p.state = .established) : Unopened p' := by
  intro hnever
  obtain ⟨hclosed, hun⟩ := h (hs.opened ▸ hnever)
  exact ⟨fun he => hclosed (hstate he), hun.congr hs⟩

theorem fpClientPeer_unopened (env : FpEnv) : Unopened (fpClientPeer env) :=
  fun _ => ⟨by simp [fpClientPeer, fpPeerNew], rfl, rfl, rfl, rfl, rfl,
    by simp [fpClientPeer, fpPeerNew]⟩

theorem fpServerPeer_unopened (hmacSha256 : Bytes → Bytes → Bytes) (env : FpEnv)
    (e : FillpEngine) (source : FpAddr) (r : FpConnReq) :
    Unopened (fpServerPeer hmacSha256 env e source r) :=
  fun _ => ⟨by simp [fpServerPeer, fpPeerNew], rfl, rfl, rfl, rfl, rfl,
    by simp [fpServerPeer, fpPeerNew]⟩

theorem fpPeerEstablished_unopened (env : FpEnv) (p : FillpPeer) :
    Unopened (fpPeerEstablished env p) := by
  intro hnever
  simp [fpPeerEstablished] at hnever

/-! ## The state after an operation -/

theorem fillpPeerSend_state (p : FillpPeer) (data : Bytes) :
    (fillpPeerSend p data).state = p.state := (fillpPeerSend_keepsOpen p data).state

theorem fpPump_state (env : FpEnv) (fill : Option FpFill) (p : FillpPeer) :
    (fpPump env fill p).state = p.state := by
  have hreply : ∀ q : FillpPeer, (fpPumpReplyFin q).state = q.state := by
    intro q
    unfold fpPumpReplyFin
    split <;> rfl
  rw [fpPump, hreply]
  exact (fpPumpStages_keepsOpen env fill p).state

theorem fpPeerRequestClose_state (env : FpEnv) (p : FillpPeer) :
    (fpPeerRequestClose env p).state ≠ .established := by
  unfold fpPeerRequestClose
  split
  · rename_i h
    rcases h with h | h <;> simp [h]
  · simp

theorem fpDataPlane_state (env : FpEnv) (p : FillpPeer) (buf : Bytes) :
    (fpDataPlane env p buf).state = .established → p.state = .established := by
  by_cases hfin : fpTypeOf buf = some .fin
  · intro h
    simp only [fpDataPlane, hfin] at h
    split at h
    · unfold fpOnFin at h
      simp only at h
      split at h
      · cases h
      · rename_i hclosing
        simp only [ne_eq, Decidable.not_not] at hclosing
        rw [hclosing] at h
        cases h
    · exact h
  · intro h
    rwa [(fpDataPlane_keepsOpen env p hfin).state] at h

theorem fpDataPlane_opened (env : FpEnv) (p : FillpPeer) (buf : Bytes) :
    (fpDataPlane env p buf).wasEstablished = p.wasEstablished := by
  by_cases hfin : fpTypeOf buf = some .fin
  · simp only [fpDataPlane, hfin]
    split
    · exact (fpOnFin_sameRcv env p).opened
    · rfl
  · exact (fpDataPlane_keepsOpen env p hfin).opened

theorem fpTickPeer_state (env : FpEnv) (localAddr : Bytes) (fill : Option FpFill)
    (p : FillpPeer) :
    (fpTickPeer env localAddr fill p).1.state = .established → p.state = .established := by
  unfold fpTickPeer
  split
  · rename_i hpending
    split
    · intro h
      exact absurd h (fpPeerRequestClose_state env p)
    split
    · intro h
      simp only at h
      split at h <;> exact h
    · exact id
  · exact id
  · intro h
    rwa [fpPump_state] at h

/-! ## Operations on an untouched peer -/

theorem fpSendto_sameRcv (p : FillpPeer) {d : Bytes}
    (hd : fpTypeOf d ≠ some .pack ∧ fpTypeOf d ≠ some .nack) : SameRcv p (fpSendto p d) :=
  ⟨rfl, rfl, rfl, rfl, rfl, rfl, [d], rfl, by simpa using hd⟩

theorem fpSendConnReqAck_sameRcv (env : FpEnv) (p : FillpPeer) :
    SameRcv p (fpSendConnReqAck env p) :=
  fpSendto_sameRcv p (by simp [fillpEncodeConnReqAck])

theorem fpResendConnReq_sameRcv (p : FillpPeer) : SameRcv p (fpResendConnReq p) :=
  fpSendto_sameRcv p (by simp [fillpEncodeConnReq])

theorem fpResendConnConfirm_sameRcv (localAddr : Bytes) (p : FillpPeer) :
    SameRcv p (fpResendConnConfirm localAddr p) :=
  fpSendto_sameRcv p (by simp [fillpEncodeConnConfirm])

/-- With nothing to acknowledge a pump leaves the receive side alone. -/
theorem fpPump_sameRcv {p : FillpPeer} (hp : p.deliveredSincePack = 0) (env : FpEnv)
    (fill : Option FpFill) : SameRcv p (fpPump env fill p) := by
  have hpre : SameRcv p (fpPumpTxComplete <| fpPacketize env fpSendBudget <|
      fpPumpStall env <| fpPumpFill fill p) :=
    (((fpPumpFill_sameRcv fill p).trans (fpPumpStall_sameRcv env _)).trans
      (fpPacketize_sameRcv env _ _)).trans (fpPumpTxComplete_sameRcv _)
  have hquiet : ∀ q : FillpPeer, q.deliveredSincePack = 0 → fpMaybePack env q = q := by
    intro q hq
    rw [fpMaybePack, if_pos hq]
  rw [fpPump, hquiet _ (hpre.unacked.trans hp)]
  exact hpre.trans (fpPumpReplyFin_sameRcv _)

theorem fpHandleConnReqAck_unopened (env : FpEnv) (localAddr : Bytes) {p : FillpPeer}
    (h : Unopened p) (buf : Bytes) : Unopened (fpHandleConnReqAck env localAddr p buf) := by
  unfold fpHandleConnReqAck
  split
  · exact h
  split
  · exact h
  · rename_i a _
    have hsame := fpResendConnConfirm_sameRcv localAddr
      { p with cookie := a.cookie, hsTag := a.tagCookie, hsConfirmSent := true }
    exact h.congr ⟨hsame.num, hsame.delivered, hsame.ofo, hsame.ofoBytes, hsame.unacked,
      hsame.opened, hsame.sent⟩ id

theorem fpHandleConnConfirmAck_unopened (env : FpEnv) {p : FillpPeer} (h : Unopened p)
    (buf : Bytes) : Unopened (fpHandleConnConfirmAck env p buf) := by
  unfold fpHandleConnConfirmAck
  split
  · exact h
  split
  · exact h
  · exact fpPeerEstablished_unopened env p

theorem fpPeerRequestClose_unopened (env : FpEnv) {p : FillpPeer} (h : Unopened p) :
    Unopened (fpPeerRequestClose env p) :=
  h.congr (fpPeerRequestClose_sameRcv env p) fun he => absurd he (fpPeerRequestClose_state env p)

theorem fpHandleConnConfirm_unopened (hmacSha256 : Bytes → Bytes → Bytes) (env : FpEnv)
    (e : FillpEngine) {p : FillpPeer} (h : Unopened p) (buf : Bytes) :
    Unopened (fpHandleConnConfirm hmacSha256 env e p buf) := by
  unfold fpHandleConnConfirm
  split
  · exact h
  split
  · exact h
  split
  · exact h
  split
  · simp only
    split
    · exact fpPeerEstablished_unopened env _
    · exact h.congr (fpSendto_sameRcv p (by simp [fillpEncodeConnConfirmAck])) id
  · exact fpPeerRequestClose_unopened env h

/-- **The data plane of an untouched peer** stays shut if DATA that passes the
length checks does not arrive in CLOSING. -/
theorem fpDataPlane_unopened (env : FpEnv) {p : FillpPeer} (h : Unopened p) {buf : Bytes}
    (hdata : p.state = .closing → p.wasEstablished = false → fpTypeOf buf = some .data →
      fpDataOf buf = none) : Unopened (fpDataPlane env p buf) := by
  by_cases hopen : p.wasEstablished = true
  · intro hnever
    rw [fpDataPlane_opened, hopen] at hnever
    cases hnever
  have hnever : p.wasEstablished = false := by simpa using hopen
  obtain ⟨hclosed, hun⟩ := h hnever
  refine h.congr ?_ (fpDataPlane_state env p buf)
  unfold fpDataPlane
  split
  · rename_i htype
    split
    · rename_i hst
      have hclosing : p.state = .closing := hst.resolve_left hclosed
      have hsame : fpOnData env p buf = p := by
        rw [fpOnData, hdata hclosing hnever htype]
      rw [hsame]
      exact .refl p
    · exact .refl p
  · rw [if_neg hclosed]
    exact .refl p
  · split
    · exact fpOnPack_sameRcv p buf
    · exact .refl p
  · split
    · exact fpOnFin_sameRcv env p
    · exact .refl p
  · exact .refl p

theorem fpTickPeer_unopened (env : FpEnv) (localAddr : Bytes) (fill : Option FpFill)
    {p : FillpPeer} (h : Unopened p) : Unopened (fpTickPeer env localAddr fill p).1 := by
  unfold fpTickPeer
  split
  · split
    · exact fpPeerRequestClose_unopened env h
    split
    · simp only
      split
      · have hsame := fpResendConnConfirm_sameRcv localAddr { p with tHsRetransMs := env.now }
        exact h.congr ⟨hsame.num, hsame.delivered, hsame.ofo, hsame.ofoBytes, hsame.unacked,
          hsame.opened, hsame.sent⟩ id
      · have hsame := fpResendConnReq_sameRcv { p with tHsRetransMs := env.now }
        exact h.congr ⟨hsame.num, hsame.delivered, hsame.ofo, hsame.ofoBytes, hsame.unacked,
          hsame.opened, hsame.sent⟩ id
    · exact h
  · exact h
  · intro hnever
    have hkeep : (fpPump env fill p).wasEstablished = p.wasEstablished := by
      have hreply : ∀ q : FillpPeer, (fpPumpReplyFin q).wasEstablished = q.wasEstablished :=
        fun q => (fpPumpReplyFin_sameRcv q).opened
      rw [fpPump, hreply]
      exact (fpPumpStages_keepsOpen env fill p).opened
    have hun := (h (hkeep ▸ hnever)).2
    exact (h.congr (fpPump_sameRcv hun.unacked env fill) (fpPump_state env fill p ▸ id)) hnever

/-! ## The table -/

/-- Every peer of the engine, past or present, is unopened or was established. -/
structure EngineInv (e : FillpEngine) : Prop where
  peers : ∀ a p, e.peers.lookup a = some p → Unopened p
  gone : ∀ p ∈ e.gone, Unopened p

theorem EngineInv.setPeer {e : FillpEngine} (h : EngineInv e) (a : FpAddr) {p : FillpPeer}
    (hp : Unopened p) : EngineInv (e.setPeer a p) := by
  refine ⟨?_, h.gone⟩
  intro b q hq
  change (e.peers.insert a p).lookup b = some q at hq
  by_cases hb : b = a
  · subst hb
    rw [AList.lookup_insert] at hq
    cases hq
    exact hp
  · rw [AList.lookup_insert_ne hb] at hq
    exact h.peers b q hq

theorem EngineInv.onPeer {e : FillpEngine} (h : EngineInv e) (a : FpAddr)
    {f : FillpPeer → FillpPeer}
    (hf : ∀ p, e.peers.lookup a = some p → Unopened p → Unopened (f p)) :
    EngineInv (e.onPeer a f) := by
  unfold FillpEngine.onPeer
  split
  · exact h
  · rename_i p hp
    exact h.setPeer a (hf p hp (h.peers a p hp))

theorem EngineInv.finalize {e : FillpEngine} (h : EngineInv e) (a : FpAddr) :
    EngineInv (fpPeerFinalize e a) := by
  unfold fpPeerFinalize
  split
  · exact h
  rename_i p hp
  split
  · exact h
  · constructor
    · intro b q hq
      change (e.peers.erase a).lookup b = some q at hq
      by_cases hb : b = a
      · rw [hb, AList.lookup_erase] at hq
        cases hq
      · rw [AList.lookup_erase_ne hb] at hq
        exact h.peers b q hq
    · intro q hq
      rcases List.mem_append.mp hq with hq | hq
      · exact h.gone q hq
      · rw [List.mem_singleton] at hq
        subst hq
        intro hnever
        have hun := (h.peers a p hp hnever).2
        exact ⟨by simp, hun.delivered, rfl, rfl, hun.unacked, hun.recvPktNum, hun.silent⟩

theorem EngineInv.finalizeAll (as : List FpAddr) : ∀ {e : FillpEngine}, EngineInv e →
    EngineInv (as.foldl fpPeerFinalize e) := by
  induction as with
  | nil => intro e h; exact h
  | cons a as ih => intro e h; exact ih (h.finalize a)

theorem EngineInv.tickAll (env : FpEnv) (fills : FpAddr → Option FpFill) (as : List FpAddr) :
    ∀ {acc : FillpEngine × List FpAddr}, EngineInv acc.1 →
      EngineInv (as.foldl (fpTickOne env fills) acc).1 := by
  induction as with
  | nil => intro acc h; exact h
  | cons a as ih =>
      intro acc h
      refine ih ?_
      unfold fpTickOne
      split
      · exact h
      · rename_i p hp
        exact h.setPeer a (fpTickPeer_unopened env _ _ (h.peers a p hp))

/-- No DATA that passes the length checks reaches a closing peer that was never
established. -/
def NoEarlyData (e : FillpEngine) (ev : FpEngineEv) : Prop :=
  ∀ env source buf p, ev = .datagram env source buf → e.peers.lookup source = some p →
    p.state = .closing → p.wasEstablished = false → fpTypeOf buf = some .data →
      fpDataOf buf = none

/-- **Step lemma.** -/
theorem EngineInv.step {hmacSha256 : Bytes → Bytes → Bytes} {e e' : FillpEngine}
    {ev : FpEngineEv} (h : EngineInv e) (hok : NoEarlyData e ev)
    (hs : e.step hmacSha256 ev = some e') : EngineInv e' := by
  unfold FillpEngine.step at hs
  split at hs
  · cases hs
    exact h
  simp only [Option.some.injEq] at hs
  subst hs
  cases ev with
  | datagram env source buf =>
      change EngineInv (fpHandleDatagram hmacSha256 env e source buf)
      unfold fpHandleDatagram
      split
      · unfold fpHandleConnReq
        split
        · exact h
        split
        · rename_i p hp
          split
          · exact h.setPeer source ((h.peers source p hp).congr (fpSendConnReqAck_sameRcv env p) id)
          · exact h
        · refine h.setPeer source (Unopened.congr ?_ (fpSendConnReqAck_sameRcv env _) id)
          exact fpServerPeer_unopened hmacSha256 env e source _
      · exact h.onPeer source fun p _ hp => fpHandleConnReqAck_unopened env _ hp buf
      · exact h.onPeer source fun p _ hp => fpHandleConnConfirm_unopened hmacSha256 env e hp buf
      · exact h.onPeer source fun p _ hp => fpHandleConnConfirmAck_unopened env hp buf
      · exact h.onPeer source fun p hlook hp =>
          fpDataPlane_unopened env hp (hok env source buf p rfl hlook)
      · exact h
  | tick env fills =>
      exact EngineInv.finalizeAll _ (EngineInv.tickAll env fills _ h)
  | connect env addr sendOk =>
      have hold : ∀ p ∈ e.gone ++ (e.peers.lookup addr).toList, Unopened p := by
        intro p hp
        rcases List.mem_append.mp hp with hp | hp
        · exact h.gone p hp
        · exact h.peers addr p (Option.mem_toList.mp hp)
      refine ⟨(h.setPeer addr ?_).peers, hold⟩
      split
      · exact (fpClientPeer_unopened env).congr (fpResendConnReq_sameRcv _) id
      · exact fpPeerRequestClose_unopened env (fpClientPeer_unopened env)
  | send addr data =>
      exact h.onPeer addr fun p _ hp =>
        hp.congr (fillpPeerSend_sameRcv p data) (fillpPeerSend_state p data ▸ id)
  | close env addr => exact h.onPeer addr fun p _ hp => fpPeerRequestClose_unopened env hp
  | shutdown => exact EngineInv.finalizeAll _ ⟨h.peers, h.gone⟩

/-! ## How a server peer opens -/

/-- The same peer on the same side of the handshake, and not newly open if it
is a server peer. -/
structure StaysShut (p p' : FillpPeer) : Prop where
  isClient : p'.isClient = p.isClient
  state : p.isClient = false → p'.state = .established → p.state = .established

theorem StaysShut.refl (p : FillpPeer) : StaysShut p p := ⟨rfl, fun _ => id⟩

theorem KeepsOpen.staysShut {p p' : FillpPeer} (h : KeepsOpen p p') : StaysShut p p' :=
  ⟨h.isClient, fun _ => h.state ▸ id⟩

theorem fpPeerRequestClose_isClient (env : FpEnv) (p : FillpPeer) :
    (fpPeerRequestClose env p).isClient = p.isClient := by
  unfold fpPeerRequestClose
  split
  · rfl
  · simp only
    split <;> rfl

theorem fpPeerRequestClose_staysShut (env : FpEnv) (p : FillpPeer) :
    StaysShut p (fpPeerRequestClose env p) :=
  ⟨fpPeerRequestClose_isClient env p, fun _ h => absurd h (fpPeerRequestClose_state env p)⟩

theorem fpDataPlane_staysShut (env : FpEnv) (p : FillpPeer) (buf : Bytes) :
    StaysShut p (fpDataPlane env p buf) := by
  refine ⟨?_, fun _ => fpDataPlane_state env p buf⟩
  by_cases hfin : fpTypeOf buf = some .fin
  · simp only [fpDataPlane, hfin]
    split
    · unfold fpOnFin
      simp only
      split <;> rfl
    · rfl
  · exact (fpDataPlane_keepsOpen env p hfin).isClient

theorem fpPump_staysShut (env : FpEnv) (fill : Option FpFill) (p : FillpPeer) :
    StaysShut p (fpPump env fill p) := by
  refine ⟨?_, fun _ => fpPump_state env fill p ▸ id⟩
  have hreply : ∀ q : FillpPeer, (fpPumpReplyFin q).isClient = q.isClient := by
    intro q
    unfold fpPumpReplyFin
    split <;> rfl
  rw [fpPump, hreply]
  exact (fpPumpStages_keepsOpen env fill p).isClient

theorem fpHandleConnReqAck_staysShut (env : FpEnv) (localAddr : Bytes) (p : FillpPeer)
    (buf : Bytes) : StaysShut p (fpHandleConnReqAck env localAddr p buf) := by
  unfold fpHandleConnReqAck
  split
  · exact .refl p
  split
  · exact .refl p
  · exact ⟨rfl, fun _ => id⟩

/-- Only a client takes a CONN_CONFIRM_ACK. -/
theorem fpHandleConnConfirmAck_staysShut (env : FpEnv) (p : FillpPeer) (buf : Bytes) :
    StaysShut p (fpHandleConnConfirmAck env p buf) := by
  unfold fpHandleConnConfirmAck
  split
  · exact .refl p
  rename_i hclient
  split
  · exact .refl p
  · refine ⟨rfl, fun hserver => ?_⟩
    exact absurd (Or.inr hserver) hclient

/-- A CONN_CONFIRM opens the peer only if its cookie verifies. -/
theorem fpHandleConnConfirm_staysShut (hmacSha256 : Bytes → Bytes → Bytes) (env : FpEnv)
    (e : FillpEngine) (p : FillpPeer) {buf : Bytes}
    (hbad : ∀ c, fillpDecodeConnConfirm buf = some c →
      fillpCookieVerify hmacSha256 c.cookie e.macKey e.localAddr = false) :
    StaysShut p (fpHandleConnConfirm hmacSha256 env e p buf) := by
  unfold fpHandleConnConfirm
  split
  · exact .refl p
  split
  · exact .refl p
  split
  · exact .refl p
  · rename_i c hc
    rw [hbad c hc]
    exact fpPeerRequestClose_staysShut env p

theorem fpTickPeer_staysShut (env : FpEnv) (localAddr : Bytes) (fill : Option FpFill)
    (p : FillpPeer) : StaysShut p (fpTickPeer env localAddr fill p).1 := by
  refine ⟨?_, fun _ => fpTickPeer_state env localAddr fill p⟩
  unfold fpTickPeer
  split
  · split
    · exact fpPeerRequestClose_isClient env p
    split
    · simp only
      split <;> rfl
    · rfl
  · rfl
  · exact (fpPump_staysShut env fill p).isClient

/-- An established server peer is in the table under this address. -/
def FillpEngine.ServerOpen (e : FillpEngine) (a : FpAddr) : Prop :=
  ∃ p, e.peers.lookup a = some p ∧ p.isClient = false ∧ p.state = .established

theorem FillpEngine.ServerOpen.of_setPeer {e : FillpEngine} {a b : FpAddr} {p p' : FillpPeer}
    (hp : e.peers.lookup a = some p) (hs : StaysShut p p')
    (h : (e.setPeer a p').ServerOpen b) : e.ServerOpen b := by
  obtain ⟨q, hq, hserver, hopen⟩ := h
  change (e.peers.insert a p').lookup b = some q at hq
  by_cases hb : b = a
  · subst hb
    rw [AList.lookup_insert] at hq
    cases hq
    have hserver' := hs.isClient ▸ hserver
    exact ⟨p, hp, hserver', hs.state hserver' hopen⟩
  · rw [AList.lookup_insert_ne hb] at hq
    exact ⟨q, hq, hserver, hopen⟩

/-- A peer that is not an open server peer may be put under a new address. -/
theorem FillpEngine.ServerOpen.of_newPeer {e : FillpEngine} {a b : FpAddr} {p : FillpPeer}
    (hp : p.isClient = false → p.state ≠ .established) (h : (e.setPeer a p).ServerOpen b) :
    e.ServerOpen b := by
  obtain ⟨q, hq, hserver, hopen⟩ := h
  change (e.peers.insert a p).lookup b = some q at hq
  by_cases hb : b = a
  · subst hb
    rw [AList.lookup_insert] at hq
    cases hq
    exact absurd hopen (hp hserver)
  · rw [AList.lookup_insert_ne hb] at hq
    exact ⟨q, hq, hserver, hopen⟩

theorem FillpEngine.ServerOpen.of_onPeer {e : FillpEngine} {a b : FpAddr}
    {f : FillpPeer → FillpPeer} (hf : ∀ p, StaysShut p (f p))
    (h : (e.onPeer a f).ServerOpen b) : e.ServerOpen b := by
  unfold FillpEngine.onPeer at h
  split at h
  · exact h
  · rename_i p hp
    exact .of_setPeer hp (hf p) h

theorem FillpEngine.ServerOpen.of_finalize {e : FillpEngine} {a b : FpAddr}
    (h : (fpPeerFinalize e a).ServerOpen b) : e.ServerOpen b := by
  unfold fpPeerFinalize at h
  split at h
  · exact h
  split at h
  · exact h
  · obtain ⟨q, hq, hrest⟩ := h
    change (e.peers.erase a).lookup b = some q at hq
    by_cases hb : b = a
    · rw [hb, AList.lookup_erase] at hq
      cases hq
    · rw [AList.lookup_erase_ne hb] at hq
      exact ⟨q, hq, hrest⟩

theorem FillpEngine.ServerOpen.of_finalizeAll {b : FpAddr} (as : List FpAddr) :
    ∀ {e : FillpEngine}, (as.foldl fpPeerFinalize e).ServerOpen b → e.ServerOpen b := by
  induction as with
  | nil => intro e h; exact h
  | cons a as ih => intro e h; exact .of_finalize (ih h)

theorem FillpEngine.ServerOpen.of_tickAll {b : FpAddr} (env : FpEnv)
    (fills : FpAddr → Option FpFill) (as : List FpAddr) : ∀ {acc : FillpEngine × List FpAddr},
    (as.foldl (fpTickOne env fills) acc).1.ServerOpen b → acc.1.ServerOpen b := by
  induction as with
  | nil => intro acc h; exact h
  | cons a as ih =>
      intro acc h
      have hone := ih h
      unfold fpTickOne at hone
      split at hone
      · exact hone
      · rename_i p hp
        exact .of_setPeer hp (fpTickPeer_staysShut env _ _ p) hone

/-- The event is a CONN_CONFIRM from the address, with a verifying cookie. -/
def Confirms (hmacSha256 : Bytes → Bytes → Bytes) (e : FillpEngine) (a : FpAddr)
    (ev : FpEngineEv) : Prop :=
  ∃ env buf c, ev = .datagram env a buf ∧ fpTypeOf buf = some .connConfirm ∧
    fillpDecodeConnConfirm buf = some c ∧
    fillpCookieVerify hmacSha256 c.cookie e.macKey e.localAddr = true

/-- **A server peer opens through a verified CONN_CONFIRM only.** -/
theorem FillpEngine.ServerOpen.of_step {hmacSha256 : Bytes → Bytes → Bytes} {e e' : FillpEngine}
    {ev : FpEngineEv} (hs : e.step hmacSha256 ev = some e') {a : FpAddr} (h : e'.ServerOpen a) :
    e.ServerOpen a ∨ Confirms hmacSha256 e a ev := by
  unfold FillpEngine.step at hs
  split at hs
  · cases hs
    exact Or.inl h
  simp only [Option.some.injEq] at hs
  subst hs
  cases ev with
  | datagram env source buf =>
      change (fpHandleDatagram hmacSha256 env e source buf).ServerOpen a at h
      unfold fpHandleDatagram at h
      split at h
      · refine Or.inl ?_
        unfold fpHandleConnReq at h
        split at h
        · exact h
        split at h
        · rename_i p hp
          split at h
          · have hshut : StaysShut p (fpSendConnReqAck env p) := ⟨rfl, fun _ => id⟩
            exact .of_setPeer hp hshut h
          · exact h
        · refine .of_newPeer ?_ h
          intro _ hopen
          cases hopen
      · exact Or.inl (.of_onPeer (fun p => fpHandleConnReqAck_staysShut env _ p buf) h)
      · rename_i htype
        by_cases hgood : ∃ c, fillpDecodeConnConfirm buf = some c ∧
            fillpCookieVerify hmacSha256 c.cookie e.macKey e.localAddr = true
        · obtain ⟨c, hc, hverify⟩ := hgood
          by_cases ha : a = source
          · subst ha
            exact Or.inr ⟨env, buf, c, rfl, htype, hc, hverify⟩
          · refine Or.inl ?_
            unfold FillpEngine.onPeer at h
            split at h
            · exact h
            · obtain ⟨q, hq, hrest⟩ := h
              change (e.peers.insert source _).lookup a = some q at hq
              rw [AList.lookup_insert_ne ha] at hq
              exact ⟨q, hq, hrest⟩
        · refine Or.inl (.of_onPeer (fun p => ?_) h)
          refine fpHandleConnConfirm_staysShut hmacSha256 env e p fun c hc => ?_
          rw [← Bool.not_eq_true]
          exact fun hverify => hgood ⟨c, hc, hverify⟩
      · exact Or.inl (.of_onPeer (fun p => fpHandleConnConfirmAck_staysShut env p buf) h)
      · exact Or.inl (.of_onPeer (fun p => fpDataPlane_staysShut env p buf) h)
      · exact Or.inl h
  | tick env fills => exact Or.inl (.of_tickAll env fills _ (.of_finalizeAll _ h))
  | connect env addr sendOk =>
      have h' : (e.setPeer addr (if sendOk then fpResendConnReq (fpClientPeer env)
          else fpPeerRequestClose env (fpClientPeer env))).ServerOpen a := h
      refine Or.inl (.of_newPeer ?_ h')
      intro hserver
      split at hserver
      · cases hserver
      · rw [fpPeerRequestClose_isClient] at hserver
        cases hserver
  | send addr data =>
      exact Or.inl (.of_onPeer (fun p => (fillpPeerSend_keepsOpen p data).staysShut) h)
  | close env addr =>
      exact Or.inl (.of_onPeer (fun p => fpPeerRequestClose_staysShut env p) h)
  | shutdown =>
      have h' : ({ e with closeInProgress := true } : FillpEngine).ServerOpen a :=
        .of_finalizeAll _ h
      exact Or.inl h'

/-! ## Whole runs -/

theorem EngineInv.new (port : UInt16) (macKey : Bytes) :
    EngineInv (fillpEngineNew port macKey) := by
  constructor
  · intro a p hp
    rw [fillpEngineNew, AList.lookup_empty] at hp
    cases hp
  · intro p hp
    cases hp

/-- **Admission.** In every run of an engine whose steps bring no DATA to a
closing peer that was never established, such a peer has delivered nothing,
buffered nothing and sent neither PACK nor NACK; and at every step at which a
server peer becomes established, the event is a CONN_CONFIRM from its address
with a verifying cookie. -/
theorem FillpEngine.admission (hmacSha256 : Bytes → Bytes → Bytes) (port : UInt16)
    (macKey : Bytes) {evs : List FpEngineEv} {e : FillpEngine}
    (hrun : run (FillpEngine.step hmacSha256) (fillpEngineNew port macKey) evs = some e)
    (hok : Meets (FillpEngine.step hmacSha256) NoEarlyData (fillpEngineNew port macKey) evs) :
    (∀ a p, e.peers.lookup a = some p → p.wasEstablished = false → Untouched p) ∧
    (∀ p ∈ e.gone, p.wasEstablished = false → Untouched p) ∧
    ∀ before ev after e₁ e₂, evs = before ++ ev :: after →
      run (FillpEngine.step hmacSha256) (fillpEngineNew port macKey) before = some e₁ →
      e₁.step hmacSha256 ev = some e₂ → ∀ a, e₂.ServerOpen a →
        e₁.ServerOpen a ∨ Confirms hmacSha256 e₁ a ev := by
  have h : EngineInv e := run_inv EngineInv NoEarlyData
    (fun _ _ _ hinv hguard hs => hinv.step hguard hs) (.new port macKey) hok hrun
  refine ⟨fun a p hp hnever => (h.peers a p hp hnever).2, fun p hp hnever => (h.gone p hp hnever).2,
    ?_⟩
  intro _ ev _ e₁ e₂ _ _ hs a hopen
  exact hopen.of_step hs

/-- A CONN_REQ from port 9, and the FIN and the DATA packet that follow it. -/
def strayConnReq : Bytes := fillpEncodeHead FpPktType.connReq.code 0 20 0 0 ++ List.replicate 20 0
def strayFin : Bytes := fillpEncodeHead FpPktType.fin.code 0 2 0 0 ++ [0, 0]
def strayData : Bytes := fillpEncodeHead FpPktType.data.code 0 1 1 1 ++ [65]
def strayAddr : FpAddr := ⟨0, 9⟩
def strayEnv : FpEnv := ⟨1000, 1000000, 0, 0⟩

/-- The HMAC under the zero key of the one cookie filled here. -/
def strayHmac (_ _ : Bytes) : Bytes :=
  [22, 72, 173, 117, 189, 174, 173, 67, 23, 253, 233, 120, 221, 165, 198, 65,
    95, 203, 148, 27, 214, 117, 209, 156, 233, 132, 71, 164, 185, 248, 5, 0]

def strayEngine : FillpEngine := fillpEngineNew 5000 (List.replicate 32 0)

/-- A closing peer takes its first packet, however it came to close. -/
theorem fpDataPlane_closing_first {p : FillpPeer} (hstate : p.state = .closing)
    (hofo : p.ofo = ∅) (hrecv : p.recvPktNum = 0) {buf : Bytes}
    (htype : fpTypeOf buf = some .data) {h : FpHead} {payload : Bytes}
    (hdata : fpDataOf buf = some (h, payload)) (hnum : h.pktNum = 1) (env : FpEnv) :
    (fpDataPlane env p buf).delivered = p.delivered ++ [payload] := by
  have hflush : ∀ q : FillpPeer, fpFlushOfo p.ofo.entries.length q = q := by
    intro q
    rw [hofo]
    rfl
  have hahead : fpNumIsbigger 1 0 = true := by decide
  have hone : (1 : UInt32) = 0 + 1 := by decide
  have hpkt : fpOnPkt env p h payload =
      fpMaybePack env (fpFlushOfo p.ofo.entries.length (fpAccept p 1 h.seqNum payload)) := by
    rw [fpOnPkt, hnum, hrecv, hahead, if_neg (by decide), if_pos hone]
    rfl
  have hplane : fpDataPlane env p buf = fpOnPkt env p h payload := by
    simp [fpDataPlane, htype, hstate, fpOnData, hdata]
  rw [hplane, hpkt, hflush, fpMaybePack_delivered]
  rfl

/-- A DATA packet for a pending peer is dropped. -/
theorem FillpEngine.admission_pending :
    ∃ e, run (FillpEngine.step strayHmac) strayEngine
        [.datagram strayEnv strayAddr strayConnReq, .datagram strayEnv strayAddr strayData] =
      some e ∧ ∀ a p, e.peers.lookup a = some p → p.wasEstablished = false → Untouched p := by
  have hrun : run (FillpEngine.step strayHmac) strayEngine
      [.datagram strayEnv strayAddr strayConnReq, .datagram strayEnv strayAddr strayData] =
    some _ := rfl
  refine ⟨_, hrun, (FillpEngine.admission strayHmac 5000 (List.replicate 32 0) hrun ⟨?_, ?_⟩).1⟩
  · intro env source buf p _ hlook
    rw [fillpEngineNew, AList.lookup_empty] at hlook
    cases hlook
  · intro e₁ he₁
    refine ⟨?_, fun _ _ => trivial⟩
    intro env source buf p hev hlook hclosing
    cases hev
    cases he₁
    have hpending : some FpState.pending = some p.state := congrArg (Option.map FillpPeer.state) hlook
    rw [hclosing] at hpending
    cases hpending

/-- **A stranger's byte is delivered.** CONN_REQ, FIN, DATA: the FIN moves the
pending peer to CLOSING, where its DATA is taken. -/
theorem FillpEngine.not_admission :
    ∃ e p, run (FillpEngine.step strayHmac) strayEngine
        [.datagram strayEnv strayAddr strayConnReq, .datagram strayEnv strayAddr strayFin,
          .datagram strayEnv strayAddr strayData] = some e ∧
      e.peers.lookup strayAddr = some p ∧ p.wasEstablished = false ∧ p.delivered = [[65]] := by
  refine ⟨_, _, rfl, rfl, fpDataPlane_opened strayEnv _ strayData, ?_⟩
  have hdata : fpDataOf strayData = some (⟨1, 0, 1, 1, 1⟩, [65]) := rfl
  exact fpDataPlane_closing_first rfl rfl rfl rfl hdata rfl strayEnv

end HwPhoneLink.Fillp
