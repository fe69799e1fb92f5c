import HwPhoneLink.Fillp.Entry

/-!
# Connecting again

Two engines, each of which may connect to the other as often as it likes, and a
network that keeps every datagram and delivers it at any later time, any number
of times, or never. Everything else that happens to an engine, datagrams from
other addresses included, is arbitrary.

An attempt of a side is what happens there from one connect to the other side
to the next. The network notes for each datagram the attempt of its sender,
what the sender had received in that attempt, and the datagram in answer to
which it was sent. The datagrams themselves carry none of this: a
CONN_CONFIRM_ACK opens a pending client whichever CONN_CONFIRM it answers.
-/

namespace HwPhoneLink.Fillp

open BigEndian Transitions

/-! ## The handshake fields -/

/-- The handshake fields are the same, no CONN_CONFIRM or CONN_CONFIRM_ACK is
sent, and the peer stays in its state or is closing. -/
structure HsKept (p p' : FillpPeer) : Prop where
  same : (p'.isClient, p'.cookie, p'.hsTag, p'.hsConfirmSent) =
    (p.isClient, p.cookie, p.hsTag, p.hsConfirmSent)
  state : p'.state = p.state ∨ p'.state = .closing
  sent : ∃ ds, p'.sent = p.sent ++ ds ∧
    ∀ d ∈ ds, fpTypeOf d ≠ some .connConfirm ∧ fpTypeOf d ≠ some .connConfirmAck

/-- An update of other fields. -/
theorem HsKept.quiet {p p' : FillpPeer}
    (h : (p'.isClient, p'.cookie, p'.hsTag, p'.hsConfirmSent) =
      (p.isClient, p.cookie, p.hsTag, p.hsConfirmSent))
    (hstate : p'.state = p.state ∨ p'.state = .closing) (hsent : p'.sent = p.sent) :
    HsKept p p' := ⟨h, hstate, [], by rw [hsent, List.append_nil], by simp⟩

theorem HsKept.refl (p : FillpPeer) : HsKept p p := .quiet rfl (Or.inl rfl) rfl

theorem HsKept.fields {p p' : FillpPeer} (h : HsKept p p') : p'.isClient = p.isClient ∧
    p'.cookie = p.cookie ∧ p'.hsTag = p.hsTag ∧ p'.hsConfirmSent = p.hsConfirmSent := by
  simpa using h.same

theorem HsKept.trans {p p' p'' : FillpPeer} (h : HsKept p p') (h' : HsKept p' p'') :
    HsKept p p'' := by
  obtain ⟨ds, hds, hno⟩ := h.sent
  obtain ⟨ds', hds', hno'⟩ := h'.sent
  refine ⟨h'.same.trans h.same, ?_, ds ++ ds', ?_, ?_⟩
  · rcases h'.state with hs' | hs'
    · rcases h.state with hs | hs
      · exact Or.inl (hs'.trans hs)
      · exact Or.inr (hs'.trans hs)
    · exact Or.inr hs'
  · rw [hds', hds, List.append_assoc]
  · intro d hd
    rcases List.mem_append.mp hd with hd | hd
    · exact hno d hd
    · exact hno' d hd

theorem fpSendto_hsKept (p : FillpPeer) {d : Bytes} (hd : fpTypeOf d ≠ some .connConfirm)
    (hd' : fpTypeOf d ≠ some .connConfirmAck) : HsKept p (fpSendto p d) :=
  ⟨rfl, Or.inl rfl, [d], rfl, by simpa using ⟨hd, hd'⟩⟩

theorem fillpPeerSend_hsKept (p : FillpPeer) (data : Bytes) : HsKept p (fillpPeerSend p data) := by
  unfold fillpPeerSend
  split
  · exact .refl p
  split
  · exact .refl p
  · exact .quiet rfl (Or.inl rfl) rfl

theorem foldl_fillpPeerSend_hsKept (chunks : List Bytes) : ∀ p : FillpPeer,
    HsKept p (chunks.foldl fillpPeerSend p) := by
  induction chunks with
  | nil => intro p; exact .refl p
  | cons c cs ih => intro p; exact (fillpPeerSend_hsKept p c).trans (ih _)

theorem fpPumpFill_hsKept (fill : Option FpFill) (p : FillpPeer) :
    HsKept p (fpPumpFill fill p) := by
  unfold fpPumpFill
  split
  · exact .refl p
  split
  · rename_i f _
    have hfold := foldl_fillpPeerSend_hsKept f.chunks p
    simp only
    split
    · exact hfold.trans (.quiet rfl (Or.inl rfl) rfl)
    · exact hfold
  · exact .refl p

theorem fpPumpStall_hsKept (env : FpEnv) (p : FillpPeer) : HsKept p (fpPumpStall env p) := by
  unfold fpPumpStall
  split
  · exact .refl p
  split
  · exact ⟨rfl, Or.inl rfl, _, rfl, by simp⟩
  · exact .refl p

theorem fpPacketize_hsKept (env : FpEnv) (budget : ℕ) : ∀ p : FillpPeer,
    HsKept p (fpPacketize env budget p) := by
  induction budget with
  | zero => intro p; exact .refl p
  | succ budget ih =>
      intro p
      unfold fpPacketize
      split
      · have hone : HsKept p (fpSendNext env p) := ⟨rfl, Or.inl rfl, _, rfl, by simp⟩
        exact hone.trans (ih _)
      · exact .refl p

theorem fpPumpTxComplete_hsKept (p : FillpPeer) : HsKept p (fpPumpTxComplete p) := by
  unfold fpPumpTxComplete
  split
  · exact .quiet rfl (Or.inl rfl) rfl
  · exact .refl p

theorem fpSendPack_hsKept (env : FpEnv) (p : FillpPeer) : HsKept p (fpSendPack env p) :=
  ⟨rfl, Or.inl rfl, _, rfl, by simp [fpTypeOf_pack]⟩

theorem fpMaybePack_hsKept (env : FpEnv) (p : FillpPeer) : HsKept p (fpMaybePack env p) := by
  unfold fpMaybePack
  split
  · exact .refl p
  split
  · exact .refl p
  · exact fpSendPack_hsKept env p

theorem fpPumpReplyFin_hsKept (p : FillpPeer) : HsKept p (fpPumpReplyFin p) := by
  unfold fpPumpReplyFin
  split
  · exact ⟨rfl, Or.inl rfl, _, rfl, by simp [fillpEncodeFin]⟩
  · exact .refl p

theorem fpPump_hsKept (env : FpEnv) (fill : Option FpFill) (p : FillpPeer) :
    HsKept p (fpPump env fill p) :=
  (((((fpPumpFill_hsKept fill p).trans (fpPumpStall_hsKept env _)).trans
    (fpPacketize_hsKept env _ _)).trans (fpPumpTxComplete_hsKept _)).trans
    (fpMaybePack_hsKept env _)).trans (fpPumpReplyFin_hsKept _)

theorem fpFlushOfo_hsKept (n : ℕ) : ∀ p : FillpPeer, HsKept p (fpFlushOfo n p) := by
  induction n with
  | zero => intro p; exact .refl p
  | succ n ih =>
      intro p
      unfold fpFlushOfo
      split
      · exact .refl p
      · rename_i next _
        have hone : HsKept p (fpFlushOne p next) := .quiet rfl (Or.inl rfl) rfl
        exact hone.trans (ih _)

theorem fpBuffer_hsKept (env : FpEnv) (p : FillpPeer) (h : FpHead) (payload : Bytes) :
    HsKept p (fpBuffer env p h payload) := by
  unfold fpBuffer fpMaybeNack
  split <;> split
  · exact .quiet rfl (Or.inl rfl) rfl
  · exact ⟨rfl, Or.inl rfl, _, rfl, by simp [fpTypeOf_nack]⟩
  · exact .refl p
  · exact ⟨rfl, Or.inl rfl, _, rfl, by simp [fpTypeOf_nack]⟩

theorem fpOnData_hsKept (env : FpEnv) (p : FillpPeer) (buf : Bytes) :
    HsKept p (fpOnData env p buf) := by
  unfold fpOnData
  split
  · exact .refl p
  unfold fpOnPkt
  split
  · split
    · exact fpSendPack_hsKept env p
    · exact .refl p
  split
  · rename_i h payload _ _ _
    have hacc : HsKept p (fpAccept p h.pktNum h.seqNum payload) := .quiet rfl (Or.inl rfl) rfl
    exact (hacc.trans (fpFlushOfo_hsKept _ _)).trans (fpMaybePack_hsKept env _)
  · exact fpBuffer_hsKept env p _ _

theorem fpOnNack_hsKept (env : FpEnv) (p : FillpPeer) (buf : Bytes) :
    HsKept p (fpOnNack env p buf) := by
  unfold fpOnNack
  split
  · exact .refl p
  · refine ⟨rfl, Or.inl rfl, _, rfl, ?_⟩
    intro d hd
    obtain ⟨q, _, rfl⟩ := List.mem_map.mp hd
    simp

theorem fpOnPack_hsKept (p : FillpPeer) (buf : Bytes) : HsKept p (fpOnPack p buf) := by
  unfold fpOnPack
  split
  · exact .refl p
  · exact .quiet rfl (Or.inl rfl) rfl

theorem fpOnFin_hsKept (env : FpEnv) (p : FillpPeer) : HsKept p (fpOnFin env p) := by
  unfold fpOnFin
  simp only
  split
  · exact .quiet rfl (Or.inr rfl) rfl
  · exact .quiet rfl (Or.inl rfl) rfl

/-- The data plane takes no part in the handshake. -/
theorem fpDataPlane_hsKept (env : FpEnv) (p : FillpPeer) (buf : Bytes) :
    HsKept p (fpDataPlane env p buf) := by
  unfold fpDataPlane
  split
  · split
    · exact fpOnData_hsKept env p buf
    · exact .refl p
  · split
    · exact fpOnNack_hsKept env p buf
    · exact .refl p
  · split
    · exact fpOnPack_hsKept p buf
    · exact .refl p
  · split
    · exact fpOnFin_hsKept env p
    · exact .refl p
  · exact .refl p

theorem fpPeerRequestClose_hsKept (env : FpEnv) (p : FillpPeer) :
    HsKept p (fpPeerRequestClose env p) := by
  unfold fpPeerRequestClose
  split
  · exact .refl p
  · simp only
    split
    · exact ⟨rfl, Or.inr rfl, _, rfl, by simp [fillpEncodeFin]⟩
    · exact .quiet rfl (Or.inr rfl) rfl

theorem fpSendConnReqAck_hsKept (env : FpEnv) (p : FillpPeer) :
    HsKept p (fpSendConnReqAck env p) :=
  fpSendto_hsKept p (by simp [fillpEncodeConnReqAck]) (by simp [fillpEncodeConnReqAck])

theorem fpResendConnReq_hsKept (p : FillpPeer) : HsKept p (fpResendConnReq p) :=
  fpSendto_hsKept p (by simp [fillpEncodeConnReq]) (by simp [fillpEncodeConnReq])

/-! ## The system -/

/-- A datagram, the attempt of the side that sent it, and what the side had
received in that attempt. -/
structure FpMsg where
  bytes : Bytes
  attempt : ℕ
  heard : List Bytes

/-- A datagram on the wire, and the datagram whose handling sent it. -/
structure FpWire where
  own : FpMsg
  answers : Option FpMsg

structure FpRetry where
  engine : Side → FillpEngine
  attempt : Side → ℕ
  heard : Side → List Bytes
  wire : Side → List FpWire

/-- `deliver x i` hands the `i`-th datagram of the other side to side `x`. -/
inductive FpRetryEv : Type where
  | act (x : Side) (ev : FpEngineEv)
  | deliver (x : Side) (i : ℕ) (env : FpEnv)

/-- The event is a datagram from the address. -/
def FpEngineEv.comesFrom (a : FpAddr) : FpEngineEv → Bool
  | .datagram _ source _ => decide (source = a)
  | _ => false

def FpEngineEv.connectsTo (a : FpAddr) : FpEngineEv → Bool
  | .connect _ addr _ => decide (addr = a)
  | _ => false

section System

variable (hmacSha256 : Bytes → Bytes → Bytes) (addr : Side → FpAddr)

/-- The entry of a side's table for the other side. -/
def FpRetry.entry (s : FpRetry) (x : Side) : Option FillpPeer :=
  (s.engine x).peers.lookup (addr x.other)

/-- An engine event on a side; `cause` is the datagram it brings from the other
side. -/
def FpRetry.act (s : FpRetry) (x : Side) (ev : FpEngineEv) (cause : Option FpMsg) :
    Option FpRetry :=
  if (s.engine x).closeInProgress then some s
  else
    ((s.engine x).step hmacSha256 ev).map fun e =>
      let fresh := ev.connectsTo (addr x.other)
      let attempt := if fresh then s.attempt x + 1 else s.attempt x
      let heard := if fresh then [] else s.heard x ++ (cause.map FpMsg.bytes).toList
      let sends := fpEntrySends hmacSha256 (s.engine x) (addr x.other) ev (s.entry addr x)
      { engine := Function.update s.engine x e
        attempt := Function.update s.attempt x attempt
        heard := Function.update s.heard x heard
        wire := Function.update s.wire x
          (s.wire x ++ sends.map fun d => ⟨⟨d, attempt, heard⟩, cause⟩) }

def FpRetry.step (s : FpRetry) : FpRetryEv → Option FpRetry
  | .act x ev =>
      if ev.comesFrom (addr x.other) then none else s.act hmacSha256 addr x ev none
  | .deliver x i env =>
      (s.wire x.other)[i]?.bind fun w =>
        s.act hmacSha256 addr x (.datagram env (addr x.other) w.own.bytes) (some w.own)

end System

/-- Two new engines; nothing has been sent. -/
structure FpRetry.Init (s : FpRetry) : Prop where
  engine : ∀ x, ∃ port macKey, s.engine x = fillpEngineNew port macKey
  attempt : ∀ x, s.attempt x = 0
  heard : ∀ x, s.heard x = []
  wire : ∀ x, s.wire x = []

/-! ## What the entry knows, and what it sends -/

/-- The datagram is the CONN_CONFIRM that answers a CONN_REQ_ACK among those heard. -/
def Echoes (localAddr : Bytes) (heard : List Bytes) (d : Bytes) : Prop :=
  ∃ r ∈ heard, ∃ a, fpTypeOf r = some .connReqAck ∧ fillpDecodeConnReqAck r = some a ∧
    d = (fillpEncodeConnConfirm (fillpHlen + fillpConnConfirmLen) a.tagCookie a.cookie
      localAddr).getD []

/-- A pending client that has sent its CONN_CONFIRM has the cookie of a CONN_REQ_ACK
among those heard. -/
def HeardAck (heard : List Bytes) (p : FillpPeer) : Prop :=
  p.isClient = true → p.state = .pending → p.hsConfirmSent = true →
    ∃ r ∈ heard, ∃ a, fpTypeOf r = some .connReqAck ∧ fillpDecodeConnReqAck r = some a ∧
      p.hsTag = a.tagCookie ∧ p.cookie = a.cookie

theorem HeardAck.mono {heard heard' : List Bytes} {p : FillpPeer} (h : HeardAck heard p)
    (hsub : heard <+: heard') : HeardAck heard' p := by
  intro hclient hpending hsent
  obtain ⟨r, hr, hrest⟩ := h hclient hpending hsent
  exact ⟨r, hsub.subset hr, hrest⟩

theorem HeardAck.kept {heard : List Bytes} {p p' : FillpPeer} (h : HeardAck heard p)
    (hk : HsKept p p') : HeardAck heard p' := by
  obtain ⟨hclient, hcookie, htag, hconfirm⟩ := hk.fields
  intro hc hpending hsent
  rw [hcookie, htag]
  refine h (hclient ▸ hc) ?_ (hconfirm ▸ hsent)
  rcases hk.state with hs | hs
  · exact hs ▸ hpending
  · rw [hs] at hpending
    cases hpending

/-- An entry and the datagrams sent for it, after what was heard and the datagram
just handled. -/
structure HsOut (localAddr : Bytes) (heard : List Bytes) (cause : Option Bytes)
    (entry : Option FillpPeer) (sends : List Bytes) : Prop where
  acked : ∀ p, entry = some p → HeardAck heard p
  confirms : ∀ d ∈ sends, fpTypeOf d = some .connConfirm → Echoes localAddr heard d
  answers : ∀ d ∈ sends, fpTypeOf d = some .connConfirmAck →
    ∃ b, cause = some b ∧ fpTypeOf b = some .connConfirm

theorem HsOut.none (localAddr : Bytes) (heard : List Bytes) (cause : Option Bytes) :
    HsOut localAddr heard cause none [] :=
  ⟨by simp, by simp, by simp⟩

/-- Nothing is sent. -/
theorem HsOut.silent {localAddr : Bytes} {heard : List Bytes} {cause : Option Bytes}
    {entry : Option FillpPeer} (h : ∀ p, entry = some p → HeardAck heard p) :
    HsOut localAddr heard cause entry [] :=
  ⟨h, by simp, by simp⟩

theorem fpNewlySent_eq {p p' : FillpPeer} {ds : List Bytes} (h : p'.sent = p.sent ++ ds) :
    fpNewlySent p p' = ds := by
  rw [fpNewlySent, h, List.drop_left]

/-- What leaves the handshake alone sends none of its messages. -/
theorem HsKept.out {localAddr : Bytes} {heard : List Bytes} {cause : Option Bytes}
    {p p' : FillpPeer} (hk : HsKept p p') (h : HeardAck heard p) :
    HsOut localAddr heard cause (some p') (fpNewlySent p p') := by
  obtain ⟨ds, hds, hno⟩ := hk.sent
  rw [fpNewlySent_eq hds]
  refine ⟨?_, fun d hd htype => absurd htype (hno d hd).1,
    fun d hd htype => absurd htype (hno d hd).2⟩
  intro q hq
  cases hq
  exact h.kept hk

/-- A CONN_CONFIRM with the cookie of a CONN_REQ_ACK that was heard. -/
theorem HsOut.confirm {localAddr : Bytes} {heard : List Bytes} {cause : Option Bytes}
    {p p' : FillpPeer} (hsent : p'.sent = p.sent ++ [(fillpEncodeConnConfirm
      (fillpHlen + fillpConnConfirmLen) p'.hsTag p'.cookie localAddr).getD []])
    (h : ∃ r ∈ heard, ∃ a, fpTypeOf r = some .connReqAck ∧ fillpDecodeConnReqAck r = some a ∧
      p'.hsTag = a.tagCookie ∧ p'.cookie = a.cookie) :
    HsOut localAddr heard cause (some p') (fpNewlySent p p') := by
  rw [fpNewlySent_eq hsent]
  refine ⟨?_, ?_, ?_⟩
  · rintro q ⟨⟩ _ _ _
    exact h
  · intro d hd _
    obtain ⟨r, hr, a, htype, hdec, htag, hcookie⟩ := h
    rw [List.mem_singleton.mp hd]
    exact ⟨r, hr, a, htype, hdec, by rw [htag, hcookie]⟩
  · intro d hd hack
    rw [List.mem_singleton.mp hd] at hack
    simp [fillpEncodeConnConfirm] at hack

theorem HsOut.same {localAddr : Bytes} {heard : List Bytes} {cause : Option Bytes} {p : FillpPeer}
    (h : HeardAck heard p) : HsOut localAddr heard cause (some p) (fpNewlySent p p) :=
  (HsKept.refl p).out h

theorem fpHandleConnReqAck_out {localAddr : Bytes} {heard : List Bytes} {cause : Option Bytes}
    {p : FillpPeer} {buf : Bytes} (h : HeardAck heard p) (hbuf : buf ∈ heard)
    (htype : fpTypeOf buf = some .connReqAck) (env : FpEnv) :
    HsOut localAddr heard cause (some (fpHandleConnReqAck env localAddr p buf))
      (fpNewlySent p (fpHandleConnReqAck env localAddr p buf)) := by
  unfold fpHandleConnReqAck
  split
  · exact .same h
  split
  · exact .same h
  · rename_i a hdec
    exact .confirm rfl ⟨buf, hbuf, a, htype, hdec, rfl, rfl⟩

theorem fpHandleConnConfirm_out (hmacSha256 : Bytes → Bytes → Bytes) {localAddr : Bytes}
    {heard : List Bytes} {p : FillpPeer} {buf : Bytes} (h : HeardAck heard p)
    (htype : fpTypeOf buf = some .connConfirm) (env : FpEnv) (e : FillpEngine) :
    HsOut localAddr heard (some buf) (some (fpHandleConnConfirm hmacSha256 env e p buf))
      (fpNewlySent p (fpHandleConnConfirm hmacSha256 env e p buf)) := by
  unfold fpHandleConnConfirm
  split
  · exact .same h
  rename_i hserver
  split
  · exact .same h
  split
  · exact .same h
  split
  · set d := (fillpEncodeConnConfirmAck (fillpHlen + fillpConnConfirmAckLen)
      (UInt32.ofNat fpSendCache) (UInt32.ofNat fpRecvCache) (UInt32.ofNat fpPktDataMax)
      e.localAddr).getD [] with hd
    have hsend : ∀ q : FillpPeer, q.isClient = p.isClient → q.sent = p.sent ++ [d] →
        HsOut localAddr heard (some buf) (some q) (fpNewlySent p q) := by
      intro q hclient hsent
      rw [fpNewlySent_eq hsent]
      refine ⟨?_, ?_, fun _ _ _ => ⟨buf, rfl, htype⟩⟩
      · rintro q' ⟨⟩ hc
        exact absurd (hclient ▸ hc) hserver
      · intro d' hd' hconfirm
        rw [List.mem_singleton.mp hd', hd] at hconfirm
        simp [fillpEncodeConnConfirmAck] at hconfirm
    simp only
    split
    · exact hsend _ rfl rfl
    · exact hsend _ rfl rfl
  · exact (fpPeerRequestClose_hsKept env p).out h

theorem fpHandleConnConfirmAck_out {localAddr : Bytes} {heard : List Bytes} {cause : Option Bytes}
    {p : FillpPeer} (h : HeardAck heard p) (env : FpEnv) (buf : Bytes) :
    HsOut localAddr heard cause (some (fpHandleConnConfirmAck env p buf))
      (fpNewlySent p (fpHandleConnConfirmAck env p buf)) := by
  unfold fpHandleConnConfirmAck
  split
  · exact .same h
  split
  · exact .same h
  · have hsent : (fpPeerEstablished env p).sent = p.sent ++ [] := (List.append_nil _).symm
    rw [fpNewlySent_eq hsent]
    refine .silent ?_
    rintro q ⟨⟩ - hpending
    cases hpending

theorem fpReceive_out (hmacSha256 : Bytes → Bytes → Bytes) {heard : List Bytes} {p : FillpPeer}
    {buf : Bytes} (h : HeardAck heard p) (hbuf : buf ∈ heard) (env : FpEnv) (e : FillpEngine) :
    HsOut e.localAddr heard (some buf) (some (fpReceive hmacSha256 env e p buf))
      (fpNewlySent p (fpReceive hmacSha256 env e p buf)) := by
  unfold fpReceive
  split
  · split
    · exact .same h
    split
    · exact (fpSendConnReqAck_hsKept env p).out h
    · exact .same h
  · exact fpHandleConnReqAck_out h hbuf (by assumption) env
  · exact fpHandleConnConfirm_out hmacSha256 h (by assumption) env e
  · exact fpHandleConnConfirmAck_out h env buf
  · exact (fpDataPlane_hsKept env p buf).out h
  · exact .same h

theorem fpTickPeer_out {localAddr : Bytes} {heard : List Bytes} {cause : Option Bytes}
    {p : FillpPeer} (h : HeardAck heard p) (env : FpEnv) (fill : Option FpFill) :
    HsOut localAddr heard cause (some (fpTickPeer env localAddr fill p).1)
      (fpNewlySent p (fpTickPeer env localAddr fill p).1) := by
  unfold fpTickPeer
  split
  · rename_i hpending
    split
    · exact (fpPeerRequestClose_hsKept env p).out h
    split
    · rename_i hclient
      simp only
      split
      · rename_i hconfirm
        exact .confirm rfl (h hclient.1 hpending hconfirm)
      · have hclock : HsKept p { p with tHsRetransMs := env.now } := .quiet rfl (Or.inl rfl) rfl
        exact (hclock.trans (fpResendConnReq_hsKept _)).out h
    · exact .same h
  · exact .same h
  · exact (fpPump_hsKept env fill p).out h

/-- **The entry under an event of its engine.** -/
theorem fpEntryStep_out (hmacSha256 : Bytes → Bytes → Bytes) (e : FillpEngine) (a : FpAddr)
    {ev : FpEngineEv} {entry : Option FillpPeer} {heard heard' : List Bytes}
    {cause : Option Bytes} (h : ∀ p, entry = some p → HeardAck heard p)
    (hheard : ev.connectsTo a = false → heard <+: heard')
    (hcause : ∀ env buf, ev = .datagram env a buf → buf ∈ heard' ∧ cause = some buf) :
    HsOut e.localAddr heard' cause (fpEntryStep hmacSha256 e a ev entry)
      (fpEntrySends hmacSha256 e a ev entry) := by
  have hold : ev.connectsTo a = false → ∀ p, entry = some p → HeardAck heard' p :=
    fun hno p hp => (h p hp).mono (hheard hno)
  cases ev with
  | datagram env source buf =>
      simp only [fpEntryStep, fpEntrySends]
      split
      · rename_i hsource
        subst hsource
        obtain ⟨hmem, rfl⟩ := hcause env buf rfl
        cases entry with
        | none =>
            simp only [fpEntryDatagram, fpAdmit]
            split
            · cases fillpDecodeConnReq buf with
              | none => exact .none _ _ _
              | some r =>
                  refine ⟨?_, ?_, ?_⟩
                  · rintro q ⟨⟩ hclient
                    cases hclient
                  · intro d hd hconfirm
                    have hd' : d = _ := List.mem_singleton.mp hd
                    rw [hd'] at hconfirm
                    simp [fillpEncodeConnReqAck] at hconfirm
                  · intro d hd hack
                    have hd' : d = _ := List.mem_singleton.mp hd
                    rw [hd'] at hack
                    simp [fillpEncodeConnReqAck] at hack
            · exact .none _ _ _
        | some p => exact fpReceive_out hmacSha256 (hold rfl p rfl) hmem env e
      · exact .silent (hold rfl)
  | tick env fills =>
      cases entry with
      | none => exact .none _ _ _
      | some p =>
          have hout : HsOut e.localAddr heard' cause _ _ :=
            fpTickPeer_out (hold rfl p rfl) env (fills a)
          simp only [fpEntryStep, fpEntrySends, fpEntryTick]
          split
          · exact ⟨by simp, hout.confirms, hout.answers⟩
          · exact hout
  | connect env addr sendOk =>
      simp only [fpEntryStep, fpEntrySends]
      split
      · have hfresh : HeardAck heard' (fpClientPeer env) := by
          intro _ _ hsent
          cases hsent
        have hkept : HsKept (fpClientPeer env) (fpConnected env sendOk) := by
          unfold fpConnected
          split
          · exact fpResendConnReq_hsKept _
          · exact fpPeerRequestClose_hsKept env _
        exact hkept.out hfresh
      · rename_i hother
        exact .silent (hold (by simp [FpEngineEv.connectsTo, hother]))
  | send addr data =>
      refine .silent ?_
      simp only [fpEntryStep]
      split
      · intro q hq
        obtain ⟨p, hp, rfl⟩ := Option.map_eq_some_iff.mp hq
        exact (hold rfl p hp).kept (fillpPeerSend_hsKept p data)
      · exact hold rfl
  | close env addr =>
      simp only [fpEntryStep, fpEntrySends]
      cases entry with
      | none => split <;> exact .none _ _ _
      | some p =>
          split
          · exact (fpPeerRequestClose_hsKept env p).out (hold rfl p rfl)
          · exact .silent (hold rfl)
  | shutdown =>
      refine .silent ?_
      intro q hq
      exact hold rfl q (Option.filter_eq_some_iff.mp hq).1

/-! ## How a client opens -/

/-- The entry is an established client. -/
def ClientOpen (entry : Option FillpPeer) : Prop :=
  ∃ p, entry = some p ∧ p.isClient = true ∧ p.state = .established

theorem HsKept.clientOpen {p p' : FillpPeer} (hk : HsKept p p') (h : ClientOpen (some p')) :
    ClientOpen (some p) := by
  obtain ⟨q, hq, hclient, hopen⟩ := h
  cases hq
  refine ⟨p, rfl, hk.fields.1 ▸ hclient, ?_⟩
  rcases hk.state with hs | hs
  · exact hs ▸ hopen
  · rw [hs] at hopen
    cases hopen

theorem fpHandleConnConfirm_isClient (hmacSha256 : Bytes → Bytes → Bytes) (env : FpEnv)
    (e : FillpEngine) (p : FillpPeer) (buf : Bytes) :
    (fpHandleConnConfirm hmacSha256 env e p buf).isClient = p.isClient := by
  unfold fpHandleConnConfirm
  split
  · rfl
  split
  · rfl
  split
  · rfl
  split
  · simp only
    split <;> rfl
  · exact fpPeerRequestClose_isClient env p

/-- Only a CONN_CONFIRM_ACK opens a client. -/
theorem fpReceive_opens (hmacSha256 : Bytes → Bytes → Bytes) (env : FpEnv) (e : FillpEngine)
    {p : FillpPeer} {buf : Bytes} (hbefore : ¬ ClientOpen (some p))
    (hafter : ClientOpen (some (fpReceive hmacSha256 env e p buf))) :
    fpTypeOf buf = some .connConfirmAck := by
  unfold fpReceive at hafter
  split at hafter
  · exfalso
    split at hafter
    · exact hbefore hafter
    split at hafter
    · exact hbefore ((fpSendConnReqAck_hsKept env p).clientOpen hafter)
    · exact hbefore hafter
  · exfalso
    unfold fpHandleConnReqAck at hafter
    split at hafter
    · exact hbefore hafter
    split at hafter
    · exact hbefore hafter
    · obtain ⟨q, hq, hclient, hopen⟩ := hafter
      cases hq
      exact hbefore ⟨p, rfl, hclient, hopen⟩
  · exfalso
    obtain ⟨q, hq, hclient, hopen⟩ := hafter
    cases hq
    rw [fpHandleConnConfirm_isClient] at hclient
    rw [fpHandleConnConfirm, if_pos hclient] at hopen
    exact hbefore ⟨p, rfl, hclient, hopen⟩
  · assumption
  · exact absurd ((fpDataPlane_hsKept env p buf).clientOpen hafter) hbefore
  · exact absurd hafter hbefore

theorem fpEntryStep_opens (hmacSha256 : Bytes → Bytes → Bytes) (e : FillpEngine) (a : FpAddr)
    {ev : FpEngineEv} {entry : Option FillpPeer} (hbefore : ¬ ClientOpen entry)
    (hafter : ClientOpen (fpEntryStep hmacSha256 e a ev entry)) :
    ∃ env buf, ev = .datagram env a buf ∧ fpTypeOf buf = some .connConfirmAck := by
  cases ev with
  | datagram env source buf =>
      simp only [fpEntryStep] at hafter
      split at hafter
      · rename_i hsource
        subst hsource
        refine ⟨env, buf, rfl, ?_⟩
        cases entry with
        | some p => exact fpReceive_opens hmacSha256 env e hbefore hafter
        | none =>
            exfalso
            obtain ⟨q, hq, hclient, -⟩ := hafter
            simp only [fpEntryDatagram, fpAdmit] at hq
            split at hq
            · obtain ⟨r, -, rfl⟩ := Option.map_eq_some_iff.mp hq
              cases hclient
            · cases hq
      · exact absurd hafter hbefore
  | tick env fills =>
      exfalso
      cases entry with
      | none =>
          obtain ⟨q, hq, -⟩ := hafter
          cases hq
      | some p =>
          obtain ⟨q, hq, hclient, hopen⟩ := hafter
          simp only [fpEntryStep, fpEntryTick] at hq
          split at hq
          · cases hq
          · cases hq
            rw [(fpTickPeer_staysShut env e.localAddr (fills a) p).isClient] at hclient
            exact hbefore ⟨p, rfl, hclient, fpTickPeer_state env e.localAddr (fills a) p hopen⟩
  | connect env addr sendOk =>
      exfalso
      simp only [fpEntryStep] at hafter
      split at hafter
      · obtain ⟨q, hq, -, hopen⟩ := hafter
        cases hq
        unfold fpConnected at hopen
        split at hopen
        · cases hopen
        · exact fpPeerRequestClose_state env _ hopen
      · exact hbefore hafter
  | send addr data =>
      exfalso
      simp only [fpEntryStep] at hafter
      split at hafter
      · cases entry with
        | none => exact hbefore hafter
        | some p => exact hbefore ((fillpPeerSend_hsKept p data).clientOpen hafter)
      · exact hbefore hafter
  | close env addr =>
      exfalso
      simp only [fpEntryStep] at hafter
      split at hafter
      · cases entry with
        | none => exact hbefore hafter
        | some p => exact hbefore ((fpPeerRequestClose_hsKept env p).clientOpen hafter)
      · exact hbefore hafter
  | shutdown =>
      exfalso
      obtain ⟨q, hq, hrest⟩ := hafter
      exact hbefore ⟨q, (Option.filter_eq_some_iff.mp hq).1, hrest⟩

/-! ## Provenance -/

section Provenance

variable {hmacSha256 : Bytes → Bytes → Bytes} {addr : Side → FpAddr}

/-- Where the handshake messages come from. -/
structure RetryInv (addr : Side → FpAddr) (s : FpRetry) : Prop where
  acked : ∀ x p, s.entry addr x = some p → HeardAck (s.heard x) p
  attempts : ∀ x, ∀ w ∈ s.wire x, w.own.attempt ≤ s.attempt x ∧
    (w.own.attempt = s.attempt x → w.own.heard <+: s.heard x)
  confirms : ∀ x, ∀ w ∈ s.wire x, fpTypeOf w.own.bytes = some .connConfirm →
    Echoes (s.engine x).localAddr w.own.heard w.own.bytes
  answers : ∀ x, ∀ w ∈ s.wire x, fpTypeOf w.own.bytes = some .connConfirmAck →
    ∃ v ∈ s.wire x.other, w.answers = some v.own ∧ fpTypeOf v.own.bytes = some .connConfirm

theorem RetryInv.init {s : FpRetry} (h : s.Init) : RetryInv addr s := by
  refine ⟨?_, ?_, ?_, ?_⟩
  · intro x p hp
    obtain ⟨port, macKey, he⟩ := h.engine x
    rw [FpRetry.entry, he, fillpEngineNew, AList.lookup_empty] at hp
    cases hp
  · intro x w hw
    rw [h.wire x] at hw
    cases hw
  · intro x w hw
    rw [h.wire x] at hw
    cases hw
  · intro x w hw
    rw [h.wire x] at hw
    cases hw

/-- An engine event on one side, with the message that brought it if it is a
datagram from the other side. -/
theorem RetryInv.act {s s' : FpRetry} (h : RetryInv addr s) {x : Side} {ev : FpEngineEv}
    {cause : Option FpMsg} (hs : s.act hmacSha256 addr x ev cause = some s')
    (hcause : ∀ m, cause = some m → ∃ v ∈ s.wire x.other, v.own = m)
    (hbytes : ∀ env buf, ev = .datagram env (addr x.other) buf →
      cause.map FpMsg.bytes = some buf) : RetryInv addr s' := by
  unfold FpRetry.act at hs
  split at hs
  · cases hs
    exact h
  rename_i hlive
  rw [Bool.not_eq_true] at hlive
  obtain ⟨e, he, rfl⟩ := Option.map_eq_some_iff.mp hs
  have hlook := FillpEngine.step_lookup hlive he (addr x.other)
  have hla := FillpEngine.step_localAddr he
  set fresh := ev.connectsTo (addr x.other) with hfresh
  set attempt := if fresh = true then s.attempt x + 1 else s.attempt x with hattempt
  set heard := if fresh = true then [] else s.heard x ++ (cause.map FpMsg.bytes).toList with hheard
  have hgrow : fresh = false → s.heard x <+: heard := by
    intro hno
    rw [hheard, hno]
    exact List.prefix_append _ _
  have hout : HsOut (s.engine x).localAddr heard (cause.map FpMsg.bytes) _ _ :=
    fpEntryStep_out hmacSha256 (s.engine x) (addr x.other) (h.acked x) hgrow (by
      rintro env buf rfl
      have hbuf := hbytes env buf rfl
      rw [hheard, hfresh, hbuf]
      exact ⟨by simp [FpEngineEv.connectsTo], rfl⟩)
  have hold : ∀ w ∈ s.wire x, w.own.attempt ≤ attempt ∧
      (w.own.attempt = attempt → w.own.heard <+: heard) := by
    intro w hw
    obtain ⟨hle, hpre⟩ := h.attempts x w hw
    cases hf : fresh with
    | true => rw [hattempt, hf, if_pos rfl]; exact ⟨by omega, fun heq => by omega⟩
    | false =>
        have hsame : attempt = s.attempt x := by rw [hattempt, hf]; rfl
        rw [hsame]
        exact ⟨hle, fun heq => (hpre heq).trans (hgrow hf)⟩
  have hother : x.other ≠ x := Side.other_ne x
  refine ⟨?_, ?_, ?_, ?_⟩
  · intro y p hp
    rcases Side.eq_or_eq_other x y with rfl | rfl
    · simp only [FpRetry.entry, Function.update_self] at hp ⊢
      rw [hlook] at hp
      exact hout.acked p hp
    · simp only [FpRetry.entry, Function.update_of_ne hother] at hp ⊢
      exact h.acked _ p hp
  · intro y w hw
    rcases Side.eq_or_eq_other x y with rfl | rfl
    · simp only [Function.update_self] at hw ⊢
      rcases List.mem_append.mp hw with hw | hw
      · exact hold w hw
      · obtain ⟨d, -, rfl⟩ := List.mem_map.mp hw
        exact ⟨Nat.le_refl _, fun _ => List.prefix_refl _⟩
    · simp only [Function.update_of_ne hother] at hw ⊢
      exact h.attempts _ w hw
  · intro y w hw
    rcases Side.eq_or_eq_other x y with rfl | rfl
    · simp only [Function.update_self] at hw ⊢
      rw [hla]
      rcases List.mem_append.mp hw with hw | hw
      · exact h.confirms _ w hw
      · obtain ⟨d, hd, rfl⟩ := List.mem_map.mp hw
        exact hout.confirms d hd
    · simp only [Function.update_of_ne hother] at hw ⊢
      exact h.confirms _ w hw
  · intro y w hw
    rcases Side.eq_or_eq_other x y with rfl | rfl
    · simp only [Function.update_self, Function.update_of_ne hother] at hw ⊢
      rcases List.mem_append.mp hw with hw | hw
      · exact h.answers _ w hw
      · obtain ⟨d, hd, rfl⟩ := List.mem_map.mp hw
        intro htype
        obtain ⟨b, hb, hconfirm⟩ := hout.answers d hd htype
        obtain ⟨m, hm, rfl⟩ := Option.map_eq_some_iff.mp hb
        obtain ⟨v, hv, rfl⟩ := hcause m hm
        exact ⟨v, hv, hm, hconfirm⟩
    · simp only [Function.update_of_ne hother, Side.other_other, Function.update_self] at hw ⊢
      intro htype
      obtain ⟨v, hv, hrest⟩ := h.answers _ w hw htype
      rw [Side.other_other] at hv
      exact ⟨v, List.mem_append_left _ hv, hrest⟩

theorem RetryInv.step {s s' : FpRetry} {e : FpRetryEv} (h : RetryInv addr s)
    (hs : s.step hmacSha256 addr e = some s') : RetryInv addr s' := by
  cases e with
  | act x ev =>
      unfold FpRetry.step at hs
      simp only at hs
      split at hs
      · cases hs
      rename_i hother
      refine h.act hs (by simp) ?_
      rintro env buf rfl
      simp [FpEngineEv.comesFrom] at hother
  | deliver x i env =>
      obtain ⟨w, hw, hs⟩ := Option.bind_eq_some_iff.mp hs
      refine h.act hs ?_ ?_
      · rintro m ⟨⟩
        exact ⟨w, List.mem_of_getElem? hw, rfl⟩
      · rintro env' buf ⟨⟩
        rfl

/-- An event on a side acts on the entry there, and on no other. -/
theorem FpRetry.act_entry {s s' : FpRetry} {y : Side} {ev : FpEngineEv} {cause : Option FpMsg}
    (hs : s.act hmacSha256 addr y ev cause = some s') (x : Side) :
    s'.entry addr x = s.entry addr x ∨ (y = x ∧ s'.entry addr x =
      fpEntryStep hmacSha256 (s.engine x) (addr x.other) ev (s.entry addr x)) := by
  unfold FpRetry.act at hs
  split at hs
  · cases hs
    exact Or.inl rfl
  rename_i hlive
  rw [Bool.not_eq_true] at hlive
  obtain ⟨e, he, rfl⟩ := Option.map_eq_some_iff.mp hs
  rcases Side.eq_or_eq_other y x with rfl | rfl
  · right
    refine ⟨rfl, ?_⟩
    simp only [FpRetry.entry, Function.update_self]
    exact FillpEngine.step_lookup hlive he _
  · left
    simp only [FpRetry.entry, Function.update_of_ne (Side.other_ne y)]

/-- The datagram answers a CONN_CONFIRM of this attempt, which echoes a CONN_REQ_ACK
received in this attempt. -/
def FpRetry.AnswersOwn (s : FpRetry) (x : Side) (w : FpWire) : Prop :=
  ∃ m, w.answers = some m ∧ m.attempt = s.attempt x ∧ m.heard <+: s.heard x ∧
    Echoes (s.engine x).localAddr m.heard m.bytes

/-- The datagram answers one of an earlier attempt. -/
def FpRetry.Stale (s : FpRetry) (x : Side) (w : FpWire) : Prop :=
  ∃ m, w.answers = some m ∧ m.attempt < s.attempt x

/-- **What opens a client**, in any run: a CONN_CONFIRM_ACK, and it is the answer to
this attempt's handshake exactly if it does not answer an earlier one. -/
theorem FpRetry.opens_iff {s t t' : FpRetry} {es : List FpRetryEv} {e : FpRetryEv} {x : Side}
    (hs : s.Init) (hrun : run (FpRetry.step hmacSha256 addr) s es = some t)
    (hstep : t.step hmacSha256 addr e = some t') (hbefore : ¬ ClientOpen (t.entry addr x))
    (hafter : ClientOpen (t'.entry addr x)) :
    ∃ i env w, e = .deliver x i env ∧ (t.wire x.other)[i]? = some w ∧
      fpTypeOf w.own.bytes = some .connConfirmAck ∧ (t.AnswersOwn x w ↔ ¬ t.Stale x w) := by
  have h : RetryInv addr t := run_inv_all _ (fun _ _ _ hinv he => hinv.step he) (.init hs) hrun
  cases e with
  | act y ev =>
      exfalso
      unfold FpRetry.step at hstep
      simp only at hstep
      split at hstep
      · cases hstep
      rename_i hother
      rcases FpRetry.act_entry hstep x with hsame | ⟨rfl, hentry⟩
      · exact hbefore (hsame ▸ hafter)
      · rw [hentry] at hafter
        obtain ⟨env, buf, rfl, -⟩ := fpEntryStep_opens hmacSha256 _ _ hbefore hafter
        simp [FpEngineEv.comesFrom] at hother
  | deliver y i env =>
      obtain ⟨w, hw, hact⟩ := Option.bind_eq_some_iff.mp hstep
      rcases FpRetry.act_entry hact x with hsame | ⟨rfl, hentry⟩
      · exact absurd (hsame ▸ hafter) hbefore
      rw [hentry] at hafter
      obtain ⟨_, _, hev, htype⟩ := fpEntryStep_opens hmacSha256 _ _ hbefore hafter
      injection hev with _ _ hbuf
      subst hbuf
      refine ⟨i, env, w, rfl, hw, htype, ?_⟩
      obtain ⟨v, hv, hanswers, hconfirm⟩ := h.answers _ w (List.mem_of_getElem? hw) htype
      rw [Side.other_other] at hv
      obtain ⟨hle, hpre⟩ := h.attempts _ v hv
      constructor
      · rintro ⟨m, hm, hattempt, -⟩ ⟨m', hm', hlt⟩
        rw [hm] at hm'
        cases hm'
        omega
      · intro hfresh
        have heq : v.own.attempt = t.attempt y := by
          by_contra hne
          exact hfresh ⟨v.own, hanswers, by omega⟩
        exact ⟨v.own, hanswers, heq, hpre heq, h.confirms _ v hv hconfirm⟩

end Provenance

/-! ## Two attempts -/

def retryAddr : Side → FpAddr
  | .left => ⟨0, 1⟩
  | .right => ⟨0, 2⟩

/-- The HMAC under the zero key of the one cookie filled here. -/
def retryHmac (_ _ : Bytes) : Bytes :=
  [184, 19, 74, 86, 182, 248, 166, 170, 244, 190, 25, 140, 92, 219, 239, 155, 32, 9, 104, 250, 213,
    140, 68, 146, 17, 90, 172, 140, 101, 46, 232, 154]

def retryEnv (now : ℕ) : FpEnv := ⟨now, UInt64.ofNat (now * 1000), 0, 0⟩

def retryStart : FpRetry where
  engine := fun x => fillpEngineNew (retryAddr x).port (List.replicate 32 0)
  attempt := fun _ => 0
  heard := fun _ => []
  wire := fun _ => []

/-- Connect, up to the CONN_CONFIRM_ACK that the other side sends. -/
def retryFirst : List FpRetryEv :=
  [.act .left (.connect (retryEnv 0) (retryAddr .right) true), .deliver .right 0 (retryEnv 0),
    .deliver .left 0 (retryEnv 0), .deliver .right 1 (retryEnv 0)]

/-- The CONN_CONFIRM_ACK is late: the handshake times out, and the client connects again. -/
def retrySecond : List FpRetryEv :=
  retryFirst ++ [.act .left (.tick (retryEnv 5000) fun _ => none),
    .act .left (.tick (retryEnv 7000) fun _ => none),
    .act .left (.connect (retryEnv 7000) (retryAddr .right) true)]

/-- What there is to know about the delivery of the CONN_CONFIRM_ACK: the client before
and after it, the attempt it answers and the attempt that is running. -/
def retryOpens (es : List FpRetryEv) :
    Option (Option (Bool × FpState) × Option (Bool × FpState) × Option ℕ × ℕ) :=
  (run (FpRetry.step retryHmac retryAddr) retryStart es).bind fun t =>
    (t.step retryHmac retryAddr (.deliver .left 1 (retryEnv 7000))).map fun t' =>
      ((t.entry retryAddr .left).map fun p => (p.isClient, p.state),
        (t'.entry retryAddr .left).map fun p => (p.isClient, p.state),
        (t.wire .right)[1]?.bind fun w => w.answers.map FpMsg.attempt, t.attempt .left)

theorem retryStart_init : retryStart.Init :=
  ⟨fun _ => ⟨_, _, rfl⟩, fun _ => rfl, fun _ => rfl, fun _ => rfl⟩

/-- The client opens on the delivery, with what `retryOpens` says. -/
theorem retryOpens_spec (es : List FpRetryEv) (k n : ℕ)
    (h : retryOpens es = some (some (true, .pending), some (true, .established), some k, n)) :
    ∃ t t' w m, run (FpRetry.step retryHmac retryAddr) retryStart es = some t ∧
      t.step retryHmac retryAddr (.deliver .left 1 (retryEnv 7000)) = some t' ∧
      ¬ ClientOpen (t.entry retryAddr .left) ∧ ClientOpen (t'.entry retryAddr .left) ∧
      (t.wire .right)[1]? = some w ∧ w.answers = some m ∧ m.attempt = k ∧ t.attempt .left = n := by
  obtain ⟨t, hrun, h⟩ := Option.bind_eq_some_iff.mp h
  obtain ⟨t', hstep, h⟩ := Option.map_eq_some_iff.mp h
  simp only [Prod.mk.injEq] at h
  obtain ⟨hbefore, hafter, hw, hn⟩ := h
  obtain ⟨p, hp, hfields⟩ := Option.map_eq_some_iff.mp hbefore
  obtain ⟨p', hp', hfields'⟩ := Option.map_eq_some_iff.mp hafter
  obtain ⟨w, hw, hm⟩ := Option.bind_eq_some_iff.mp hw
  obtain ⟨m, hm, hk⟩ := Option.map_eq_some_iff.mp hm
  rw [Prod.mk.injEq] at hfields hfields'
  refine ⟨t, t', w, m, hrun, hstep, ?_, ⟨p', hp', hfields'⟩, hw, hm, hk, hn⟩
  rintro ⟨q, hq, -, hopen⟩
  rw [hp] at hq
  cases hq
  rw [hfields.2] at hopen
  cases hopen

/-- The CONN_CONFIRM_ACK arrives in time. -/
theorem FpRetry.opens_iff_first :
    ∃ t t' w, run (FpRetry.step retryHmac retryAddr) retryStart retryFirst = some t ∧
      t.step retryHmac retryAddr (.deliver .left 1 (retryEnv 7000)) = some t' ∧
      ClientOpen (t'.entry retryAddr .left) ∧ (t.wire .right)[1]? = some w ∧
      t.AnswersOwn .left w := by
  obtain ⟨t, t', w, m, hrun, hstep, hbefore, hafter, hw, hm, hk, hn⟩ :=
    retryOpens_spec retryFirst 1 1 (by decide +kernel)
  obtain ⟨i, env, w', hev, hw', -, hiff⟩ :=
    FpRetry.opens_iff retryStart_init hrun hstep hbefore hafter
  injection hev with _ hi
  subst hi
  obtain rfl : w = w' := Option.some.inj (hw.symm.trans hw')
  refine ⟨t, t', w, hrun, hstep, hafter, hw, hiff.mpr ?_⟩
  rintro ⟨m', hm', hlt⟩
  rw [hm] at hm'
  cases hm'
  omega

/-- **A late CONN_CONFIRM_ACK opens the next attempt**, which has received no
CONN_REQ_ACK. -/
theorem FpRetry.not_opens_own :
    ∃ t t' w, run (FpRetry.step retryHmac retryAddr) retryStart retrySecond = some t ∧
      t.step retryHmac retryAddr (.deliver .left 1 (retryEnv 7000)) = some t' ∧
      ¬ ClientOpen (t.entry retryAddr .left) ∧ ClientOpen (t'.entry retryAddr .left) ∧
      (t.wire .right)[1]? = some w ∧ ¬ t.AnswersOwn .left w := by
  obtain ⟨t, t', w, m, hrun, hstep, hbefore, hafter, hw, hm, hk, hn⟩ :=
    retryOpens_spec retrySecond 1 2 (by decide +kernel)
  refine ⟨t, t', w, hrun, hstep, hbefore, hafter, hw, ?_⟩
  rintro ⟨m', hm', hattempt, -⟩
  rw [hm] at hm'
  cases hm'
  omega

end HwPhoneLink.Fillp
