import HwPhoneLink.Fillp.PeerRun
import Mathlib.Data.List.Infix

/-!
# Delivery over the whole life of a connection

From the handshake on, through closing from either side at any time, to the end of the peers:
the network loses, repeats and reorders datagrams, and what a peer has passed to `on_data` is
always the front of what the other end has accepted.
-/

namespace HwPhoneLink.Fillp

open BigEndian Transitions

/-- Nothing but the handshake has happened. -/
structure SameStream (p p' : FillpPeer) : Prop where
  plane : SamePlane p p'
  packs : ∃ ds, p'.sent = p.sent ++ ds ∧ ∀ d ∈ ds, fpTypeOf d ≠ some .pack

section
variable {o p p' : FillpPeer}

theorem SameStream.refl (p : FillpPeer) : SameStream p p :=
  ⟨.refl p, [], (List.append_nil _).symm, by simp⟩

theorem SameStream.rcv {pk : List Bytes} (hs : SameStream p p') (h : RcvInv pk p) :
    RcvInv pk p' := by
  obtain ⟨hplane, ds, hds, hno⟩ := hs
  have hfields := hplane.fields
  have hnum : p'.recvPktNum = p.recvPktNum := by rw [hfields]
  have hdelivered : p'.delivered = p.delivered := by rw [hfields]
  have hofo : p'.ofo = p.ofo := by rw [hfields]
  refine ⟨?_, ?_, ?_, ?_, ?_⟩
  · rw [hnum, hdelivered]
    exact h.num
  · rw [hdelivered]
    exact h.pre
  · rw [hofo]
    exact h.key
  · rw [hofo, hdelivered]
    exact h.ofo
  · intro d hd htype
    rw [hdelivered]
    rw [hds, List.mem_append] at hd
    exact hd.elim (fun hd => h.packs d hd htype) fun hd => absurd htype (hno d hd)

theorem fpPeerRequestClose_sameStream (env : FpEnv) (p : FillpPeer) :
    SameStream p (fpPeerRequestClose env p) := by
  obtain ⟨ds, hds, hno⟩ := (fpPeerRequestClose_sameRcv env p).sent
  exact ⟨fpPeerRequestClose_samePlane env p, ds, hds, fun d hd => (hno d hd).1⟩

/-- A datagram of the data plane, or of the handshake. -/
theorem fpReceive_stream (hmacSha256 : Bytes → Bytes → Bytes) (env : FpEnv) (e : FillpEngine)
    (p : FillpPeer) (buf : Bytes) :
    fpReceive hmacSha256 env e p buf = fpDataPlane env p buf ∨
      SameStream p (fpReceive hmacSha256 env e p buf) := by
  unfold fpReceive
  split
  · right
    split
    · exact .refl p
    split
    · exact ⟨⟨rfl, ⟨_, rfl, by simp [fillpEncodeConnReqAck]⟩, fun h => h⟩, _, rfl,
        by simp [fillpEncodeConnReqAck]⟩
    · exact .refl p
  · right
    refine ⟨fpHandleConnReqAck_samePlane env e.localAddr p buf, ?_⟩
    unfold fpHandleConnReqAck
    split
    · exact (SameStream.refl p).packs
    split
    · exact (SameStream.refl p).packs
    · exact ⟨_, rfl, by simp [fillpEncodeConnConfirm]⟩
  · right
    refine ⟨fpHandleConnConfirm_samePlane hmacSha256 env e p buf, ?_⟩
    unfold fpHandleConnConfirm
    split
    · exact (SameStream.refl p).packs
    split
    · exact (SameStream.refl p).packs
    split
    · exact (SameStream.refl p).packs
    split
    · simp only
      split
      · exact ⟨_, rfl, by simp [fillpEncodeConnConfirmAck]⟩
      · exact ⟨_, rfl, by simp [fillpEncodeConnConfirmAck]⟩
    · exact (fpPeerRequestClose_sameStream env p).packs
  · right
    refine ⟨fpHandleConnConfirmAck_samePlane env p buf, ?_⟩
    unfold fpHandleConnConfirmAck
    split
    · exact (SameStream.refl p).packs
    split
    · exact (SameStream.refl p).packs
    · exact ⟨[], by simp [fpPeerEstablished], by simp⟩
  · exact Or.inl rfl
  · exact Or.inr (.refl p)

/-- A tick pumps, or looks after the handshake. -/
theorem fpTickPeer_stream (env : FpEnv) (localAddr : Bytes) (fill : Option FpFill)
    (p : FillpPeer) :
    (fpTickPeer env localAddr fill p).1 = fpPump env fill p ∧
        (p.state = .established ∨ p.state = .closing) ∨
      SameStream p (fpTickPeer env localAddr fill p).1 := by
  unfold fpTickPeer
  split
  · right
    split
    · exact fpPeerRequestClose_sameStream env p
    split
    · simp only
      split
      · exact ⟨⟨rfl, ⟨_, rfl, by simp [fillpEncodeConnConfirm]⟩, fun h => h⟩, _, rfl,
          by simp [fillpEncodeConnConfirm]⟩
      · exact ⟨⟨rfl, ⟨_, rfl, by simp [fillpEncodeConnReq]⟩, fun h => h⟩, _, rfl,
          by simp [fillpEncodeConnReq]⟩
    · exact .refl p
  · exact Or.inr (.refl p)
  · rename_i hpending hclosed
    left
    refine ⟨rfl, ?_⟩
    cases hstate : p.state with
    | pending => exact absurd hstate hpending
    | established => exact Or.inl rfl
    | closing => exact Or.inr rfl
    | closed => exact absurd hstate hclosed

/-- A peer whose stream comes from `o`: what it has taken of that, and what `o` has
acknowledged of its own. -/
structure StreamHalf (o p : FillpPeer) : Prop where
  snd : SndInv p
  rcv : RcvInv o.numbered p
  acked : p.ackedNum ≤ o.delivered.length

/-- What a step makes of the peer. -/
structure StreamStep (o p p' : FillpPeer) : Prop where
  half : StreamHalf o p'
  numbered : p.numbered <+: p'.numbered
  delivered : p.delivered <+: p'.delivered

theorem StreamHalf.id (h : StreamHalf o p) : StreamStep o p p :=
  ⟨h, List.prefix_refl _, List.prefix_refl _⟩

theorem SameStream.streamStep (hs : SameStream p p') (h : StreamHalf o p) :
    StreamStep o p p' where
  half := ⟨h.snd.congr hs.plane.sameSnd, hs.rcv h.rcv, hs.plane.sameSnd.ackedNum ▸ h.acked⟩
  numbered := by rw [hs.plane.sameSnd.numbered]
  delivered := by rw [hs.plane.fields]

theorem fillpPeerSend_streamStep (h : StreamHalf o p) (data : Bytes) :
    StreamStep o p (fillpPeerSend p data) where
  half := ⟨fillpPeerSend_sndInv h.snd data, h.rcv.congr (fillpPeerSend_sameRcv p data),
    (fillpPeerSend_grows p data).acked ▸ h.acked⟩
  numbered := (fillpPeerSend_grows p data).numbered
  delivered := by rw [(fillpPeerSend_sameRcv p data).delivered]

theorem fpTickPeer_streamStep (h : StreamHalf o p) (env : FpEnv) (localAddr : Bytes)
    (fill : Option FpFill) : StreamStep o p (fpTickPeer env localAddr fill p).1 := by
  rcases fpTickPeer_stream env localAddr fill p with ⟨hpump, -⟩ | hsame
  · rw [hpump]
    obtain ⟨hrcv, hdelivered⟩ := fpPump_rcv h.rcv env fill
    have hgrows := fpPump_grows env fill p
    refine ⟨⟨fpPump_sndInv h.snd env fill, hrcv, hgrows.acked ▸ h.acked⟩, hgrows.numbered, ?_⟩
    rw [hdelivered]
  · exact hsame.streamStep h

/-- A PACK acknowledges what the other end has delivered. -/
theorem fpDataPlane_acked (h : StreamHalf o p) (ho : StreamHalf p o)
    (hlen : p.numbered.length < 2 ^ 31) {d : Bytes} (hd : d ∈ o.sent) (env : FpEnv) :
    (fpDataPlane env p d).ackedNum ≤ o.delivered.length := by
  by_cases hpack : fpTypeOf d = some .pack
  · simp only [fpDataPlane, hpack]
    split
    · obtain ⟨c, hc, hdec⟩ := ho.rcv.packs d hd hpack
      rw [fpOnPack_acked h.snd hdec (by omega) (Nat.le_trans hc ho.rcv.le)]
      exact Nat.max_le.mpr ⟨h.acked, hc⟩
    · exact h.acked
  · rw [fpDataPlane_ackedNum env p hpack]
    exact h.acked

/-- A datagram comes from the other end, whatever its age. -/
theorem fpReceive_streamStep (hmacSha256 : Bytes → Bytes → Bytes) (h : StreamHalf o p)
    (ho : StreamHalf p o) (hlen : p.numbered.length < 2 ^ 31) (hlen' : o.numbered.length < 2 ^ 31)
    {d : Bytes} (hd : d ∈ o.sent) (env : FpEnv) (e : FillpEngine) :
    StreamStep o p (fpReceive hmacSha256 env e p d) := by
  rcases fpReceive_stream hmacSha256 env e p d with hplane | hsame
  · rw [hplane]
    obtain ⟨hrcv, hle⟩ := fpDataPlane_rcv h.rcv hlen' (fun d hd => (ho.snd.sizes d hd).2)
      (ho.snd.frames d hd) env
    refine ⟨⟨fpDataPlane_sndInv h.snd env d, hrcv, fpDataPlane_acked h ho hlen hd env⟩, ?_, ?_⟩
    · rw [(fpDataPlane_grows env p d).1]
    · exact List.prefix_of_prefix_length_le h.rcv.pre hrcv.pre hle
  · exact hsame.streamStep h

end

/-! ## Runs -/

/-- Both streams are in order. -/
structure PairStream (s : FpPair) : Prop where
  half : ∀ x, StreamHalf (s.peer x.other) (s.peer x)

/-- The larger of the two packet counts. -/
def FpPair.numberedMax (s : FpPair) : ℕ :=
  max (s.peer .left).numbered.length (s.peer .right).numbered.length

section
variable {hmacSha256 : Bytes → Bytes → Bytes} {engine : Side → FillpEngine} {s s' t : FpPair}
  {e : FpPairEv}

theorem FpPair.numbered_le_max (s : FpPair) (x : Side) :
    (s.peer x).numbered.length ≤ s.numberedMax := by
  cases x
  · exact Nat.le_max_left _ _
  · exact Nat.le_max_right _ _

/-- One side is written, and the other is left alone. -/
theorem FpPair.put_spec {x : Side} {p' : FillpPeer} {gone : Bool}
    (hs : s.put x p' gone = some s') :
    s'.peer x = p' ∧ s'.peer x.other = s.peer x.other := by
  unfold FpPair.put at hs
  split at hs
  · cases hs
  cases hs
  exact ⟨Function.update_self _ _ _, Function.update_of_ne (Side.other_ne x) _ _⟩

/-- What an event makes of the two peers. -/
structure PairStep (s s' : FpPair) : Prop where
  stream : PairStream s'
  numbered : ∀ x, (s.peer x).numbered <+: (s'.peer x).numbered
  delivered : ∀ x, (s.peer x).delivered <+: (s'.peer x).delivered

theorem PairStream.put (h : PairStream s) {x : Side} {p' : FillpPeer} {gone : Bool}
    (hp : StreamStep (s.peer x.other) (s.peer x) p') (hs : s.put x p' gone = some s') :
    PairStep s s' := by
  obtain ⟨hself, hother⟩ := FpPair.put_spec hs
  refine ⟨⟨fun y => ?_⟩, fun y => ?_, fun y => ?_⟩
  · rcases Side.eq_or_eq_other x y with rfl | rfl
    · rw [hself, hother]
      exact hp.half
    · have hhalf := h.half x.other
      rw [Side.other_other] at hhalf
      rw [Side.other_other, hself, hother]
      exact ⟨hhalf.snd, hhalf.rcv.mono hp.numbered,
        Nat.le_trans hhalf.acked hp.delivered.length_le⟩
  · rcases Side.eq_or_eq_other x y with rfl | rfl
    · rw [hself]
      exact hp.numbered
    · rw [hother]
  · rcases Side.eq_or_eq_other x y with rfl | rfl
    · rw [hself]
      exact hp.delivered
    · rw [hother]

/-- **Step lemma.** Half the number space is enough for both streams. -/
theorem PairStream.step (h : PairStream s) (hcount : s.numberedMax < 2 ^ 31)
    (hs : s.step hmacSha256 engine e = some s') : PairStep s s' := by
  cases e with
  | advance dt =>
      cases hs
      exact ⟨⟨h.half⟩, fun _ => List.prefix_refl _, fun _ => List.prefix_refl _⟩
  | send x data => exact h.put (fillpPeerSend_streamStep (h.half x) data) hs
  | close x => exact h.put ((fpPeerRequestClose_sameStream _ _).streamStep (h.half x)) hs
  | tick x fill => exact h.put (fpTickPeer_streamStep (h.half x) _ _ fill) hs
  | shutdown x => exact h.put (h.half x).id hs
  | deliver x d r₁ r₂ =>
      unfold FpPair.step at hs
      simp only at hs
      split at hs
      · rename_i hd
        have hlen := fun y => Nat.lt_of_le_of_lt (s.numbered_le_max y) hcount
        have hother := h.half x.other
        rw [Side.other_other] at hother
        exact h.put (fpReceive_streamStep hmacSha256 (h.half x) hother (hlen x) (hlen x.other) hd
          _ _) hs
      · cases hs

/-- Packets that have been numbered stay so, in order or not. -/
theorem FpPair.step_numbered (hs : s.step hmacSha256 engine e = some s') (y : Side) :
    (s.peer y).numbered <+: (s'.peer y).numbered := by
  have hput : ∀ {x : Side} {p' : FillpPeer} {gone : Bool},
      (s.peer x).numbered <+: p'.numbered → s.put x p' gone = some s' →
      (s.peer y).numbered <+: (s'.peer y).numbered := by
    intro x p' gone hp hs
    obtain ⟨hself, hother⟩ := FpPair.put_spec hs
    rcases Side.eq_or_eq_other x y with rfl | rfl
    · rw [hself]
      exact hp
    · rw [hother]
  have hkept : ∀ {p p' : FillpPeer}, SameStream p p' → p.numbered <+: p'.numbered := by
    intro p p' h
    rw [h.plane.sameSnd.numbered]
  cases e with
  | advance dt =>
      cases hs
      exact List.prefix_refl _
  | send x data => exact hput (fillpPeerSend_grows _ data).numbered hs
  | close x => exact hput (hkept (fpPeerRequestClose_sameStream _ _)) hs
  | tick x fill =>
      refine hput ?_ hs
      rcases fpTickPeer_stream (s.env 0 0) (engine x).localAddr fill (s.peer x) with
        ⟨hpump, -⟩ | hsame
      · rw [hpump]
        exact (fpPump_grows _ fill _).numbered
      · exact hkept hsame
  | shutdown x => exact hput (List.prefix_refl _) hs
  | deliver x d r₁ r₂ =>
      unfold FpPair.step at hs
      simp only at hs
      split at hs
      · refine hput ?_ hs
        rcases fpReceive_stream hmacSha256 (s.env r₁ r₂) (engine x) (s.peer x) d with
          hplane | hsame
        · rw [hplane, (fpDataPlane_grows _ _ d).1]
        · exact hkept hsame
      · cases hs

theorem FpPair.step_numberedMax (hs : s.step hmacSha256 engine e = some s') :
    s.numberedMax ≤ s'.numberedMax :=
  max_le_max (FpPair.step_numbered hs .left).length_le (FpPair.step_numbered hs .right).length_le

theorem FpPair.Init.stream (h : s.Init) : PairStream s :=
  ⟨fun x =>
    have hhalf := (h.starting x).half (s.peer x.other)
    ⟨hhalf.snd, hhalf.rcv, hhalf.acked⟩⟩

/-- What has been delivered is the front of what the other end has accepted. -/
theorem PairStream.delivered_front (h : PairStream s) (x : Side) :
    (s.peer x).delivered.flatten <+: (s.peer x.other).accepted := by
  rw [← (h.half x.other).snd.stream]
  refine List.IsPrefix.trans ?_ (List.prefix_append _ _)
  obtain ⟨more, hmore⟩ := (h.half x).rcv.pre
  rw [← hmore, List.flatten_append]
  exact List.prefix_append _ _

/-- A peer that is drained has had everything delivered. -/
theorem PairStream.drained_all (h : PairStream s) {x : Side}
    (hd : fpTxDrained (s.peer x.other) = true) :
    (s.peer x).delivered.flatten = (s.peer x.other).accepted := by
  have hother := h.half x.other
  rw [Side.other_other] at hother
  obtain ⟨hstream, hall⟩ := hother.snd.drained hd
  have hacked := hother.acked
  rw [hall] at hacked
  rw [(h.half x).rcv.pre.eq_of_length_le hacked, hstream]

/-- **Run lemma.** -/
theorem PairStream.of_run {es : List FpPairEv} (h : PairStream s)
    (hrun : run (FpPair.step hmacSha256 engine) s es = some t) (hcount : t.numberedMax < 2 ^ 31) :
    PairStream t := by
  refine run_inv_below PairStream (fun _ _ _ hs => FpPair.step_numberedMax hs) ?_ h hrun hcount
  intro s e s' hinv hlt hs
  exact (hinv.step (Nat.lt_of_le_of_lt (FpPair.step_numberedMax hs) hlt) hs).stream

/-- **Delivery, from the handshake to the end.** What a peer has passed to `on_data` is the
front of what the other end has accepted, in pieces of at most one packet, and all of that when
the other end is drained. Neither the loss of datagrams nor a close on either side, at any time,
changes that. -/
theorem FpPair.delivers_in_order {es : List FpPairEv} (hs : s.Init)
    (hrun : run (FpPair.step hmacSha256 engine) s es = some t) (hcount : t.numberedMax < 2 ^ 31)
    (x : Side) :
    (t.peer x).delivered.flatten <+: (t.peer x.other).accepted ∧
      (∀ d ∈ (t.peer x).delivered, 0 < d.length ∧ d.length ≤ fpPktDataMax) ∧
      (fpTxDrained (t.peer x.other) = true →
        (t.peer x).delivered.flatten = (t.peer x.other).accepted) := by
  have hinv := hs.stream.of_run hrun hcount
  refine ⟨hinv.delivered_front x, fun d hd => ?_, hinv.drained_all⟩
  exact (hinv.half x.other).snd.sizes d ((hinv.half x).rcv.pre.subset hd)

/-- Also when the sender closes at once: the two bytes are lost, or they arrive. -/
theorem FpPair.delivers_in_order_hasty :
    ∃ t, run (FpPair.step strayHmac pairEngine) pairStart hastyClose = some t ∧
      (t.peer .right).delivered.flatten <+: (t.peer .left).accepted := by
  obtain ⟨t, hrun, hcount⟩ := Option.map_eq_some_iff.mp (show
    (run (FpPair.step strayHmac pairEngine) pairStart hastyClose).map FpPair.numberedMax = some 1
      by decide +kernel)
  exact ⟨t, hrun, (FpPair.delivers_in_order pairStart_init hrun
    (by rw [hcount]; decide) .right).1⟩

end

end HwPhoneLink.Fillp
