import HwPhoneLink.Stream.Exchange

/-!
# Both ends know

When a session reports its file as sent, its peer is drained, so the other end has every byte that
was queued, and has handled every frame. It has then written the whole file, or it has failed and
said so (`SfPair.ends_agree`). The sender must not have queued a frame in closing, where
`fillp_peer_send` drops it.
-/

namespace HwPhoneLink.Stream

open BigEndian Transitions HwPhoneLink.Fillp HwPhoneLink.Testfile HwPhoneLink.Vtp

/-! ## The sender and its peer -/

/-- What the send half says of its peer, and the peer of the send half. -/
structure Finishes (content : Bytes) (sf : StreamFile) (p : FillpPeer) : Prop where
  fd : sf.txFdOpen = true
  eof : p.fillDone = true → sf.txMetaSent = true ∧ content.length ≤ sf.txOffset
  drained : sf.txState = .done → fpTxDrained p = true
  reported : ∀ m, ⟨true, true, m⟩ ∈ sf.done → sf.txState = .done

section
variable {content : Bytes} {sf sf' : StreamFile} {p p' : FillpPeer}

/-- A step that neither fills the peer nor completes the send. -/
theorem Finishes.kept (h : Finishes content sf p) (hk : TxKept sf sf')
    (hfill : p'.fillDone = p.fillDone)
    (hdrained : fpTxDrained p = true → fpTxDrained p' = true) : Finishes content sf' p' := by
  refine ⟨hk.fdOpen.trans h.fd, ?_, fun hdone => ?_, fun m hm => ?_⟩
  · rw [hfill, hk.metaSent, hk.offset]
    exact h.eof
  · rcases hk.state with hstate | ⟨-, hfailed⟩
    · exact hdrained (h.drained (hstate ▸ hdone))
    · rw [hfailed] at hdone
      cases hdone
  · have hold := h.reported m (hk.reported m hm)
    rcases hk.state with hstate | ⟨hactive, -⟩
    · exact hstate.trans hold
    · rw [hold] at hactive
      cases hactive

theorem Finishes.same (h : Finishes content sf p) (hs : SameStream p p') :
    Finishes content sf p' :=
  h.kept (.refl sf) hs.plane.sameSnd.fillDone fun hd => hs.plane.sameSnd.drained.trans hd

/-- The peer is notified when it is drained. -/
theorem Finishes.complete (h : Finishes content sf p) (hd : fpTxDrained p = true) :
    Finishes content (sfOnTxComplete sf) p := by
  rcases sfOnTxComplete_cases sf with heq | ⟨-, m, heq⟩
  · rw [heq]
    exact h
  · rw [heq]
    exact ⟨h.fd, h.eof, fun _ => hd, fun _ _ => rfl⟩

/-- **A pump with its fill call.** The end of the file sets `fill_done`. -/
theorem Finishes.fill (h : Finishes content sf p) (aead : Aead) {fillEnv : SfFillEnv}
    (hread : ReadsFile content (.fill fillEnv)) (env : FpEnv) (hwant : fpWantsFill p = true) :
    Finishes content (sfFill aead fillEnv sf).1
      (fpPump env (some (sfFill aead fillEnv sf).2) p) := by
  have hopen : p.fillDone = false := by
    unfold fpWantsFill at hwant
    simp only [Bool.and_eq_true, Bool.not_eq_true'] at hwant
    exact hwant.1
  have hnotDone : sf.txState ≠ .done := by
    intro hdone
    obtain ⟨hfill, -⟩ := (fpTxDrained_iff p).mp (h.drained hdone)
    rw [hopen] at hfill
    cases hfill
  have hfillDone : ∀ {f : FpFill}, (fpPump env (some f) p).fillDone = true → f.ret < 0 := by
    intro f hf
    rcases fpPump_fillDone env f hf with hold | ⟨-, hneg⟩
    · rw [hopen] at hold
      cases hold
    · exact hneg
  have hcases := sfFill_filled aead fillEnv sf
  generalize sfFill aead fillEnv sf = r at hcases
  cases hcases with
  | quiet _ _ =>
      refine ⟨h.fd, fun hf => ?_, fun hdone => absurd hdone hnotDone, h.reported⟩
      exact absurd (hfillDone hf) (by simp)
  | done hdone => exact absurd hdone hnotDone
  | metadata frame hactive _ _ =>
      refine ⟨h.fd, fun hf => ?_, fun hdone => absurd hdone hnotDone, h.reported⟩
      have hneg := hfillDone hf
      simp only at hneg
      omega
  | chunk chunk frame hactive _ _ _ _ _ =>
      refine ⟨h.fd, fun hf => ?_, fun hdone => absurd hdone hnotDone, h.reported⟩
      have hneg := hfillDone hf
      simp only at hneg
      omega
  | eof hactive hsent hend =>
      refine ⟨h.fd, fun _ => ⟨hsent, ?_⟩, fun hdone => absurd hdone hnotDone, h.reported⟩
      obtain ⟨chunk, hchunk, -, -, hnil⟩ := hread sf.txOffset
      exact hnil (Option.some.inj (hchunk.symm.trans (hend h.fd)))
  | failed why hactive =>
      have hk := sfFail_kept sf why
      have hstate := sfFail_active hactive why
      refine ⟨hk.fdOpen.trans h.fd, fun hf => ?_, fun hdone => ?_, fun m hm => ?_⟩
      · exact absurd (hfillDone hf) (by simp)
      · rw [hstate] at hdone
        cases hdone
      · exact absurd (h.reported m (hk.reported m hm)) hnotDone

end

/-! ## The system -/

/-- A frame is queued only while the peer is established. -/
def QueuesOpen (aead : Aead) (s : SfPair) : SfPairEv → Prop
  | .tick x fillEnv => (s.fill aead fillEnv x).2.chunks ≠ [] →
      (s.net.peer x).state = .established
  | _ => True

/-- Everything that was queued has been accepted. -/
structure Finishing (content : Bytes) (x : Side) (s : SfPair) : Prop where
  finishes : Finishes content (s.file x) (s.net.peer x)
  accepted : (s.net.peer x).accepted = (s.queued x).flatten

section
variable {sha256Hex : Bytes → Bytes} {aead : Aead} {hmacSha256 : Bytes → Bytes → Bytes}
  {engine : Side → FillpEngine} {content name : Bytes} {sender : StreamFile} {x : Side}
  {s s' t : SfPair} {e : SfPairEv}

/-- **A tick** fills the peer and pumps it, only pumps it, or looks after its handshake. -/
theorem SfPair.tick_cases (aead : Aead) (fillEnv : SfFillEnv) (s : SfPair) (x : Side)
    (localAddr : Bytes) :
    (fpWantsFill (s.net.peer x) = true ∧
      s.fill aead fillEnv x = sfFill aead fillEnv (s.file x) ∧
      (fpTickPeer (s.net.env 0 0) localAddr (some (s.fill aead fillEnv x).2) (s.net.peer x)).1 =
        fpPump (s.net.env 0 0) (some (s.fill aead fillEnv x).2) (s.net.peer x)) ∨
    (fpWantsFill (s.net.peer x) = false ∧ s.fill aead fillEnv x = (s.file x, ⟨[], 0⟩) ∧
      (fpTickPeer (s.net.env 0 0) localAddr (some (s.fill aead fillEnv x).2) (s.net.peer x)).1 =
        fpPump (s.net.env 0 0) (some (s.fill aead fillEnv x).2) (s.net.peer x)) ∨
    (s.fill aead fillEnv x = (s.file x, ⟨[], 0⟩) ∧ SameStream (s.net.peer x)
      (fpTickPeer (s.net.env 0 0) localAddr (some (s.fill aead fillEnv x).2)
        (s.net.peer x)).1) := by
  by_cases hopen : (s.net.peer x).state = .established ∨ (s.net.peer x).state = .closing
  · rcases s.fill_cases aead fillEnv x with ⟨hfills, heq⟩ | ⟨hnot, heq⟩
    · exact Or.inl ⟨hfills.2, heq, fpTickPeer_open hopen _ _ _⟩
    · right
      left
      refine ⟨?_, heq, fpTickPeer_open hopen _ _ _⟩
      rw [← Bool.not_eq_true]
      exact fun hwant => hnot ⟨hopen, hwant⟩
  · right
    right
    rcases s.fill_cases aead fillEnv x with ⟨hfills, -⟩ | ⟨-, heq⟩
    · exact absurd hfills.1 hopen
    · refine ⟨heq, ?_⟩
      rcases fpTickPeer_stream (s.net.env 0 0) localAddr (some (s.fill aead fillEnv x).2)
        (s.net.peer x) with ⟨-, hstate⟩ | hsame
      · exact absurd hstate hopen
      · exact hsame

/-- A pump without a fill call. -/
theorem Finishes.pump {sf : StreamFile} {p : FillpPeer} (h : Finishes content sf p) (env : FpEnv)
    (hwant : fpWantsFill p = false) : Finishes content sf (fpPump env (some ⟨[], 0⟩) p) := by
  refine h.kept (.refl sf) ?_ fun hd => (fpPump_drained env _ hd).1
  rw [(fpPump_fill env (some ⟨[], 0⟩) p).1]
  unfold fpPumpFill
  simp only [hwant, Bool.false_eq_true, if_false]

/-- The tick of the sender. -/
theorem Finishing.tick (h : Finishing content x s) {fillEnv : SfFillEnv}
    (hread : ReadsFile content (.fill fillEnv)) (hopen : QueuesOpen aead s (.tick x fillEnv))
    (hs : s.step sha256Hex aead hmacSha256 engine (.tick x fillEnv) = some s') :
    Finishing content x s' := by
  obtain ⟨hnet, hafter⟩ := SfPair.step_spec hs
  obtain ⟨hself, -⟩ := FpPair.put_spec hnet
  have hqueued : s'.queued x = s.queued x ++ (s.fill aead fillEnv x).2.chunks := by
    rw [hafter]
    exact Function.update_self _ _ _
  have hfile : s'.file x = if (s'.net.peer x).txNotified && !(s.net.peer x).txNotified then
      sfOnTxComplete (s.fill aead fillEnv x).1 else (s.fill aead fillEnv x).1 := by
    conv_lhs => rw [hafter]
    exact Function.update_self _ _ _
  -- a pump notifies a drained peer
  have hpumped : ∀ {sf : StreamFile} {f : FpFill}, s'.net.peer x =
      fpPump (s.net.env 0 0) (some f) (s.net.peer x) → Finishes content sf (s'.net.peer x) →
      Finishes content (if (s'.net.peer x).txNotified && !(s.net.peer x).txNotified then
        sfOnTxComplete sf else sf) (s'.net.peer x) := by
    intro sf f hp hfin
    split
    · rename_i hnew
      rw [Bool.and_eq_true, Bool.not_eq_true'] at hnew
      refine hfin.complete ?_
      rw [hp] at hnew ⊢
      exact fpPump_notified _ _ hnew.2 hnew.1
    · exact hfin
  rcases s.tick_cases aead fillEnv x (engine x).localAddr with
    ⟨hwant, heq, hp⟩ | ⟨hwant, heq, hp⟩ | ⟨heq, hsame⟩
  · have hp' := hself.trans hp
    constructor
    · rw [hfile]
      refine hpumped hp' ?_
      rw [hp', heq]
      exact h.finishes.fill aead hread _ hwant
    · rw [hqueued, hp', fpPump_accepts _ _ fun _ hne => hopen hne, h.accepted,
        List.flatten_append]
      unfold fpFillGiven
      simp only [hwant, if_true]
  · have hp' := hself.trans hp
    have hnone : (s.fill aead fillEnv x).2 = ⟨[], 0⟩ := by rw [heq]
    constructor
    · rw [hfile]
      refine hpumped hp' ?_
      rw [hp', hnone, heq]
      exact h.finishes.pump _ hwant
    · rw [hqueued, hp', fpPump_accepts _ _ fun _ hne => hopen hne, h.accepted, hnone]
      unfold fpFillGiven
      simp only [hwant, Bool.false_eq_true, if_false, List.append_nil]
  · have hsame' : SameStream (s.net.peer x) (s'.net.peer x) := hself ▸ hsame
    have hnone : (s.fill aead fillEnv x).2.chunks = [] := by rw [heq]
    have hnotified : (s'.net.peer x).txNotified = (s.net.peer x).txNotified := by
      rw [hsame'.plane.fields]
    constructor
    · rw [hfile, hnotified, Bool.and_not_self, if_neg Bool.false_ne_true, heq]
      exact h.finishes.same hsame'
    · rw [hqueued, hsame'.plane.sameSnd.accepted, h.accepted, hnone, List.append_nil]

/-- An event at the other side, or one that touches no session. -/
theorem Finishing.quiet (h : Finishing content x s) (hfile : s'.file x = s.file x)
    (hqueued : s'.queued x = s.queued x) (hpeer : SameStream (s.net.peer x) (s'.net.peer x)) :
    Finishing content x s' := by
  constructor
  · rw [hfile]
    exact h.finishes.same hpeer
  · rw [hqueued, hpeer.plane.sameSnd.accepted]
    exact h.accepted

/-- A datagram to the sender. -/
theorem Finishing.deliver (h : Finishing content x s) {d : Bytes} {rand1 rand2 : UInt32}
    {io : SfIo}
    (hs : s.step sha256Hex aead hmacSha256 engine (.deliver x d rand1 rand2 io) = some s') :
    Finishing content x s' := by
  obtain ⟨hnet, hafter⟩ := SfPair.step_spec hs
  unfold SfPair.netEv FpPair.step at hnet
  simp only at hnet
  split at hnet
  swap
  · cases hnet
  obtain ⟨hself, -⟩ := FpPair.put_spec hnet
  have hqueued : s'.queued x = s.queued x := by
    rw [hafter]
    rfl
  have hkept : TxKept (s.file x) (s'.file x) := by
    rw [hafter]
    simp only [SfPair.after, Function.update_self]
    exact foldl_sfOnData_kept sha256Hex aead io _ _
  rcases fpReceive_stream hmacSha256 (s.net.env rand1 rand2) (engine x) (s.net.peer x) d with
    hplane | hsame
  · constructor
    · rw [hself, hplane]
      exact h.finishes.kept hkept (fpDataPlane_fillDone _ _ d) fun hd =>
        fpDataPlane_drained _ hd d
    · rw [hself, hplane, hqueued, (fpDataPlane_grows _ _ d).2]
      exact h.accepted
  · constructor
    · rw [hself]
      exact h.finishes.kept hkept hsame.plane.sameSnd.fillDone fun hd =>
        hsame.plane.sameSnd.drained.trans hd
    · rw [hself, hqueued, hsame.plane.sameSnd.accepted]
      exact h.accepted

/-- **Step lemma.** -/
theorem Finishing.step (h : Finishing content x s) (hread : ReadsContent x content e)
    (hopen : QueuesOpen aead s e) (hs : s.step sha256Hex aead hmacSha256 engine e = some s') :
    Finishing content x s' := by
  have hspec := SfPair.step_spec hs
  obtain ⟨hnet, hafter⟩ := hspec
  have hne : x ≠ x.other := (Side.other_ne x).symm
  cases e with
  | advance dt =>
      have hclock := Option.some.inj hnet
      refine h.quiet (by rw [hafter]; rfl) (by rw [hafter]; rfl) ?_
      rw [← hclock]
      exact .refl _
  | tick y fillEnv =>
      rcases Side.eq_or_eq_other x y with rfl | rfl
      · exact h.tick (hread rfl) hopen hs
      · have hother := (FpPair.put_spec hnet).2
        rw [Side.other_other] at hother
        refine h.quiet ?_ ?_ (hother ▸ .refl _)
        · rw [hafter]
          exact Function.update_of_ne hne _ _
        · rw [hafter]
          exact Function.update_of_ne hne _ _
  | deliver y d rand1 rand2 io =>
      rcases Side.eq_or_eq_other x y with rfl | rfl
      · exact h.deliver hs
      · unfold SfPair.netEv FpPair.step at hnet
        simp only at hnet
        split at hnet
        · have hother := (FpPair.put_spec hnet).2
          rw [Side.other_other] at hother
          refine h.quiet ?_ (by rw [hafter]; rfl) (hother ▸ .refl _)
          rw [hafter]
          exact Function.update_of_ne hne _ _
        · cases hnet
  | close y =>
      obtain ⟨hself, hother⟩ := FpPair.put_spec hnet
      refine h.quiet (by rw [hafter]; rfl) (by rw [hafter]; rfl) ?_
      rcases Side.eq_or_eq_other y x with rfl | rfl
      · rw [hself]
        exact fpPeerRequestClose_sameStream _ _
      · rw [hother]
        exact .refl _
  | shutdown y =>
      obtain ⟨hself, hother⟩ := FpPair.put_spec hnet
      refine h.quiet (by rw [hafter]; rfl) (by rw [hafter]; rfl) ?_
      rcases Side.eq_or_eq_other y x with rfl | rfl
      · rw [hself]
        exact .refl _
      · rw [hother]
        exact .refl _

/-- The send has just been started, and nothing has been reported. -/
structure SfPair.SendInit (s : SfPair) (x : Side) (content name : Bytes) : Prop extends
    s.Init x content name where
  fillDone : (s.net.peer x).fillDone = false
  reports : (s.file x).done = []

theorem SfPair.SendInit.finishing (h : s.SendInit x content name) : Finishing content x s := by
  obtain ⟨idle, hstart⟩ := h.start
  obtain ⟨total, -, hsender⟩ := streamFileStartSend_ok hstart
  have hfd : (s.file x).txFdOpen = true := by rw [hsender]
  have hstate : (s.file x).txState = .active := by rw [hsender]
  refine ⟨⟨hfd, fun hf => ?_, fun hdone => ?_, fun m hm => ?_⟩, ?_⟩
  · rw [h.fillDone] at hf
    cases hf
  · rw [hstate] at hdone
    cases hdone
  · rw [h.reports] at hm
    cases hm
  · rw [(h.net.starting x).accepted, h.queued]
    rfl

/-! ## The end -/

/-- **The frames have all been handled**, once the sender has reported its file as sent. -/
theorem Finishing.handled (h : Finishing content x s) (hname : AcceptedName name)
    (hwire : sender.txWire = name) (htransfers : Transfers sha256Hex aead content name sender x s)
    (hstream : PairStream s.net) {m : String} (hdone : ⟨true, true, m⟩ ∈ (s.file x).done) :
    ∃ chunks done, chunks.flatten = content ∧
      Carries aead sender.key (sfMetadata sender :: chunks) (s.queued x) ∧
      RxHeld sha256Hex aead content name sender.key done (s.file x.other) ∧
      (sfStopped (s.file x.other) = true ∨ done = s.queued x) := by
  have hdrained := h.finishes.drained (h.finishes.reported m hdone)
  obtain ⟨hsent, hoff⟩ := h.finishes.eof ((fpTxDrained_iff _).mp hdrained).1
  obtain ⟨chunks, hsentInv⟩ := htransfers.sent
  obtain ⟨pls, hpls, hcarries⟩ := hsentInv.carries hname hwire
  have hframes := hsentInv.frames
  rw [if_pos hsent] at hframes
  have hall : pls = sfMetadata sender :: chunks := by
    refine hpls.eq_of_length ?_
    rw [hcarries.frames.length_eq, hframes.length_eq]
  have hcontent : chunks.flatten = content := by
    rw [hsentInv.read, List.take_of_length_le hoff]
  -- the peer has delivered all of the frames
  have hdelivered := hstream.drained_all (x := x.other) (by rwa [Side.other_other])
  rw [Side.other_other, h.accepted] at hdelivered
  obtain ⟨tail, htail, hreads, hend⟩ := htransfers.receives
  have hnil : tail = [] := by
    rw [hdelivered] at htail
    exact List.append_right_eq_self.mp htail
  rw [hnil] at hreads
  obtain ⟨done, hheld, hlast⟩ :=
    hreads.all (hsentInv.isFrame (fun _ => []) hname hwire ⟨true, fun _ n => n, true⟩) hend
  exact ⟨chunks, done, hcontent, hall ▸ hcarries, hheld, hlast⟩

end

end HwPhoneLink.Stream
