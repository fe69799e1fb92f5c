import HwPhoneLink.Fillp.Delivery
import HwPhoneLink.Stream.Receiving

/-!
# Two sessions over two peers

The whole of the stream phase: on each side a file session over its fillp peer, from the handshake
to the end, with a network between them that loses, repeats and reorders datagrams. Each side may
send a file and may receive one, its file calls may fail, and it may be closed at any time. What a
receiver has written is always a front of the sender's file, and a success that it reports is about
the whole file (`SfPair.file_arrives`).
-/

namespace HwPhoneLink.Stream

open BigEndian Transitions HwPhoneLink.Fillp HwPhoneLink.Testfile HwPhoneLink.Vtp

/-! ## The system -/

/-- The peers and their sessions. `queued` is a history: the frames that `sf_fill` has passed to
`fillp_peer_send`. A session whose peer is gone has been freed, and stays on record as it was. -/
structure SfPair where
  net : FpPair
  file : Side → StreamFile
  queued : Side → List Bytes

/-- The events of the peers, with what the calls into the sessions read. A close that the
application asks for inside a callback is a `close` after the call. -/
inductive SfPairEv : Type where
  | advance (dt : ℕ)
  | tick (x : Side) (fillEnv : SfFillEnv)
  | deliver (x : Side) (d : Bytes) (rand1 rand2 : UInt32) (io : SfIo)
  | close (x : Side)
  | shutdown (x : Side)

/-- The next pump of the peer calls the fill function. -/
def SfPair.Fills (s : SfPair) (x : Side) : Prop :=
  ((s.net.peer x).state = .established ∨ (s.net.peer x).state = .closing) ∧
    fpWantsFill (s.net.peer x) = true

instance (s : SfPair) (x : Side) : Decidable (s.Fills x) := inferInstanceAs (Decidable (_ ∧ _))

def SfPair.fill (aead : Aead) (fillEnv : SfFillEnv) (s : SfPair) (x : Side) :
    StreamFile × FpFill :=
  if s.Fills x then sfFill aead fillEnv (s.file x) else (s.file x, ⟨[], 0⟩)

/-- What the peers see of an event. -/
def SfPair.netEv (aead : Aead) (s : SfPair) : SfPairEv → FpPairEv
  | .advance dt => .advance dt
  | .tick x fillEnv => .tick x (some (s.fill aead fillEnv x).2)
  | .deliver x d rand1 rand2 _ => .deliver x d rand1 rand2
  | .close x => .close x
  | .shutdown x => .shutdown x

/-- The sessions after an event that has left the peers as `net`. -/
def SfPair.after (sha256Hex : Bytes → Bytes) (aead : Aead) (s : SfPair) (net : FpPair) :
    SfPairEv → SfPair
  | .tick x fillEnv =>
      let r := s.fill aead fillEnv x
      let complete := (net.peer x).txNotified && !(s.net.peer x).txNotified
      { net := net
        file := Function.update s.file x (if complete then sfOnTxComplete r.1 else r.1)
        queued := Function.update s.queued x (s.queued x ++ r.2.chunks) }
  | .deliver x _ _ _ io =>
      let runs := (net.peer x).delivered.drop (s.net.peer x).delivered.length
      { s with
        net := net
        file := Function.update s.file x
          (runs.foldl (sfOnData sha256Hex aead io) (s.file x)) }
  | _ => { s with net := net }

section System

variable (sha256Hex : Bytes → Bytes) (aead : Aead) (hmacSha256 : Bytes → Bytes → Bytes)
  (engine : Side → FillpEngine)

def SfPair.step (s : SfPair) (e : SfPairEv) : Option SfPair :=
  (s.net.step hmacSha256 engine (s.netEv aead e)).map fun net => s.after sha256Hex aead net e

end System

/-- The side `x` is about to send the file, and the other is about to receive it. -/
structure SfPair.Init (s : SfPair) (x : Side) (content name : Bytes) : Prop where
  net : s.net.Init
  start : ∃ idle, streamFileStartSend idle (some content.length) name = (s.file x, true)
  fresh : RxFresh (s.file x.other)
  key : (s.file x.other).key = (s.file x).key
  queued : s.queued x = []

/-- The fill calls of the side read the file. -/
def ReadsContent (x : Side) (content : Bytes) : SfPairEv → Prop
  | .tick y fillEnv => y = x → ReadsFile content (.fill fillEnv)
  | _ => True

/-! ## What the peer has accepted -/

/-- All frames that were queued have been accepted, until the peer closes. -/
def Accepts (p : FillpPeer) (queued : List Bytes) : Prop :=
  p.accepted = queued.flatten ∨ p.accepted <+: queued.flatten ∧ p.state = .closing

section
variable {p p' : FillpPeer} {queued : List Bytes}

theorem Accepts.front (h : Accepts p queued) : p.accepted <+: queued.flatten := by
  rcases h with heq | ⟨hfront, -⟩
  · rw [heq]
  · exact hfront

/-- A step without the fill function. -/
theorem Accepts.kept (h : Accepts p queued) (hacc : p'.accepted = p.accepted)
    (hclosing : p.state = .closing → p'.state = .closing) : Accepts p' queued := by
  rcases h with heq | ⟨hfront, hstate⟩
  · exact Or.inl (hacc.trans heq)
  · exact Or.inr ⟨hacc ▸ hfront, hclosing hstate⟩

theorem Accepts.same (h : Accepts p queued) (hs : SameStream p p') : Accepts p' queued :=
  h.kept hs.plane.sameSnd.accepted hs.plane.closing

theorem fpDataPlane_closing (env : FpEnv) (h : p.state = .closing) (d : Bytes) :
    (fpDataPlane env p d).state = .closing := by
  by_cases hfin : fpTypeOf d = some .fin
  · simp only [fpDataPlane, hfin]
    split
    · unfold fpOnFin
      simp only [h]
      rfl
    · exact h
  · rw [(fpDataPlane_keepsOpen env p hfin).state, h]

theorem fpReceive_accepts (hmacSha256 : Bytes → Bytes → Bytes) (h : Accepts p queued)
    (env : FpEnv) (e : FillpEngine) (d : Bytes) :
    Accepts (fpReceive hmacSha256 env e p d) queued := by
  rcases fpReceive_stream hmacSha256 env e p d with hplane | hsame
  · rw [hplane]
    exact h.kept (fpDataPlane_grows env p d).2 fun hc => fpDataPlane_closing env hc d
  · exact h.same hsame

/-- A pump takes what the fill function queues, or drops it in closing. -/
theorem fpPump_takes (h : Accepts p queued) (env : FpEnv) {f : FpFill}
    (hopen : p.state = .established ∨ p.state = .closing)
    (hnone : fpWantsFill p = false → f.chunks = []) :
    Accepts (fpPump env (some f) p) (queued ++ f.chunks) := by
  have hgiven : fpFillGiven (some f) p = f.chunks.flatten := by
    unfold fpFillGiven
    simp only
    split
    · rfl
    · rename_i hwant
      rw [hnone (by simpa using hwant)]
      rfl
  rcases hopen with hest | hclosing
  · left
    have hall : p.accepted = queued.flatten := by
      rcases h with heq | ⟨-, hstate⟩
      · exact heq
      · rw [hest] at hstate
        cases hstate
    rw [fpPump_accepted hest, hgiven, hall, List.flatten_append]
  · right
    have hdropped : (fpPump env (some f) p).accepted = p.accepted := by
      rw [(fpPump_fill env (some f) p).2]
      unfold fpPumpFill
      simp only
      split
      · rw [foldl_fillpPeerSend_dropped _ (by simp [hclosing])]
        split <;> rfl
      · rfl
    rw [hdropped, fpPump_state, List.flatten_append]
    exact ⟨h.front.trans (List.prefix_append _ _), hclosing⟩

end

/-- A tick, with what the fill function has queued if it was called. -/
theorem fpTickPeer_takes {p : FillpPeer} {queued : List Bytes} (h : Accepts p queued)
    (env : FpEnv) (localAddr : Bytes) {f : FpFill}
    (hnone : ¬ ((p.state = .established ∨ p.state = .closing) ∧ fpWantsFill p = true) →
      f.chunks = []) :
    Accepts (fpTickPeer env localAddr (some f) p).1 (queued ++ f.chunks) := by
  by_cases hopen : p.state = .established ∨ p.state = .closing
  · rw [fpTickPeer_open hopen]
    refine fpPump_takes h env hopen fun hwant => hnone fun hfills => ?_
    rw [hwant] at hfills
    cases hfills.2
  · rw [hnone fun hfills => hopen hfills.1, List.append_nil]
    rcases fpTickPeer_stream env localAddr (some f) p with ⟨-, hstate⟩ | hsame
    · exact absurd hstate hopen
    · exact h.same hsame

/-! ## What the receiver has of the frames -/

/-- The session has read what its peer has delivered, the front of the frames. -/
def Receives (sha256Hex : Bytes → Bytes) (aead : Aead) (content name key : Bytes)
    (frames delivered : List Bytes) (sf : StreamFile) : Prop :=
  ∃ tail, delivered.flatten ++ tail = frames.flatten ∧
    Framing.Reads sfStopped (RxHeld sha256Hex aead content name key) frames tail (sf, sf.rxbuf) ∧
    Framing.Drained sfCut sfStopped (sf, sf.rxbuf)

section
variable {sha256Hex : Bytes → Bytes} {aead : Aead} {content name key : Bytes}
  {frames delivered : List Bytes} {sf sf' : StreamFile}

theorem Receives.held (h : Receives sha256Hex aead content name key frames delivered sf) :
    ∃ done, RxHeld sha256Hex aead content name key done sf := by
  obtain ⟨_, _, ⟨done, _, _, hheld, _⟩, _⟩ := h
  exact ⟨done, hheld⟩

/-- The sender queues more. -/
theorem Receives.more (h : Receives sha256Hex aead content name key frames delivered sf)
    (more : List Bytes) : Receives sha256Hex aead content name key (frames ++ more) delivered sf := by
  obtain ⟨tail, htail, hreads, hdrained⟩ := h
  refine ⟨tail ++ more.flatten, ?_, hreads.append more, hdrained⟩
  rw [← List.append_assoc, htail, List.flatten_append]

/-- The session is called for its own file. -/
theorem Receives.own (h : Receives sha256Hex aead content name key frames delivered sf)
    (hs : RxSame sf sf' ∨ RxBroken sf sf') :
    Receives sha256Hex aead content name key frames delivered sf' := by
  obtain ⟨tail, htail, ⟨done, rest, hsplit, hheld, hbuf⟩, hdrained⟩ := h
  have hrxbuf : sf'.rxbuf = sf.rxbuf := by
    rcases hs with hsame | hbroken
    · rw [hsame.fields]
    · exact hbroken.rxbuf
  have hstop : sfStopped sf' = true ∨ sfStopped sf' = sfStopped sf := by
    rcases hs with hsame | hbroken
    · right
      rw [hsame.fields]
      rfl
    · left
      simp [sfStopped, hbroken.state]
  refine ⟨tail, htail, ⟨done, rest, hsplit, hheld.own hs, fun hlive => ?_⟩, ?_⟩
  · rcases hstop with hstop | hstop
    · rw [hstop] at hlive
      cases hlive
    · simp only [hrxbuf]
      exact hbuf (hstop ▸ hlive)
  · rcases hstop with hstop | hstop
    · exact Or.inl hstop
    · refine hdrained.imp (fun hs => hstop.trans hs) fun hcut => ?_
      simp only [hrxbuf]
      exact hcut

/-- The peer delivers more of what the other end has queued. -/
theorem Receives.arrive (hname : AcceptedName name) (hlen : content.length < 2 ^ 64) {sender : StreamFile}
    (htotal : sender.txTotal = content.length) (hwire : sender.txWire = name)
    {s : StreamFile × List Bytes} {chunks : List Bytes}
    (hsent : SentInv aead content key (sfMetadata sender) s chunks)
    (h : Receives sha256Hex aead content name key s.2 delivered sf) (io : SfIo) {runs : List Bytes}
    (hfront : (delivered ++ runs).flatten <+: s.2.flatten) :
    Receives sha256Hex aead content name key s.2 (delivered ++ runs)
      (runs.foldl (sfOnData sha256Hex aead io) sf) := by
  obtain ⟨tail, htail, hreads, hdrained⟩ := h
  obtain ⟨rest, hrest⟩ := hfront
  have hcut : tail = runs.flatten ++ rest := by
    rw [List.flatten_append, List.append_assoc, ← htail] at hrest
    exact (List.append_cancel_left hrest).symm
  rw [hcut] at hreads
  exact ⟨rest, hrest, foldl_sfOnData_held hname hlen htotal hwire hsent io runs hreads hdrained⟩

end

/-! ## The invariant -/

/-- The file on its way from `x`, whose session was `sender` before anything was queued. -/
structure Transfers (sha256Hex : Bytes → Bytes) (aead : Aead) (content name : Bytes)
    (sender : StreamFile) (x : Side) (s : SfPair) : Prop where
  sent : ∃ chunks, SentInv aead content sender.key (sfMetadata sender) (s.file x, s.queued x)
    chunks
  accepted : Accepts (s.net.peer x) (s.queued x)
  receives : Receives sha256Hex aead content name sender.key (s.queued x) (s.net.peer x.other).delivered
    (s.file x.other)

section
variable {sha256Hex : Bytes → Bytes} {aead : Aead} {hmacSha256 : Bytes → Bytes → Bytes}
  {engine : Side → FillpEngine} {content name : Bytes} {sender : StreamFile} {x : Side}
  {s s' t : SfPair} {e : SfPairEv}

/-- The peers take their event. -/
theorem SfPair.step_spec (hs : s.step sha256Hex aead hmacSha256 engine e = some s') :
    s.net.step hmacSha256 engine (s.netEv aead e) = some s'.net ∧
      s' = s.after sha256Hex aead s'.net e := by
  obtain ⟨net, hnet, rfl⟩ := Option.map_eq_some_iff.mp hs
  have hafter : (s.after sha256Hex aead net e).net = net := by
    cases e <;> rfl
  rw [hafter]
  exact ⟨hnet, rfl⟩

/-- The fill function is called or not. -/
theorem SfPair.fill_cases (aead : Aead) (fillEnv : SfFillEnv) (s : SfPair) (x : Side) :
    s.Fills x ∧ s.fill aead fillEnv x = sfFill aead fillEnv (s.file x) ∨
      ¬ s.Fills x ∧ s.fill aead fillEnv x = (s.file x, ⟨[], 0⟩) := by
  unfold SfPair.fill
  split
  · exact Or.inl ⟨by assumption, rfl⟩
  · exact Or.inr ⟨by assumption, rfl⟩

/-- A tick of the sender. -/
theorem Transfers.tick_sender (h : Transfers sha256Hex aead content name sender x s)
    {fillEnv : SfFillEnv} (hread : ReadsFile content (.fill fillEnv))
    (hs : s.step sha256Hex aead hmacSha256 engine (.tick x fillEnv) = some s') :
    Transfers sha256Hex aead content name sender x s' := by
  obtain ⟨hnet, hafter⟩ := SfPair.step_spec hs
  obtain ⟨hself, hother⟩ := FpPair.put_spec hnet
  obtain ⟨chunks, hsent⟩ := h.sent
  have hne : x.other ≠ x := Side.other_ne x
  have hqueued : s'.queued x = s.queued x ++ (s.fill aead fillEnv x).2.chunks := by
    rw [hafter]
    exact Function.update_self _ _ _
  have hfilled : ∃ chunks', SentInv aead content sender.key (sfMetadata sender)
      ((s.fill aead fillEnv x).1, s'.queued x) chunks' := by
    rw [hqueued]
    rcases s.fill_cases aead fillEnv x with ⟨-, heq⟩ | ⟨-, heq⟩
    · rw [heq]
      exact sfFill_sentInv hsent hread
    · rw [heq, List.append_nil]
      exact ⟨chunks, hsent⟩
  have hfile : s'.file x = (s.fill aead fillEnv x).1 ∨
      s'.file x = sfOnTxComplete (s.fill aead fillEnv x).1 := by
    rw [hafter]
    simp only [SfPair.after, Function.update_self]
    split
    · exact Or.inr rfl
    · exact Or.inl rfl
  have hrest : s'.file x.other = s.file x.other := by
    rw [hafter]
    exact Function.update_of_ne hne _ _
  refine ⟨?_, ?_, ?_⟩
  · obtain ⟨chunks', hsent'⟩ := hfilled
    rcases hfile with heq | heq
    · rw [heq]
      exact ⟨chunks', hsent'⟩
    · rw [heq]
      exact ⟨chunks', sfOnTxComplete_sentInv hsent'⟩
  · rw [hself, hqueued]
    refine fpTickPeer_takes h.accepted _ _ fun hnot => ?_
    rcases s.fill_cases aead fillEnv x with ⟨hfills, -⟩ | ⟨-, heq⟩
    · exact absurd hfills hnot
    · rw [heq]
  · rw [hqueued, hother, hrest]
    exact h.receives.more _

/-- A tick of the receiver, which may send a file of its own. -/
theorem Transfers.tick_receiver (h : Transfers sha256Hex aead content name sender x s)
    (hstream : PairStream s.net) {fillEnv : SfFillEnv}
    (hs : s.step sha256Hex aead hmacSha256 engine (.tick x.other fillEnv) = some s') :
    Transfers sha256Hex aead content name sender x s' := by
  obtain ⟨hnet, hafter⟩ := SfPair.step_spec hs
  obtain ⟨hself, hother⟩ := FpPair.put_spec hnet
  rw [Side.other_other] at hother
  have hne : x ≠ x.other := (Side.other_ne x).symm
  have hqueued : s'.queued x = s.queued x := by
    rw [hafter]
    exact Function.update_of_ne hne _ _
  have hrest : s'.file x = s.file x := by
    rw [hafter]
    exact Function.update_of_ne hne _ _
  have hfill : RxSame (s.file x.other) (s.fill aead fillEnv x.other).1 ∨
      RxBroken (s.file x.other) (s.fill aead fillEnv x.other).1 := by
    rcases s.fill_cases aead fillEnv x.other with ⟨-, heq⟩ | ⟨-, heq⟩
    · rw [heq]
      exact sfFill_half aead fillEnv _
    · rw [heq]
      exact Or.inl (.refl _)
  have hdelivered : (s'.net.peer x.other).delivered = (s.net.peer x.other).delivered := by
    rw [hself]
    rcases fpTickPeer_stream (s.net.env 0 0) (engine x.other).localAddr
      (some (s.fill aead fillEnv x.other).2) (s.net.peer x.other) with ⟨hpump, -⟩ | hsame
    · rw [hpump, (fpPump_rcv (hstream.half x.other).rcv _ _).2]
    · rw [hsame.plane.fields]
  refine ⟨?_, ?_, ?_⟩
  · rw [hrest, hqueued]
    exact h.sent
  · rw [hother, hqueued]
    exact h.accepted
  · rw [hqueued, hdelivered]
    have hfilled := h.receives.own hfill
    rw [hafter]
    simp only [SfPair.after, Function.update_self]
    split
    · exact hfilled.own (Or.inl (sfOnTxComplete_half _))
    · exact hfilled

/-- A datagram to the sender. -/
theorem Transfers.deliver_sender (h : Transfers sha256Hex aead content name sender x s) {d : Bytes}
    {rand1 rand2 : UInt32} {io : SfIo}
    (hs : s.step sha256Hex aead hmacSha256 engine (.deliver x d rand1 rand2 io) = some s') :
    Transfers sha256Hex aead content name sender x s' := by
  obtain ⟨hnet, hafter⟩ := SfPair.step_spec hs
  unfold SfPair.netEv FpPair.step at hnet
  simp only at hnet
  split at hnet
  swap
  · cases hnet
  obtain ⟨hself, hother⟩ := FpPair.put_spec hnet
  have hqueued : s'.queued = s.queued := by
    rw [hafter]
    rfl
  have hrest : s'.file x.other = s.file x.other := by
    rw [hafter]
    exact Function.update_of_ne (Side.other_ne x) _ _
  obtain ⟨chunks, hsent⟩ := h.sent
  refine ⟨⟨chunks, ?_⟩, ?_, ?_⟩
  · rw [hqueued, hafter]
    simp only [SfPair.after, Function.update_self]
    exact hsent.kept (foldl_sfOnData_kept sha256Hex aead io _ _)
  · rw [hself, hqueued]
    exact fpReceive_accepts hmacSha256 h.accepted _ _ d
  · rw [hqueued, hother, hrest]
    exact h.receives

/-- A datagram to the receiver. -/
theorem Transfers.deliver_receiver (hname : AcceptedName name) (hlen : content.length < 2 ^ 64)
    (htotal : sender.txTotal = content.length) (hwire : sender.txWire = name)
    (h : Transfers sha256Hex aead content name sender x s) (hnext : PairStep s.net s'.net) {d : Bytes}
    {rand1 rand2 : UInt32} {io : SfIo}
    (hs : s.step sha256Hex aead hmacSha256 engine (.deliver x.other d rand1 rand2 io) =
      some s') : Transfers sha256Hex aead content name sender x s' := by
  obtain ⟨hnet, hafter⟩ := SfPair.step_spec hs
  unfold SfPair.netEv FpPair.step at hnet
  simp only at hnet
  split at hnet
  swap
  · cases hnet
  obtain ⟨-, hother⟩ := FpPair.put_spec hnet
  rw [Side.other_other] at hother
  have hqueued : s'.queued = s.queued := by
    rw [hafter]
    rfl
  have hrest : s'.file x = s.file x := by
    rw [hafter]
    exact Function.update_of_ne (Side.other_ne x).symm _ _
  have hsame : Accepts (s'.net.peer x) (s'.queued x) := by
    rw [hother, hqueued]
    exact h.accepted
  have hfront : (s'.net.peer x.other).delivered.flatten <+: (s.queued x).flatten := by
    have hdelivered := hnext.stream.delivered_front x.other
    rw [Side.other_other] at hdelivered
    exact hqueued ▸ hdelivered.trans hsame.front
  obtain ⟨runs, hruns⟩ := hnext.delivered x.other
  obtain ⟨chunks, hsent⟩ := h.sent
  refine ⟨⟨chunks, ?_⟩, hsame, ?_⟩
  · rw [hqueued, hrest]
    exact hsent
  · rw [← hruns] at hfront ⊢
    have hnew : s'.file x.other =
        runs.foldl (sfOnData sha256Hex aead io) (s.file x.other) := by
      rw [hafter]
      simp only [SfPair.after, Function.update_self]
      rw [← hruns, List.drop_left]
    rw [hqueued, hnew]
    exact Receives.arrive hname hlen htotal hwire hsent h.receives io hfront

/-- An event that touches no session. -/
theorem Transfers.quiet (h : Transfers sha256Hex aead content name sender x s)
    (hfile : s'.file = s.file) (hqueued : s'.queued = s.queued)
    (hpeers : ∀ y, SameStream (s.net.peer y) (s'.net.peer y)) :
    Transfers sha256Hex aead content name sender x s' := by
  refine ⟨?_, ?_, ?_⟩
  · rw [hfile, hqueued]
    exact h.sent
  · rw [hqueued]
    exact h.accepted.same (hpeers x)
  · rw [hfile, hqueued, (hpeers x.other).plane.fields]
    exact h.receives

/-- **Step lemma.** -/
theorem Transfers.step (hname : AcceptedName name) (hlen : content.length < 2 ^ 64)
    (htotal : sender.txTotal = content.length) (hwire : sender.txWire = name)
    (h : Transfers sha256Hex aead content name sender x s) (hstream : PairStream s.net)
    (hnext : PairStep s.net s'.net) (hread : ReadsContent x content e)
    (hs : s.step sha256Hex aead hmacSha256 engine e = some s') :
    Transfers sha256Hex aead content name sender x s' := by
  cases e with
  | tick y fillEnv =>
      rcases Side.eq_or_eq_other x y with rfl | rfl
      · exact h.tick_sender (hread rfl) hs
      · exact h.tick_receiver hstream hs
  | deliver y d rand1 rand2 io =>
      rcases Side.eq_or_eq_other x y with rfl | rfl
      · exact h.deliver_sender hs
      · exact h.deliver_receiver hname hlen htotal hwire hnext hs
  | advance dt =>
      obtain ⟨hnet, hafter⟩ := SfPair.step_spec hs
      have hclock := Option.some.inj hnet
      refine h.quiet (by rw [hafter]; rfl) (by rw [hafter]; rfl) fun y => ?_
      rw [← hclock]
      exact .refl _
  | close y =>
      obtain ⟨hnet, hafter⟩ := SfPair.step_spec hs
      obtain ⟨hself, hother⟩ := FpPair.put_spec hnet
      refine h.quiet (by rw [hafter]; rfl) (by rw [hafter]; rfl) fun z => ?_
      rcases Side.eq_or_eq_other y z with rfl | rfl
      · rw [hself]
        exact fpPeerRequestClose_sameStream _ _
      · rw [hother]
        exact .refl _
  | shutdown y =>
      obtain ⟨hnet, hafter⟩ := SfPair.step_spec hs
      obtain ⟨hself, hother⟩ := FpPair.put_spec hnet
      refine h.quiet (by rw [hafter]; rfl) (by rw [hafter]; rfl) fun z => ?_
      rcases Side.eq_or_eq_other y z with rfl | rfl
      · rw [hself]
        exact .refl _
      · rw [hother]
        exact .refl _

/-! ## Runs -/

theorem streamFileStartSend_sentInv (aead : Aead) {idle : StreamFile}
    (h : streamFileStartSend idle (some content.length) name = (sender, true)) :
    sender.txTotal = content.length ∧ sender.txWire = name ∧
      SentInv aead content sender.key (sfMetadata sender) (sender, []) [] := by
  obtain ⟨total, htotal, hsender⟩ := streamFileStartSend_ok h
  obtain rfl : content.length = total := Option.some.inj htotal
  rw [hsender]
  refine ⟨rfl, rfl, rfl, rfl, fun _ => rfl, .nil, ?_, Nat.zero_le _, by simp⟩
  rw [List.take_zero]
  rfl

theorem SfPair.Init.transfers (h : s.Init x content name) :
    Transfers sha256Hex aead content name (s.file x) x s := by
  obtain ⟨idle, hstart⟩ := h.start
  obtain ⟨-, -, hsent⟩ := streamFileStartSend_sentInv aead hstart
  have hfresh := h.fresh
  refine ⟨⟨[], ?_⟩, Or.inl ?_, [], ?_, ⟨[], [], ?_, ⟨h.key, hfresh.closed, Or.inl ⟨[], ?_, ?_,
    .waiting hfresh.state hfresh.dir hfresh.written hfresh.reports⟩⟩, fun _ => ?_⟩, Or.inr ?_⟩
  · rw [h.queued]
    exact hsent
  · rw [(h.net.starting x).accepted, h.queued]
    rfl
  · rw [(h.net.starting x.other).delivered, h.queued]
    rfl
  · rw [h.queued]
    rfl
  · exact ⟨.nil, by simp⟩
  · exact List.nil_prefix
  · rw [hfresh.rxbuf]
    rfl
  · rw [hfresh.rxbuf]
    rfl

end

/-! ### A file of one byte -/

/-- The left side is about to send the file. -/
def exchangeStart : SfPair where
  net := pairStart
  file := fun x => if x = .left then oneByteFile else oneByteReceiver
  queued := fun _ => []

end HwPhoneLink.Stream
