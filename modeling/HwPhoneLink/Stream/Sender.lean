import HwPhoneLink.Fillp.Complete
import HwPhoneLink.Stream.File

/-!
# The sending session over its peer

A `StreamLink` is a sending session, the peer it fills, and the fillp peer at
the other end. Every PACK that reaches the sender's peer was sent by that other
end; all other datagrams that reach it are arbitrary. The other end sees only
datagrams of the sender's peer, and its application is arbitrary.

`reads`, `queued` and `packs` are histories: the results of the non-empty reads
of the file, the frames that `sf_fill` passed to `fillp_peer_send` (which may
have dropped them), and the PACK datagrams dispatched to the peer. `gone` is set
when the peer is finalized, which frees the session. A close that the
application asks for inside a callback is a `close` event after the call: it
changes only the order in which datagrams leave the socket.
-/

namespace HwPhoneLink.Stream

open BigEndian Transitions HwPhoneLink.Fillp HwPhoneLink.Vtp

/-! ## The system -/

structure StreamLink where
  file : StreamFile
  peer : FillpPeer
  remote : FillpPeer
  clock : ℕ
  gone : Bool
  reads : List (ℕ × Bytes)
  queued : List Bytes
  packs : List Bytes

inductive StreamEv : Type where
  | advance (dt : ℕ)
  | tick (fillEnv : SfFillEnv)
  | datagram (d : Bytes) (rand1 rand2 : UInt32) (io : SfIo)
  | close
  | remoteTick (fill : Option FpFill)
  | remoteDatagram (d : Bytes) (rand1 rand2 : UInt32)
  | remoteSend (data : Bytes)
  | remoteClose

def StreamLink.env (s : StreamLink) (rand1 rand2 : UInt32) : FpEnv :=
  { now := s.clock, nowUs := UInt64.ofNat (s.clock * 1000), rand1 := rand1, rand2 := rand2 }

/-- The non-empty read that a call of the fill function makes, at its offset. -/
def sfReads (fillEnv : SfFillEnv) (sf : StreamFile) : List (ℕ × Bytes) :=
  if sf.txState = .active ∧ sf.txMetaSent = true ∧ sf.txFdOpen = true then
    match fillEnv.pread sf.txOffset with
    | none => []
    | some [] => []
    | some chunk => [(sf.txOffset, chunk)]
  else []

/-- What the fill function does in a pump of the peer, if it is called. -/
def StreamLink.fill (aead : Aead) (fillEnv : SfFillEnv) (s : StreamLink) : StreamFile × FpFill :=
  if fpWantsFill s.peer then sfFill aead fillEnv s.file else (s.file, ⟨[], 0⟩)

/-- One tick on the peer, with the callbacks into the session. -/
def StreamLink.tick (aead : Aead) (fillEnv : SfFillEnv) (s : StreamLink) : StreamLink :=
  let r := s.fill aead fillEnv
  let p := fpTickPeer (s.env 0 0) [] (some r.2) s.peer
  let file := if p.1.txNotified && !s.peer.txNotified then sfOnTxComplete r.1 else r.1
  { s with
    file := if p.2 then { file with closed := true } else file
    peer := p.1
    gone := p.2
    reads := s.reads ++ if fpWantsFill s.peer then sfReads fillEnv s.file else []
    queued := s.queued ++ r.2.chunks }

/-- One datagram to the peer; the runs it delivers go to `sf_on_data`. -/
def StreamLink.datagram (sha256Hex : Bytes → Bytes) (aead : Aead) (d : Bytes)
    (rand1 rand2 : UInt32) (io : SfIo) (s : StreamLink) : StreamLink :=
  let p := fpDataPlane (s.env rand1 rand2) s.peer d
  { s with
    file := (p.delivered.drop s.peer.delivered.length).foldl (sfOnData sha256Hex aead io) s.file
    peer := p
    packs := s.packs ++ if fpTypeOf d = some .pack then [d] else [] }

def StreamLink.step (sha256Hex : Bytes → Bytes) (aead : Aead) (s : StreamLink) :
    StreamEv → Option StreamLink
  | .advance dt => some { s with clock := s.clock + dt }
  | .tick fillEnv => if s.gone then none else some (s.tick aead fillEnv)
  | .datagram d rand1 rand2 io =>
      if s.gone then none
      else if fpTypeOf d ≠ some .pack then some (s.datagram sha256Hex aead d rand1 rand2 io)
      else if d ∈ s.remote.sent then some (s.datagram sha256Hex aead d rand1 rand2 io)
      else none
  | .close =>
      if s.gone then none else some { s with peer := fpPeerRequestClose (s.env 0 0) s.peer }
  | .remoteTick fill => some { s with remote := fpPump (s.env 0 0) fill s.remote }
  | .remoteDatagram d rand1 rand2 =>
      if d ∈ s.peer.sent then some { s with remote := fpDataPlane (s.env rand1 rand2) s.remote d }
      else none
  | .remoteSend data => some { s with remote := fillpPeerSend s.remote data }
  | .remoteClose => some { s with remote := fpPeerRequestClose (s.env 0 0) s.remote }

/-- Both peers have just become established, and a send has been started. -/
structure StreamLink.Init (s : StreamLink) : Prop where
  peer : FreshPeer s.peer
  fillDone : s.peer.fillDone = false
  txNotified : s.peer.txNotified = false
  remote : FreshPeer s.remote
  start : ∃ sf size wireName, sf.done = [] ∧
    streamFileStartSend sf size wireName = (s.file, true)
  gone : s.gone = false
  reads : s.reads = []
  queued : s.queued = []
  packs : s.packs = []

/-! ## What was read and framed -/

/-- The reads follow each other from offset 0 to `off`. -/
inductive ReadsTo : List (ℕ × Bytes) → ℕ → Prop where
  | nil : ReadsTo [] 0
  | snoc {reads : List (ℕ × Bytes)} {off : ℕ} (chunk : Bytes) (h : ReadsTo reads off) :
      ReadsTo (reads ++ [(off, chunk)]) (off + chunk.length)

/-- The frame is one that `sf_send_frame` builds for the payload. -/
def SfFrame (aead : Aead) (key data frame : Bytes) : Prop :=
  ∃ env sf, sf.key = key ∧ sfSendFrame aead env sf data = some frame

/-- The payloads of the frames so far: the metadata, then one for each read. -/
def sfPayloads (sf : StreamFile) (reads : List (ℕ × Bytes)) : List Bytes :=
  if sf.txMetaSent then sfMetadata sf :: reads.map Prod.snd else []

/-- **A call of the fill function**, by what it does. -/
inductive SfFilled (aead : Aead) (env : SfFillEnv) (sf : StreamFile) : StreamFile × FpFill → Prop
  | quiet (h : sf.txState ≠ .active) (hneg : sf.txState ≠ .done) : SfFilled aead env sf (sf, ⟨[], 0⟩)
  | done (h : sf.txState = .done) : SfFilled aead env sf (sf, ⟨[], -1⟩)
  | metadata (frame : Bytes) (h : sf.txState = .active) (hsent : sf.txMetaSent = false)
      (hframe : sfSendFrame aead env sf (sfMetadata sf) = some frame) :
      SfFilled aead env sf ({ sf with txMetaSent := true }, ⟨[frame], frame.length⟩)
  | eof (h : sf.txState = .active) (hsent : sf.txMetaSent = true)
      (hread : sf.txFdOpen = true → env.pread sf.txOffset = some []) :
      SfFilled aead env sf (sf, ⟨[], -1⟩)
  | chunk (chunk frame : Bytes) (h : sf.txState = .active) (hsent : sf.txMetaSent = true)
      (hfd : sf.txFdOpen = true) (hread : env.pread sf.txOffset = some chunk) (hne : chunk ≠ [])
      (hframe : sfSendFrame aead env sf chunk = some frame) :
      SfFilled aead env sf ({ sf with txOffset := sf.txOffset + chunk.length },
        ⟨[frame], frame.length⟩)
  | failed (why : String) (h : sf.txState = .active) : SfFilled aead env sf (sfFail sf why, ⟨[], 0⟩)

theorem sfFill_filled (aead : Aead) (env : SfFillEnv) (sf : StreamFile) :
    SfFilled aead env sf (sfFill aead env sf) := by
  unfold sfFill
  by_cases hactive : sf.txState = .active
  swap
  · rw [if_pos hactive]
    split
    · exact .done (by assumption)
    · exact .quiet hactive (by assumption)
  rw [if_neg (by simpa using hactive)]
  by_cases hsent : sf.txMetaSent = true
  swap
  · rw [if_pos (by simpa using hsent)]
    split
    · exact .failed _ hactive
    · exact .metadata _ hactive (by simpa using hsent) (by assumption)
  rw [if_neg (by simp [hsent])]
  by_cases hfd : sf.txFdOpen = true
  swap
  · rw [if_pos (by simpa using hfd)]
    exact .eof hactive hsent fun hopen => absurd hopen hfd
  rw [if_neg (by simp [hfd])]
  split
  · exact .failed _ hactive
  · rename_i hread
    exact .eof hactive hsent fun _ => hread
  · rename_i chunk hne hread
    split
    · exact .failed _ hactive
    · exact .chunk chunk _ hactive hsent hfd hread (fun he => hne (he ▸ rfl)) (by assumption)

/-! ## Receiving leaves the send half alone -/

/-- The send half is unchanged, except that an active send may have failed. No
completed send is reported. -/
structure TxKept (sf sf' : StreamFile) : Prop where
  key : sf'.key = sf.key
  closed : sf'.closed = sf.closed
  wire : sf'.txWire = sf.txWire
  total : sf'.txTotal = sf.txTotal
  offset : sf'.txOffset = sf.txOffset
  metaSent : sf'.txMetaSent = sf.txMetaSent
  fdOpen : sf'.txFdOpen = sf.txFdOpen
  state : sf'.txState = sf.txState ∨ (sf.txState = .active ∧ sf'.txState = .failed)
  reported : ∀ m, ⟨true, true, m⟩ ∈ sf'.done → ⟨true, true, m⟩ ∈ sf.done

theorem TxKept.refl (sf : StreamFile) : TxKept sf sf :=
  ⟨rfl, rfl, rfl, rfl, rfl, rfl, rfl, Or.inl rfl, fun _ => id⟩

theorem TxKept.trans {sf sf' sf'' : StreamFile} (h : TxKept sf sf') (h' : TxKept sf' sf'') :
    TxKept sf sf'' := by
  refine ⟨h'.key.trans h.key, h'.closed.trans h.closed, h'.wire.trans h.wire, h'.total.trans h.total,
    h'.offset.trans h.offset, h'.metaSent.trans h.metaSent, h'.fdOpen.trans h.fdOpen, ?_,
    fun m hm => h.reported m (h'.reported m hm)⟩
  rcases h.state with hs | ⟨ha, hs⟩
  · rcases h'.state with hs' | ⟨ha', hs'⟩
    · exact Or.inl (hs'.trans hs)
    · exact Or.inr ⟨hs ▸ ha', hs'⟩
  · rcases h'.state with hs' | ⟨ha', -⟩
    · exact Or.inr ⟨ha, hs'.trans hs⟩
    · rw [hs] at ha'
      cases ha'

/-- A report that is not of a completed send. -/
theorem sfReport_kept (sf : StreamFile) {isSend ok : Bool} (h : (isSend && ok) = false)
    (m : String) : TxKept sf (sfReport sf isSend ok m) := by
  refine ⟨rfl, rfl, rfl, rfl, rfl, rfl, rfl, Or.inl rfl, ?_⟩
  intro m' hm
  rcases List.mem_append.mp hm with hm | hm
  · exact hm
  · have heq := List.mem_singleton.mp hm
    injection heq with hsend hok
    rw [← hsend, ← hok] at h
    cases h

theorem sfFailRx_kept (sf : StreamFile) (why : String) : TxKept sf (sfFailRx sf why) := by
  have hfail : TxKept sf (sfReport { sf with rxState := .failed } false false why) :=
    (show TxKept sf { sf with rxState := .failed } from
      ⟨rfl, rfl, rfl, rfl, rfl, rfl, rfl, Or.inl rfl, fun _ => id⟩).trans (sfReport_kept _ rfl why)
  unfold sfFailRx
  split
  · split
    · exact hfail
    · exact .refl sf
  · exact hfail
  · exact .refl sf

theorem sfFail_kept (sf : StreamFile) (why : String) : TxKept sf (sfFail sf why) := by
  refine (sfFailRx_kept sf why).trans ?_
  unfold sfFail
  simp only
  split
  · rename_i hactive
    refine TxKept.trans ?_ (sfReport_kept _ rfl why)
    exact ⟨rfl, rfl, rfl, rfl, rfl, rfl, rfl, Or.inr ⟨hactive, rfl⟩, fun _ => id⟩
  · exact .refl _

theorem sfFail_active {sf : StreamFile} (h : sf.txState = .active) (why : String) :
    (sfFail sf why).txState = .failed := by
  have hrx : (sfFailRx sf why).txState = sf.txState := by
    unfold sfFailRx
    split
    · split <;> rfl
    · rfl
    · rfl
  simp only [sfFail, hrx, h, if_true]
  rfl

theorem sfProcessMeta_kept (io : SfIo) (sf : StreamFile) (out : Bytes) :
    TxKept sf (sfProcessMeta io sf out).1 := by
  have hset : ∀ sf' : StreamFile, sf' = { sf with
      recvDir := sf'.recvDir, rxbuf := sf'.rxbuf, rxState := sf'.rxState
      rxTotal := sf'.rxTotal, rxReceived := sf'.rxReceived, rxName := sf'.rxName
      rxPath := sf'.rxPath, rxExpectedSha := sf'.rxExpectedSha, rxFdOpen := sf'.rxFdOpen
      rxSha := sf'.rxSha, written := sf'.written, rxMeta := sf'.rxMeta } → TxKept sf sf' := by
    intro sf' heq
    rw [heq]
    exact ⟨rfl, rfl, rfl, rfl, rfl, rfl, rfl, Or.inl rfl, fun _ => id⟩
  unfold sfProcessMeta
  split
  · exact sfFail_kept sf _
  split
  · exact sfFail_kept sf _
  simp only
  split
  · exact sfFail_kept sf _
  split
  · exact sfFail_kept sf _
  split
  · exact (hset _ rfl).trans (sfFail_kept _ _)
  · exact hset _ rfl

section Receive

variable (sha256Hex : Bytes → Bytes)

theorem sfComplete_kept (io : SfIo) (sf : StreamFile) : TxKept sf (sfComplete sha256Hex io sf) := by
  unfold sfComplete
  split
  · refine TxKept.trans ?_ (sfReport_kept _ (by simp) _)
    exact ⟨rfl, rfl, rfl, rfl, rfl, rfl, rfl, Or.inl rfl, fun _ => id⟩
  · exact .refl sf

theorem sfProcessChunk_kept (io : SfIo) (sf : StreamFile) (out : Bytes) :
    TxKept sf (sfProcessChunk sha256Hex io sf out).1 := by
  unfold sfProcessChunk
  split
  · split
    · exact sfFail_kept sf _
    simp only
    have hwritten : TxKept sf { sf with
        written := sf.written ++ out.take (io.pwrite sf.rxReceived.toNat out.length) } :=
      ⟨rfl, rfl, rfl, rfl, rfl, rfl, rfl, Or.inl rfl, fun _ => id⟩
    split
    · exact hwritten.trans (sfFail_kept _ _)
    · refine TxKept.trans ?_ (sfComplete_kept sha256Hex io _)
      exact ⟨rfl, rfl, rfl, rfl, rfl, rfl, rfl, Or.inl rfl, fun _ => id⟩
  · exact sfComplete_kept sha256Hex io sf

theorem sfProcessFrame_kept (aead : Aead) (io : SfIo) (sf : StreamFile) (frame : Bytes) (n : ℕ) :
    TxKept sf (sfProcessFrame sha256Hex aead io sf frame n).1 := by
  unfold sfProcessFrame
  split
  · exact .refl sf
  split
  · exact sfFail_kept sf _
  split
  · exact sfProcessMeta_kept io sf _
  · exact sfProcessChunk_kept sha256Hex io sf _

/-- Stream bytes from the other end do not touch the send half. -/
theorem sfOnData_kept (aead : Aead) (io : SfIo) (sf : StreamFile) (data : Bytes) :
    TxKept sf (sfOnData sha256Hex aead io sf data) := by
  unfold sfOnData
  split
  · exact .refl sf
  · have hloop : TxKept sf (Framing.feed sfCut (sfHandle sha256Hex aead io) sfStopped
        (sf, sf.rxbuf) data).1 :=
      Framing.feed_keeps (TxKept sf)
        (fun sf' buf h => h.trans (sfProcessFrame_kept sha256Hex aead io sf' buf _)) (.refl sf) data
    exact hloop.trans ⟨rfl, rfl, rfl, rfl, rfl, rfl, rfl, Or.inl rfl, fun _ => id⟩

theorem foldl_sfOnData_kept (aead : Aead) (io : SfIo) (runs : List Bytes) : ∀ sf : StreamFile,
    TxKept sf (runs.foldl (sfOnData sha256Hex aead io) sf) := by
  induction runs with
  | nil => intro sf; exact .refl sf
  | cons d ds ih => intro sf; exact (sfOnData_kept sha256Hex aead io sf d).trans (ih _)

end Receive

/-! ## The invariant -/

/-- What an unfailed session has handed to its peer. -/
structure TxInv (aead : Aead) (sf : StreamFile) (p : FillpPeer) (reads : List (ℕ × Bytes))
    (queued : List Bytes) : Prop where
  fd : sf.txFdOpen = true
  unsent : sf.txMetaSent = false → reads = []
  readsTo : ReadsTo reads sf.txOffset
  frames : List.Forall₂ (SfFrame aead sf.key) (sfPayloads sf reads) queued
  accepted : p.accepted = queued.flatten
  fillDone : p.fillDone = true → sf.txMetaSent = true ∧ sf.txTotal ≤ sf.txOffset

theorem TxInv.congr {aead : Aead} {sf sf' : StreamFile} {p p' : FillpPeer}
    {reads : List (ℕ × Bytes)} {queued : List Bytes} (h : TxInv aead sf p reads queued)
    (hk : TxKept sf sf') (hacc : p'.accepted = p.accepted) (hfill : p'.fillDone = p.fillDone) :
    TxInv aead sf' p' reads queued := by
  have hpay : sfPayloads sf' reads = sfPayloads sf reads := by
    rw [sfPayloads, sfPayloads, hk.metaSent, sfMetadata, sfMetadata, hk.total, hk.wire]
  refine ⟨hk.fdOpen.trans h.fd, ?_, ?_, ?_, hacc.trans h.accepted, ?_⟩
  · rw [hk.metaSent]; exact h.unsent
  · rw [hk.offset]; exact h.readsTo
  · rw [hk.key, hpay]; exact h.frames
  · rw [hfill, hk.metaSent, hk.total, hk.offset]; exact h.fillDone

structure SenderInv (aead : Aead) (s : StreamLink) : Prop where
  link : OneWay s.peer s.remote s.packs
  started : s.file.txState ≠ .idle
  tx : s.file.txState ≠ .failed → TxInv aead s.file s.peer s.reads s.queued
  drained : s.file.txState = .done → fpTxDrained s.peer = true
  reported : ∀ m, ⟨true, true, m⟩ ∈ s.file.done → s.file.txState = .done

theorem StreamLink.Init.inv {aead : Aead} {s : StreamLink} (h : s.Init) : SenderInv aead s := by
  obtain ⟨sf, size, wireName, hdone, hstart⟩ := h.start
  obtain ⟨total, -, hfile⟩ := streamFileStartSend_ok hstart
  obtain ⟨hstate, hfd, hoff, hmeta, hdone'⟩ : s.file.txState = .active ∧
      s.file.txFdOpen = true ∧ s.file.txOffset = 0 ∧ s.file.txMetaSent = false ∧
      s.file.done = [] := by
    rw [hfile]
    exact ⟨rfl, rfl, rfl, rfl, hdone⟩
  refine ⟨?_, by simp [hstate], fun _ => ⟨hfd, fun _ => h.reads, ?_, ?_, ?_, ?_⟩, ?_, ?_⟩
  · rw [h.packs]
    exact h.peer.oneWay h.remote
  · rw [h.reads, hoff]
    exact .nil
  · rw [sfPayloads, hmeta, h.queued]
    exact .nil
  · rw [h.peer.accepted, h.queued]
    rfl
  · rw [h.fillDone]
    exact fun hf => absurd hf (by simp)
  · rw [hstate]
    exact fun hd => absurd hd (by simp)
  · rw [hdone']
    exact fun m hm => absurd hm (by simp)

/-! ## The condition on a step -/

/-- The payload that a call of `sf_fill` frames next, if there is one. -/
def sfNextPayload (fillEnv : SfFillEnv) (sf : StreamFile) : Option Bytes :=
  if sf.txMetaSent then
    match fillEnv.pread sf.txOffset with
    | some [] => none
    | r => r
  else some (sfMetadata sf)

/-- A call of `sf_fill` that frames a payload finds the peer established, and
one that reads the end of the file finds all of it read. -/
def FillsSafely (aead : Aead) (s : StreamLink) : StreamEv → Prop
  | .tick fillEnv => fpWantsFill s.peer = true → s.file.txState = .active →
      (∀ data, sfNextPayload fillEnv s.file = some data →
        sfSendFrame aead fillEnv s.file data ≠ none → s.peer.state = .established) ∧
      (s.file.txMetaSent = true → fillEnv.pread s.file.txOffset = some [] →
        s.file.txTotal ≤ s.file.txOffset)
  | _ => True

/-! ## Steps -/

/-- A chunk that is read is the next payload, and is on record as read. -/
theorem sfNextPayload_chunk {fillEnv : SfFillEnv} {sf : StreamFile} {chunk : Bytes}
    (hsent : sf.txMetaSent = true) (hread : fillEnv.pread sf.txOffset = some chunk)
    (hne : chunk ≠ []) : sfNextPayload fillEnv sf = some chunk := by
  rw [sfNextPayload, if_pos hsent, hread]
  split
  · rename_i hnil
    exact absurd (Option.some.inj hnil) hne
  · rfl

theorem sfReads_chunk {fillEnv : SfFillEnv} {sf : StreamFile} {chunk : Bytes}
    (hactive : sf.txState = .active) (hsent : sf.txMetaSent = true) (hfd : sf.txFdOpen = true)
    (hread : fillEnv.pread sf.txOffset = some chunk) (hne : chunk ≠ []) :
    sfReads fillEnv sf = [(sf.txOffset, chunk)] := by
  rw [sfReads, if_pos ⟨hactive, hsent, hfd⟩, hread]
  split
  · rename_i hnone
    cases hnone
  · rename_i hnil
    exact absurd (Option.some.inj hnil) hne
  · rename_i c _ hsome
    rw [Option.some.inj hsome]

/-- The session after the fill call of a tick, with the pumped peer. -/
theorem SenderInv.fill {aead : Aead} {s : StreamLink} (h : SenderInv aead s)
    {fillEnv : SfFillEnv} (hok : FillsSafely aead s (.tick fillEnv)) (env : FpEnv)
    {r : StreamFile × FpFill} (hr : s.fill aead fillEnv = r) :
    r.1.txState ≠ .idle ∧
      (r.1.txState ≠ .failed → TxInv aead r.1 (fpPump env (some r.2) s.peer)
        (s.reads ++ if fpWantsFill s.peer then sfReads fillEnv s.file else [])
        (s.queued ++ r.2.chunks)) ∧
      (r.1.txState = .done → s.file.txState = .done) ∧
      (∀ m, ⟨true, true, m⟩ ∈ r.1.done → s.file.txState = .done) := by
  by_cases hwant : fpWantsFill s.peer = true
  swap
  · -- the fill function is not called
    rw [StreamLink.fill, if_neg hwant] at hr
    rw [← hr, if_neg hwant]
    refine ⟨h.started, fun hlive => ?_, id, h.reported⟩
    have hacc := fpPump_accepts env ⟨[], 0⟩ (p := s.peer) (fun hw => absurd hw hwant)
    have hfill := (fpPump_fill env (some ⟨[], 0⟩) s.peer).1
    have hgiven : fpFillGiven (some ⟨[], 0⟩) s.peer = [] := by simp [fpFillGiven, hwant]
    rw [hgiven, List.append_nil] at hacc
    have hkeep : (fpPumpFill (some ⟨[], 0⟩) s.peer).fillDone = s.peer.fillDone := by
      simp [fpPumpFill, hwant]
    simpa using (h.tx hlive).congr (.refl _) hacc (hfill.trans hkeep)
  rw [StreamLink.fill, if_pos hwant] at hr
  have hnotDone : s.peer.fillDone = false := by
    unfold fpWantsFill at hwant
    simp only [Bool.and_eq_true, Bool.not_eq_true'] at hwant
    exact hwant.1
  have hfill : ∀ f : FpFill, (fpPump env (some f) s.peer).fillDone = true → f.ret < 0 := by
    intro f hf
    rcases fpPump_fillDone env f hf with hold | ⟨-, hneg⟩
    · rw [hnotDone] at hold
      cases hold
    · exact hneg
  have hgiven : ∀ f : FpFill, fpFillGiven (some f) s.peer = f.chunks.flatten := by
    intro f
    simp [fpFillGiven, hwant]
  rw [if_pos hwant]
  have hcases := sfFill_filled aead fillEnv s.file
  rw [hr] at hcases
  cases hcases with
  | quiet hquiet hneg =>
      refine ⟨h.started, fun hlive => ?_, id, h.reported⟩
      cases hst : s.file.txState <;> simp_all [h.started]
  | done hdone =>
      obtain ⟨hf, -⟩ := (fpTxDrained_iff _).mp (h.drained hdone)
      rw [hnotDone] at hf
      cases hf
  | metadata frame hactive hsent hframe =>
      have htx := h.tx (by simp [hactive])
      have hest := (hok hwant hactive).1 (sfMetadata s.file)
        (by simp [sfNextPayload, hsent]) (by simp [hframe])
      have hnone : sfReads fillEnv s.file = [] := by simp [sfReads, hsent]
      have hreads := htx.unsent hsent
      have hqueued : s.queued = [] := by
        have := htx.frames
        rw [sfPayloads, hsent] at this
        exact List.forall₂_nil_left_iff.mp this
      refine ⟨by simp [hactive], fun _ => ⟨htx.fd, ?_, ?_, ?_, ?_, ?_⟩, ?_, h.reported⟩
      · intro hfalse
        cases hfalse
      · rw [hnone, List.append_nil]
        exact htx.readsTo
      · rw [hnone, hreads, hqueued]
        exact .cons ⟨fillEnv, s.file, rfl, hframe⟩ .nil
      · rw [fpPump_accepts env _ fun _ _ => hest, hgiven, htx.accepted, List.flatten_append]
      · intro hf
        have := hfill _ hf
        simp only at this
        omega
      · exact id
  | eof hactive hsent hread =>
      have htx := h.tx (by simp [hactive])
      have hend := (hok hwant hactive).2 hsent (hread htx.fd)
      have hnone : sfReads fillEnv s.file = [] := by
        simp [sfReads, hread htx.fd]
      refine ⟨h.started, fun _ => ⟨htx.fd, ?_, ?_, ?_, ?_, ?_⟩, id, h.reported⟩
      · rw [hsent]
        exact fun hfalse => absurd hfalse (by simp)
      · rw [hnone, List.append_nil]
        exact htx.readsTo
      · rw [hnone, List.append_nil, List.append_nil]
        exact htx.frames
      · rw [fpPump_accepts env _ fun _ hne => absurd rfl hne, hgiven, htx.accepted]
        simp
      · exact fun _ => ⟨hsent, hend⟩
  | chunk chunk frame hactive hsent hfd hread hne hframe =>
      have htx := h.tx (by simp [hactive])
      have hpay := sfNextPayload_chunk hsent hread hne
      have hest := (hok hwant hactive).1 chunk hpay (by simp [hframe])
      have hone := sfReads_chunk hactive hsent hfd hread hne
      refine ⟨by simp [hactive], fun _ => ⟨hfd, ?_, ?_, ?_, ?_, ?_⟩, ?_, h.reported⟩
      · simp only [hsent]
        exact fun hfalse => absurd hfalse (by simp)
      · rw [hone]
        exact htx.readsTo.snoc chunk
      · have hold := htx.frames
        rw [sfPayloads, if_pos hsent] at hold
        rw [hone]
        simp only [sfPayloads, hsent, if_true, List.map_append, List.map_cons, List.map_nil]
        exact List.rel_append hold (.cons ⟨fillEnv, s.file, rfl, hframe⟩ .nil)
      · rw [fpPump_accepts env _ fun _ _ => hest, hgiven, htx.accepted, List.flatten_append]
      · intro hf
        have := hfill _ hf
        simp only at this
        omega
      · exact id
  | failed why hactive =>
      have hstate := sfFail_active hactive why
      refine ⟨by simp [hstate], fun hlive => absurd hstate hlive, ?_, ?_⟩
      · intro hd
        simp only [hstate] at hd
        cases hd
      · exact fun m hm => h.reported m ((sfFail_kept s.file why).reported m hm)

/-- `sf_on_tx_complete` completes an active session and does nothing else. -/
theorem sfOnTxComplete_cases (sf : StreamFile) :
    sfOnTxComplete sf = sf ∨ (sf.txState = .active ∧ ∃ m, sfOnTxComplete sf =
      sfReport { sf with txState := .done } true true m) := by
  unfold sfOnTxComplete
  split
  · exact Or.inl rfl
  split
  · exact Or.inl rfl
  · rename_i hactive
    exact Or.inr ⟨by simpa using hactive, _, rfl⟩

theorem fpTickPeer_open {p : FillpPeer} (h : p.state = .established ∨ p.state = .closing)
    (env : FpEnv) (localAddr : Bytes) (fill : Option FpFill) :
    (fpTickPeer env localAddr fill p).1 = fpPump env fill p := by
  unfold fpTickPeer
  rcases h with h | h <;> rw [h]

theorem SenderInv.tick {aead : Aead} {s : StreamLink} (h : SenderInv aead s)
    {fillEnv : SfFillEnv} (hok : FillsSafely aead s (.tick fillEnv)) :
    SenderInv aead (s.tick aead fillEnv) := by
  obtain ⟨hstarted, htx, hdone, hreported⟩ := h.fill hok (s.env 0 0) rfl
  set r := s.fill aead fillEnv with hr
  have hpump := fpTickPeer_open h.link.state (s.env 0 0) [] (some r.2)
  set p := fpPump (s.env 0 0) (some r.2) s.peer with hp
  have hdrained : s.file.txState = .done → fpTxDrained p = true :=
    fun hd => (fpPump_drained (s.env 0 0) (some r.2) (h.drained hd)).1
  -- the session after step 4 of the pump
  obtain ⟨file, hfile⟩ : ∃ file, file =
      if p.txNotified && !s.peer.txNotified then sfOnTxComplete r.1 else r.1 := ⟨_, rfl⟩
  have hcore : file.txState ≠ .idle ∧
      (file.txState ≠ .failed → TxInv aead file p
        (s.reads ++ if fpWantsFill s.peer then sfReads fillEnv s.file else [])
        (s.queued ++ r.2.chunks)) ∧
      (file.txState = .done → fpTxDrained p = true) ∧
      (∀ m, ⟨true, true, m⟩ ∈ file.done → file.txState = .done) := by
    have hquiet : r.1.txState ≠ .idle ∧
        (r.1.txState ≠ .failed → TxInv aead r.1 p
          (s.reads ++ if fpWantsFill s.peer then sfReads fillEnv s.file else [])
          (s.queued ++ r.2.chunks)) ∧
        (r.1.txState = .done → fpTxDrained p = true) ∧
        (∀ m, ⟨true, true, m⟩ ∈ r.1.done → r.1.txState = .done) := by
      refine ⟨hstarted, htx, fun hd => hdrained (hdone hd), fun m hm => ?_⟩
      -- a session that was done is not filled again
      have hold := hreported m hm
      have hf := ((fpTxDrained_iff _).mp (h.drained hold)).1
      have hsame : r = (s.file, ⟨[], 0⟩) := by
        rw [hr, StreamLink.fill, if_neg]
        simp [fpWantsFill, hf]
      rw [hsame]
      exact hold
    rw [hfile]
    split
    · rename_i hnew
      rw [Bool.and_eq_true, Bool.not_eq_true'] at hnew
      rcases sfOnTxComplete_cases r.1 with heq | ⟨hactive, m, heq⟩
      · rw [heq]
        exact hquiet
      · rw [heq]
        refine ⟨by simp [sfReport], fun _ => ?_, fun _ => fpPump_notified _ _ hnew.2 hnew.1,
          fun _ _ => rfl⟩
        obtain ⟨hfd, hunsent, hreads, hframes, hacc, hfd'⟩ := htx (by simp [hactive])
        exact ⟨hfd, hunsent, hreads, hframes, hacc, hfd'⟩
    · exact hquiet
  obtain ⟨hst, htx', hdr, hrep⟩ := hcore
  have hlink := h.link.pump (s.env 0 0) (some r.2)
  simp only [StreamLink.tick, ← hr, hpump, ← hfile]
  split
  · refine ⟨hlink, hst, fun hlive => ?_, hdr, hrep⟩
    obtain ⟨hfd, hunsent, hreads, hframes, hacc, hfd'⟩ := htx' hlive
    exact ⟨hfd, hunsent, hreads, hframes, hacc, hfd'⟩
  · exact ⟨hlink, hst, htx', hdr, hrep⟩

/-- A step that changes the session only by receiving, and the peer without
filling it. -/
theorem SenderInv.kept {aead : Aead} {s s' : StreamLink} (h : SenderInv aead s)
    (hlink : OneWay s'.peer s'.remote s'.packs) (hfile : TxKept s.file s'.file)
    (hacc : s'.peer.accepted = s.peer.accepted) (hfill : s'.peer.fillDone = s.peer.fillDone)
    (hdrained : fpTxDrained s.peer = true → fpTxDrained s'.peer = true)
    (hreads : s'.reads = s.reads) (hqueued : s'.queued = s.queued) : SenderInv aead s' := by
  refine ⟨hlink, ?_, ?_, ?_, ?_⟩
  · rcases hfile.state with heq | ⟨-, heq⟩
    · rw [heq]; exact h.started
    · simp [heq]
  · intro hlive
    rw [hreads, hqueued]
    rcases hfile.state with heq | ⟨-, heq⟩
    · exact (h.tx (by rw [← heq]; exact hlive)).congr hfile hacc hfill
    · exact absurd heq hlive
  · intro hd
    rcases hfile.state with heq | ⟨-, heq⟩
    · exact hdrained (h.drained (heq ▸ hd))
    · rw [heq] at hd
      cases hd
  · intro m hm
    have hold := h.reported m (hfile.reported m hm)
    rcases hfile.state with heq | ⟨hactive, -⟩
    · exact heq.trans hold
    · rw [hold] at hactive
      cases hactive

theorem fpDataPlane_fillDone (env : FpEnv) (p : FillpPeer) (d : Bytes) :
    (fpDataPlane env p d).fillDone = p.fillDone := by
  unfold fpDataPlane
  split
  · split
    · exact (fpOnData_sameSnd env p d).fillDone
    · rfl
  · split
    · unfold fpOnNack
      split <;> rfl
    · rfl
  · split
    · unfold fpOnPack
      split <;> rfl
    · rfl
  · split
    · exact (fpOnFin_sameSnd env p).fillDone
    · rfl
  · rfl

/-- **Step lemma.** -/
theorem SenderInv.step {sha256Hex : Bytes → Bytes} {aead : Aead} {s s' : StreamLink}
    {e : StreamEv} (h : SenderInv aead s) (hok : FillsSafely aead s e)
    (hs : s.step sha256Hex aead e = some s') : SenderInv aead s' := by
  have hremote : ∀ remote', OneWay s.peer remote' s.packs →
      SenderInv aead { s with remote := remote' } := fun remote' hlink =>
    h.kept hlink (.refl _) rfl rfl id rfl rfl
  unfold StreamLink.step at hs
  cases e with
  | advance dt =>
      cases hs
      exact h.kept h.link (.refl _) rfl rfl id rfl rfl
  | tick fillEnv =>
      simp only at hs
      split at hs
      · cases hs
      · cases hs
        exact h.tick hok
  | datagram d rand1 rand2 io =>
      have hnext : (fpTypeOf d = some .pack → d ∈ s.remote.sent) →
          SenderInv aead (s.datagram sha256Hex aead d rand1 rand2 io) := fun hpack =>
        h.kept (h.link.datagram hpack (s.env rand1 rand2))
          (foldl_sfOnData_kept sha256Hex aead io _ _)
          (fpDataPlane_grows (s.env rand1 rand2) s.peer d).2
          (fpDataPlane_fillDone (s.env rand1 rand2) s.peer d)
          (fun hd => fpDataPlane_drained (s.env rand1 rand2) hd d) rfl rfl
      simp only at hs
      split at hs
      · cases hs
      split at hs
      · rename_i htype
        cases hs
        exact hnext fun hpack => absurd hpack htype
      split at hs
      · rename_i hsent
        cases hs
        exact hnext fun _ => hsent
      · cases hs
  | close =>
      simp only at hs
      split at hs
      · cases hs
      · cases hs
        have hsame := fpPeerRequestClose_sameSnd (s.env 0 0) s.peer
        exact h.kept (h.link.close (s.env 0 0)) (.refl _) hsame.accepted hsame.fillDone
          (fun hd => hsame.drained.trans hd) rfl rfl
  | remoteTick fill =>
      cases hs
      exact hremote _ (h.link.remotePump (s.env 0 0) fill)
  | remoteDatagram d rand1 rand2 =>
      simp only at hs
      split at hs
      · rename_i hd
        cases hs
        exact hremote _ (h.link.remoteDatagram hd (s.env rand1 rand2))
      · cases hs
  | remoteSend data =>
      cases hs
      exact hremote _ (h.link.remoteSame (fillpPeerSend_sameRcv s.remote data))
  | remoteClose =>
      cases hs
      exact hremote _ (h.link.remoteSame (fpPeerRequestClose_sameRcv (s.env 0 0) s.remote))

/-! ## Runs -/

/-- The whole file has been read, framed, accepted into the send queue,
transmitted and acknowledged. -/
structure StreamLink.AllSent (aead : Aead) (s : StreamLink) : Prop where
  covers : ∃ off, ReadsTo s.reads off ∧ s.file.txTotal ≤ off
  frames : List.Forall₂ (SfFrame aead s.file.key)
    (sfMetadata s.file :: s.reads.map Prod.snd) s.queued
  accepted : s.peer.accepted = s.queued.flatten
  numbered : s.peer.numbered.flatten = s.peer.accepted
  transmitted : Transmitted s.peer
  acked : ∀ i < s.peer.numbered.length, ∃ d ∈ s.packs, d ∈ s.remote.sent ∧ AcksPkt d i
  received : s.peer.numbered.length < 2 ^ 31 → s.remote.delivered = s.peer.numbered

theorem SenderInv.allSent {aead : Aead} {s : StreamLink} (h : SenderInv aead s) {m : String}
    (hdone : ⟨true, true, m⟩ ∈ s.file.done) : s.AllSent aead := by
  have hstate := h.reported m hdone
  have hdrained := h.drained hstate
  have htx := h.tx (by simp [hstate])
  obtain ⟨hsent, htotal⟩ := htx.fillDone ((fpTxDrained_iff _).mp hdrained).1
  obtain ⟨hnum, htrans, hacked, hrecv⟩ := h.link.drained hdrained
  have hframes := htx.frames
  rw [sfPayloads, if_pos hsent] at hframes
  exact ⟨⟨_, htx.readsTo, htotal⟩, hframes, htx.accepted, hnum, htrans, hacked, hrecv⟩

/-- **A reported send is complete**, in every run whose fill calls frame nothing
outside ESTABLISHED and read no end of file before `tx_total`. -/
theorem StreamLink.allSent_of_done {sha256Hex : Bytes → Bytes} {aead : Aead} {s t : StreamLink}
    {es : List StreamEv} (hs : s.Init)
    (hok : Meets (StreamLink.step sha256Hex aead) (FillsSafely aead) s es)
    (hrun : run (StreamLink.step sha256Hex aead) s es = some t) {m : String}
    (hdone : ⟨true, true, m⟩ ∈ t.file.done) : t.AllSent aead :=
  (run_inv (SenderInv aead) (FillsSafely aead) (fun _ _ _ h hok hs => h.step hok hs)
    hs.inv hok hrun).allSent hdone

/-! ## A file of one byte -/

/-- The metadata frame and the data frame of the file `a` with the one byte 65,
sealed with AES-256-GCM under the zero key. -/
def oneByteSealed : List VtpSealed :=
  [{ key := List.replicate 32 0, nonce := List.replicate 12 1
     plain := vtpHeader 1 0 0 0 11 ++ [0, 0, 0, 0, 0, 0, 0, 1, 0, 1, 97]
     ct := [116, 64, 195, 106, 122, 137, 120, 253, 98, 182, 228, 141, 187, 47, 124, 105, 188, 101,
      236, 91, 15, 230, 53, 55, 15, 180, 112]
     tag := [50, 83, 212, 144, 211, 24, 41, 70, 97, 201, 204, 96, 238, 210, 189, 116] },
   { key := List.replicate 32 0, nonce := List.replicate 12 2
     plain := vtpHeader 1 0 0 0 1 ++ [65]
     ct := [69, 248, 12, 237, 56, 115, 194, 37, 132, 252, 218, 126, 170, 248, 212, 218, 171]
     tag := [48, 177, 223, 183, 233, 173, 247, 133, 186, 187, 24, 225, 98, 54, 63, 128] }]

def oneByteAead : Aead := Aead.ofAnswers oneByteSealed (by decide) (by decide)

/-- A fill call that draws the nonce of the `i`-th frame and reads the file. -/
def oneByteEnv (i : UInt8) : SfFillEnv where
  nonce := some (List.replicate 12 i)
  nonce_length := by simp [vtpNonceLen]
  timestamp := 0
  pread := fun off => some (List.drop off [65])

/-- The session after `stream_file_start_send`. -/
def oneByteFile : StreamFile :=
  { streamFileNew (List.replicate 32 0) with
    txFdOpen := true, txWire := [97], txTotal := 1, txState := .active }

def oneByteStart : StreamLink where
  file := oneByteFile
  peer := fpPeerEstablished ⟨0, 0, 0, 0⟩ (fpPeerNew ⟨0, 0, 0, 0⟩ true)
  remote := fpPeerEstablished ⟨0, 0, 0, 0⟩ (fpPeerNew ⟨0, 0, 0, 0⟩ false)
  clock := 0
  gone := false
  reads := []
  queued := []
  packs := []

theorem oneByteStart_init : oneByteStart.Init :=
  ⟨⟨rfl, rfl, rfl, rfl, rfl, rfl, rfl, rfl, rfl, rfl, rfl, rfl, rfl, rfl, rfl, rfl⟩, rfl, rfl,
    ⟨rfl, rfl, rfl, rfl, rfl, rfl, rfl, rfl, rfl, rfl, rfl, rfl, rfl, rfl, rfl, rfl⟩,
    ⟨streamFileNew (List.replicate 32 0), some 1, [97], rfl, rfl⟩, rfl, rfl, rfl, rfl⟩

/-- The frame sent in packet `n` of the stream, and its packet. -/
def oneByteFrame (i : ℕ) : Bytes :=
  match oneByteSealed[i]? with
  | none => []
  | some m => putU32 (UInt32.ofNat (44 + m.plain.length - 16)) ++ (m.nonce ++ (m.ct ++ m.tag))

def oneBytePkt (i : ℕ) (seqNum : UInt32) (t : ℕ) : Bytes :=
  fpPktFrame ⟨UInt32.ofNat (i + 1), seqNum, (oneByteFrame i).length, t, oneByteFrame i⟩

def oneByteAck (pktNum seqNum : UInt32) : Bytes :=
  (fillpEncodePack (fillpHlen + fillpPackLen) seqNum pktNum seqNum 0).getD []

/-- Metadata and data are queued, read to the end and acknowledged. -/
def oneByteSend : List StreamEv :=
  [.tick (oneByteEnv 1), .tick (oneByteEnv 2), .tick (oneByteEnv 2), .advance 10,
    .remoteDatagram (oneBytePkt 0 59 0) 0 0, .remoteDatagram (oneBytePkt 1 108 0) 0 0, .advance 10,
    .remoteTick none, .datagram (oneByteAck 2 108) 0 0 ⟨true, fun _ n => n, true⟩,
    .tick (oneByteEnv 2)]

/-- A FIN arrives after the metadata: the data frame is dropped. -/
def oneByteFin : List StreamEv :=
  [.tick (oneByteEnv 1),
    .datagram ((fillpEncodeFin (fillpHlen + fillpFinLen) 0).getD []) 0 0
      ⟨true, fun _ n => n, true⟩,
    .tick (oneByteEnv 2), .tick (oneByteEnv 2), .advance 10,
    .remoteDatagram (oneBytePkt 0 59 0) 0 0, .advance 10, .remoteTick none,
    .datagram (oneByteAck 1 59) 0 0 ⟨true, fun _ n => n, true⟩, .tick (oneByteEnv 2)]

/-- The condition of `FillsSafely`, tested on the safe side. -/
def fillsSafelyTest (s : StreamLink) : StreamEv → Bool
  | .tick fillEnv => decide (s.peer.state = .established) &&
      (fillEnv.pread s.file.txOffset != some [] || decide (s.file.txTotal ≤ s.file.txOffset))
  | _ => true

theorem fillsSafely_of_test (aead : Aead) (s : StreamLink) (e : StreamEv)
    (h : fillsSafelyTest s e = true) : FillsSafely aead s e := by
  cases e with
  | tick fillEnv =>
      simp only [fillsSafelyTest, Bool.and_eq_true, decide_eq_true_eq, Bool.or_eq_true,
        bne_iff_ne] at h
      intro _ _
      exact ⟨fun _ _ _ => h.1, fun _ hend => h.2.resolve_left fun hne => hne hend⟩
  | _ => trivial

theorem StreamLink.allSent_of_done_one_byte :
    ∃ t, run (StreamLink.step (fun _ => []) oneByteAead) oneByteStart oneByteSend = some t ∧
      (∃ m, ⟨true, true, m⟩ ∈ t.file.done) ∧ t.AllSent oneByteAead := by
  obtain ⟨t, hrun, hdone⟩ := Option.map_eq_some_iff.mp (show
    (run (StreamLink.step (fun _ => []) oneByteAead) oneByteStart oneByteSend).map
      (fun t => t.file.done) = some [⟨true, true, "1 bytes sent and acked"⟩] by decide +kernel)
  have hok : Meets (StreamLink.step (fun _ => []) oneByteAead) (FillsSafely oneByteAead)
      oneByteStart oneByteSend :=
    meets_of_test (fillsSafely_of_test oneByteAead) _ (by decide +kernel)
  have hmem : ⟨true, true, "1 bytes sent and acked"⟩ ∈ t.file.done := by simp [hdone]
  exact ⟨t, hrun, ⟨_, hmem⟩, StreamLink.allSent_of_done oneByteStart_init hok hrun hmem⟩

/-- **A dropped frame is reported as sent.** -/
theorem StreamLink.not_allSent_of_done :
    oneByteStart.Init ∧
      ∃ t, run (StreamLink.step (fun _ => []) oneByteAead) oneByteStart oneByteFin = some t ∧
        (∃ m, ⟨true, true, m⟩ ∈ t.file.done) ∧ ¬ t.AllSent oneByteAead := by
  refine ⟨oneByteStart_init, ?_⟩
  obtain ⟨t, hrun, hfacts⟩ := Option.map_eq_some_iff.mp (show
    (run (StreamLink.step (fun _ => []) oneByteAead) oneByteStart oneByteFin).map
      (fun t => (t.file.done, t.peer.accepted.length, t.queued.flatten.length)) =
      some ([⟨true, true, "1 bytes sent and acked"⟩], 59, 108) by decide +kernel)
  simp only [Prod.mk.injEq] at hfacts
  obtain ⟨hdone, hacc, hqueued⟩ := hfacts
  refine ⟨t, hrun, ⟨"1 bytes sent and acked", by simp [hdone]⟩, fun hall => ?_⟩
  rw [hall.accepted, hqueued] at hacc
  omega

end HwPhoneLink.Stream
