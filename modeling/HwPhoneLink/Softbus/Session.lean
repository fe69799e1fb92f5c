import HwPhoneLink.Softbus.Frame

/-!
# A dsoftbus session

`softbus_session.c`: the read pump, and the frames of `softbus_session_send`. However
the stream is cut into reads, the pump hands out the payloads of the frames that have
arrived whole, and keeps the rest (`SoftbusPump.delivers`).
-/

namespace HwPhoneLink.Softbus

open BigEndian Framing

/-- The frame that `softbus_session_send` packs. -/
def softbusSessionFrame (sessionId : SoftbusSessionId) (sessionType : UInt8) (seq : UInt32)
    (data : Bytes) : SoftbusFrame where
  sessionId := sessionId
  seq := seq
  type := sessionType
  flags := softbusFrameFlagFin
  pktFlags := 0
  extLen := 0
  payload := some data
  payloadLen := data.length
  payload_length := fun b hb => by rw [Option.mem_some_iff.mp hb]

/-! ## The pump -/

/-- `frame` is the variable of the loop. `delivered` are the payloads passed to the data
callback and `errors` what `softbus_frame_buf_pop` has reported. -/
structure SoftbusPump where
  frame : SoftbusFrame
  delivered : List Bytes
  errors : List String

/-- The loop over `softbus_frame_buf_pop`. A frame that is popped leaves a shorter
buffer, so the length of the buffer bounds the rounds. -/
def pumpFrames : ℕ → SoftbusPump → Bytes → SoftbusPump × Bytes
  | 0, s, buf => (s, buf)
  | n + 1, s, buf =>
      let r := softbusFrameBufPop buf s.frame
      if r.popped then
        pumpFrames n { s with frame := r.frame, delivered := s.delivered ++ [r.frame.content] }
          r.buf
      else ({ s with frame := r.frame, errors := s.errors ++ r.error.toList }, r.buf)

/-- One round of `_pump_thread`: a read and the frames it completes. -/
def pumpRead (s : SoftbusPump × Bytes) (chunk : Bytes) : SoftbusPump × Bytes :=
  let buf := softbusFrameBufAppend s.2 chunk
  pumpFrames buf.length s.1 buf

/-! ## The pump as a reader of frames -/

/-- The length of the front frame. A corrupt buffer is dropped whole. -/
def softbusCut (frame : SoftbusFrame) (buf : Bytes) : Option ℕ :=
  match (softbusFrameUnpack buf frame).1 with
  | .consumed n => some n
  | .invalid => some buf.length
  | .incomplete => none

def softbusHandle (s : SoftbusPump) (buf : Bytes) : SoftbusPump × Bool :=
  let r := softbusFrameBufPop buf s.frame
  (if r.popped then { s with frame := r.frame, delivered := s.delivered ++ [r.frame.content] }
   else { s with frame := r.frame, errors := s.errors ++ r.error.toList }, r.popped)

theorem softbusCut_nil (frame : SoftbusFrame) : softbusCut frame [] = none := rfl

/-- **The pump reads frames.** -/
theorem pumpFrames_eq_drain (frame : SoftbusFrame) (n : ℕ) : ∀ (s : SoftbusPump) (buf : Bytes),
    pumpFrames n s buf = drain (softbusCut frame) softbusHandle (fun _ => false) n s buf := by
  induction n with
  | zero => intro s buf; rfl
  | succ n ih =>
      intro s buf
      rw [pumpFrames, drain, if_neg Bool.false_ne_true, softbusCut,
        softbusFrameUnpack_result buf frame s.frame]
      by_cases hbuf : buf.length > 0
      · have hpop : softbusFrameBufPop buf s.frame = _ := if_pos hbuf
        rcases hread : softbusFrameUnpack buf s.frame with ⟨r, frame'⟩
        cases r with
        | consumed k => simp only [hpop, hread, softbusHandle, if_true, ih]
        | invalid =>
            simp only [hpop, hread, softbusHandle, Bool.false_eq_true, if_false, List.drop_length]
        | incomplete =>
            have hsame := softbusFrameUnpack_incomplete (congrArg Prod.fst hread)
            rw [hread] at hsame
            cases hsame
            simp [hpop, hread]
      · have hnil : buf = [] := List.length_eq_zero_iff.mp (Nat.eq_zero_of_not_pos hbuf)
        subst hnil
        simp [softbusFrameBufPop, softbusFrameUnpack, softbusFrameHeaderSize]

theorem pumpRead_eq_feed (frame : SoftbusFrame) (s : SoftbusPump × Bytes) (chunk : Bytes) :
    pumpRead s chunk = feed (softbusCut frame) softbusHandle (fun _ => false) s chunk :=
  pumpFrames_eq_drain frame _ s.1 (s.2 ++ chunk)

/-- A frame that fits. -/
structure SoftbusFrame.Fits (f : SoftbusFrame) : Prop where
  readable : f.Readable
  fits : f.payloadLen + f.extLen.toNat ≤ softbusFrameMaxPayload

theorem SoftbusFrame.Fits.wire_pos {f : SoftbusFrame} (h : f.Fits) : 0 < f.wire.length := by
  rw [SoftbusFrame.wire_length h.readable]
  show 0 < 24 + _ + _
  omega

theorem SoftbusFrame.Fits.pop {f : SoftbusFrame} (h : f.Fits) (trailing : Bytes)
    (frame : SoftbusFrame) :
    softbusFrameBufPop (f.wire ++ trailing) frame =
      { popped := true, error := none, buf := trailing, frame := f.received.owned } := by
  have hpos : (f.wire ++ trailing).length > 0 := by
    rw [List.length_append]
    have := h.wire_pos
    omega
  rw [softbusFrameBufPop, if_pos hpos, softbusFrameUnpack_wire h.readable h.fits]
  simp

theorem SoftbusFrame.owned_content (f : SoftbusFrame) : f.owned.content = f.content := by
  unfold SoftbusFrame.owned
  split
  · rfl
  · rename_i hzero
    rcases hp : f.payload with _ | b
    · simp [SoftbusFrame.content, hp]
    · have hb := f.payload_length b hp
      have hnil : b = [] := by
        rw [← List.length_eq_zero_iff]
        omega
      simp [SoftbusFrame.content, hp, hnil]

/-- The wire form of a frame that fits is one frame of the stream. -/
theorem SoftbusFrame.Fits.isFrame {f : SoftbusFrame} (h : f.Fits) (frame : SoftbusFrame) :
    IsFrame (softbusCut frame) softbusHandle f.wire := by
  constructor
  · intro more
    rw [softbusCut, softbusFrameUnpack_wire h.readable h.fits]
  · intro p q hsplit hq
    rw [softbusCut, softbusFrameUnpack_cutOff h.readable h.fits hsplit hq]
  · intro s more
    have hwhole := h.pop [] s.frame
    rw [List.append_nil] at hwhole
    simp only [softbusHandle, h.pop, hwhole]

/-! ## A stream of frames -/

/-- The first frames have been handed out, and nothing else. -/
def Handed (frames : List SoftbusFrame) (done : List Bytes) (s : SoftbusPump) : Prop :=
  ∃ k ≤ frames.length, done = (frames.take k).map SoftbusFrame.wire ∧
    s.delivered = (frames.take k).map SoftbusFrame.content ∧ s.errors = []

theorem handed_handles {frames : List SoftbusFrame} (hfits : ∀ f ∈ frames, f.Fits) :
    Handles softbusHandle (fun _ => false) (Handed frames) (frames.map SoftbusFrame.wire) := by
  rintro done w rest s hsplit ⟨k, hk, rfl, hdelivered, herrors⟩ -
  have hdrop : (frames.drop k).map SoftbusFrame.wire = w :: rest := by
    have hall : (frames.take k).map SoftbusFrame.wire ++ (frames.drop k).map SoftbusFrame.wire =
        (frames.take k).map SoftbusFrame.wire ++ w :: rest := by
      rw [← List.map_append, List.take_append_drop, hsplit]
    exact List.append_cancel_left hall
  obtain ⟨f, later, hlater, rfl, -⟩ := List.map_eq_cons_iff.mp hdrop
  have hlt : k < frames.length := by
    by_contra hge
    rw [List.drop_eq_nil_of_le (Nat.not_lt.mp hge)] at hlater
    cases hlater
  have hget : frames[k] = f := by
    have := List.drop_eq_getElem_cons hlt
    rw [hlater] at this
    exact (List.cons.inj this).1.symm
  have htake : frames.take (k + 1) = frames.take k ++ [f] := by
    rw [List.take_add_one, List.getElem?_eq_getElem hlt, hget]
    rfl
  have hf : f.Fits := hfits f (hget ▸ List.getElem_mem hlt)
  have hpop := hf.pop [] s.frame
  rw [List.append_nil] at hpop
  refine ⟨⟨k + 1, hlt, ?_, ?_, ?_⟩, Or.inl ?_⟩
  · rw [htake, List.map_append]
    rfl
  · rw [softbusHandle, hpop, htake, List.map_append]
    simp only [if_true, hdelivered, SoftbusFrame.owned_content]
    rfl
  · rw [softbusHandle, hpop]
    exact herrors
  · rw [softbusHandle, hpop]

/-- The pump as the thread starts it. -/
def softbusPumpNew (frame : SoftbusFrame) : SoftbusPump × Bytes :=
  ({ frame := frame, delivered := [], errors := [] }, [])

theorem packed_wires {frames : List SoftbusFrame} {wires : List Bytes}
    (hpack : List.Forall₂ (fun f w => ∃ cap, softbusFramePack f cap = some w) frames wires)
    (hext : ∀ f ∈ frames, f.extLen = 0) (hreadable : ∀ f ∈ frames, f.Readable) :
    wires = frames.map SoftbusFrame.wire ∧ ∀ f ∈ frames, f.Fits := by
  induction hpack with
  | nil => exact ⟨rfl, fun f hf => by cases hf⟩
  | cons hhead _ ih =>
      rename_i f w frames wires _
      obtain ⟨cap, hcap⟩ := hhead
      obtain ⟨hwires, hfits⟩ := ih (fun g hg => hext g (List.mem_cons_of_mem _ hg))
        (fun g hg => hreadable g (List.mem_cons_of_mem _ hg))
      have hf : f ∈ f :: frames := List.mem_cons_self
      obtain ⟨hw, hmax⟩ := softbusFramePack_eq_some hcap (hreadable f hf)
      refine ⟨by rw [List.map_cons, hw, hwires], ?_⟩
      intro g hg
      rcases List.mem_cons.mp hg with rfl | hg
      · exact ⟨hreadable g hf, by rw [hext g hf]; exact hmax⟩
      · exact hfits g hg

/-- A buffer that is not cut holds less than the next frame. -/
theorem softbusCut_short {f : SoftbusFrame} (hf : f.Fits) {frame : SoftbusFrame}
    {buf tail rest : Bytes} (hcut : softbusCut frame buf = none)
    (hstream : buf ++ tail = f.wire ++ rest) : buf.length < f.wire.length := by
  by_contra hlong
  obtain ⟨more, hmore⟩ : f.wire <+: buf :=
    List.prefix_of_prefix_length_le ⟨rest, hstream.symm⟩ ⟨tail, rfl⟩ (Nat.not_lt.mp hlong)
  rw [← hmore, (hf.isFrame frame).whole] at hcut
  cases hcut

/-- **The pump hands out every frame once and in order.** Of a stream of packed frames,
some of which has arrived in reads of any lengths, the payloads of the frames that have
arrived whole are delivered, nothing is reported, and the buffer holds what has come of
the next frame. -/
theorem SoftbusPump.delivers {frames : List SoftbusFrame} {wires : List Bytes}
    (hpack : List.Forall₂ (fun f w => ∃ cap, softbusFramePack f cap = some w) frames wires)
    (hext : ∀ f ∈ frames, f.extLen = 0) (hreadable : ∀ f ∈ frames, f.Readable)
    (frame : SoftbusFrame) {chunks : List Bytes} {tail : Bytes}
    (hstream : chunks.flatten ++ tail = wires.flatten) :
    ∃ k ≤ frames.length,
      (chunks.foldl pumpRead (softbusPumpNew frame)).1.delivered =
        (frames.take k).map SoftbusFrame.content ∧
      (chunks.foldl pumpRead (softbusPumpNew frame)).1.errors = [] ∧
      (chunks.foldl pumpRead (softbusPumpNew frame)).2 ++ tail = (wires.drop k).flatten ∧
      (∀ w ∈ (wires.drop k).head?,
        (chunks.foldl pumpRead (softbusPumpNew frame)).2.length < w.length) ∧
      (tail = [] → k = frames.length ∧
        (chunks.foldl pumpRead (softbusPumpNew frame)).2 = []) := by
  obtain ⟨rfl, hfits⟩ := packed_wires hpack hext hreadable
  have hfeed : chunks.foldl pumpRead (softbusPumpNew frame) =
      chunks.foldl (feed (softbusCut frame) softbusHandle fun _ => false)
        (softbusPumpNew frame) := by
    congr 1
    funext s chunk
    exact pumpRead_eq_feed frame s chunk
  have hframes : ∀ w ∈ frames.map SoftbusFrame.wire,
      IsFrame (softbusCut frame) softbusHandle w := by
    intro w hw
    obtain ⟨f, hf, rfl⟩ := List.mem_map.mp hw
    exact (hfits f hf).isFrame frame
  have hstart : Reads (fun _ => false) (Handed frames) (frames.map SoftbusFrame.wire)
      (chunks.flatten ++ tail) (softbusPumpNew frame) :=
    ⟨[], frames.map SoftbusFrame.wire, rfl, ⟨0, Nat.zero_le _, rfl, rfl, rfl⟩, fun _ => hstream⟩
  obtain ⟨⟨done, rest, hsplit, ⟨k, hk, rfl, hdelivered, herrors⟩, hbuf⟩, hdrained⟩ :=
    Reads.feedAll (softbusCut_nil frame) hframes (handed_handles hfits) chunks hstart
      (Or.inr (softbusCut_nil frame))
  rw [← hfeed] at hdelivered herrors hbuf hdrained
  have hrest : rest = (frames.map SoftbusFrame.wire).drop k := by
    rw [hsplit, List.drop_left' (by rw [List.length_map, List.length_take, Nat.min_eq_left hk])]
  have hcut := hdrained.resolve_left Bool.false_ne_true
  have hbuf := hbuf rfl
  rw [hrest] at hbuf
  have hnext : ∀ w ∈ ((frames.map SoftbusFrame.wire).drop k).head?,
      (chunks.foldl pumpRead (softbusPumpNew frame)).2.length < w.length := by
    intro w hw
    obtain ⟨later, hlater⟩ := List.head?_eq_some_iff.mp hw
    have hmem : w ∈ frames.map SoftbusFrame.wire :=
      List.mem_of_mem_drop (hlater ▸ List.mem_cons_self)
    obtain ⟨f, hf, rfl⟩ := List.mem_map.mp hmem
    rw [hlater, List.flatten_cons] at hbuf
    exact softbusCut_short (hfits f hf) hcut hbuf
  refine ⟨k, hk, hdelivered, herrors, hbuf, hnext, ?_⟩
  rintro rfl
  rw [List.append_nil] at hbuf
  have hall : k = frames.length := by
    by_contra hne
    have hlt : k < (frames.map SoftbusFrame.wire).length := by
      rw [List.length_map]
      omega
    have hcons := List.drop_eq_getElem_cons hlt
    have hshort := hnext _ (by rw [hcons]; rfl)
    rw [hbuf, hcons, List.flatten_cons, List.length_append] at hshort
    omega
  refine ⟨hall, ?_⟩
  rw [hbuf, hall, List.drop_eq_nil_of_le (by rw [List.length_map])]
  rfl

/-- A message and an empty one, as a session sends them. -/
def helloFrames : List SoftbusFrame :=
  [softbusSessionFrame shortFrame.sessionId 2 1 [104, 105],
    softbusSessionFrame shortFrame.sessionId 2 2 []]

/-- Three reads, the cuts in the first length field and in the second head. -/
def helloReads : List Bytes :=
  let stream := (helloFrames.map SoftbusFrame.wire).flatten
  [stream.take 6, (stream.drop 6).take 30, stream.drop 36]

theorem SoftbusPump.delivers_hello :
    (helloReads.foldl pumpRead (softbusPumpNew shortFrame)).1.delivered = [[104, 105], []] := by
  have hpack : List.Forall₂ (fun f w => ∃ cap, softbusFramePack f cap = some w) helloFrames
      (helloFrames.map SoftbusFrame.wire) :=
    .cons ⟨64, by decide⟩ (.cons ⟨64, by decide⟩ .nil)
  have hstream : helloReads.flatten ++ [] = (helloFrames.map SoftbusFrame.wire).flatten := by
    decide
  obtain ⟨k, -, hdelivered, -, -, -, hend⟩ :=
    SoftbusPump.delivers hpack (by decide) (fun f hf hpos => by revert f; decide) shortFrame hstream
  rw [hdelivered, (hend rfl).1]
  rfl

end HwPhoneLink.Softbus
