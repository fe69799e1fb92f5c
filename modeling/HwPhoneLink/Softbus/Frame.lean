import HwPhoneLink.Lib.Framing

/-!
# dsoftbus frames

`softbus_frame.c`: packing and unpacking of one frame, and the stream buffer that
the read pump of a session fills. A frame that is packed is read back if payload
and extension fit the payload limit together (`softbusFramePack_roundTrips_iff`):
`softbus_frame_pack` checks the payload alone.
-/

namespace HwPhoneLink.Softbus

open BigEndian

def softbusFrameMagic0 : UInt8 := 0x53
def softbusFrameMagic1 : UInt8 := 0x42
def softbusFrameVersion : UInt8 := 1
def softbusFrameHeaderSize : ℕ := 8
def softbusFrameSessionIdSize : ℕ := 8
def softbusFrameFixedBodySize : ℕ := softbusFrameSessionIdSize + 4 + 1 + 1 + 2
def softbusFrameMinSize : ℕ := softbusFrameHeaderSize + softbusFrameFixedBodySize
def softbusFrameFlagFin : UInt8 := 1
def softbusFrameMaxPayload : ℕ := 65507

abbrev SoftbusSessionId : Type := { id : Bytes // id.length = softbusFrameSessionIdSize }

/-- `payload` is the memory behind the pointer, `none` for `NULL`. -/
structure SoftbusFrame where
  sessionId : SoftbusSessionId
  seq : UInt32
  type : UInt8
  flags : UInt8
  pktFlags : UInt8
  extLen : UInt16
  payload : Option Bytes
  payloadLen : ℕ
  payload_length : ∀ b ∈ payload, b.length = payloadLen
deriving DecidableEq

/-! ## Pack -/

/-- The first 24 bytes. -/
def softbusFrameHead (frame : SoftbusFrame) (total : UInt32) : Bytes :=
  [softbusFrameMagic0, softbusFrameMagic1, softbusFrameVersion, frame.flags] ++ putU32 total ++
    frame.sessionId.val ++ putU32 frame.seq ++ [frame.type, frame.pktFlags] ++ putU16 frame.extLen

/-- `none` stands for the result 0. -/
def softbusFramePack (frame : SoftbusFrame) (outCap : ℕ) : Option Bytes :=
  if frame.payloadLen > softbusFrameMaxPayload then none
  else
    let total := softbusFrameMinSize + frame.payloadLen + frame.extLen.toNat
    if outCap < total then none
    else
      some (softbusFrameHead frame (UInt32.ofNat total) ++
        (if frame.payloadLen > 0 then frame.payload.getD [] else []) ++
        List.replicate frame.extLen.toNat 0)

/-! ## Unpack -/

/-- The results `n`, -1 and -2. -/
inductive SoftbusUnpack : Type where
  | consumed (n : ℕ)
  | invalid
  | incomplete
deriving DecidableEq, Repr

theorem sessionIdField_length {inp : Bytes} (h : softbusFrameMinSize ≤ inp.length) :
    (field softbusFrameSessionIdSize 8 inp).length = softbusFrameSessionIdSize := by
  have h' : 24 ≤ inp.length := h
  simp only [field, List.length_take, List.length_drop, softbusFrameSessionIdSize]
  omega

theorem noPayload_length (b : Bytes) (hb : b ∈ (none : Option Bytes)) : b.length = 0 := by
  cases hb

/-- The fields up to the extension length; `memset` clears the others. -/
def softbusFrameFields (inp : Bytes) (h : softbusFrameMinSize ≤ inp.length) : SoftbusFrame where
  sessionId := ⟨field softbusFrameSessionIdSize 8 inp, sessionIdField_length h⟩
  seq := u32At inp 16
  type := u8At inp 20
  flags := u8At inp 3
  pktFlags := u8At inp 21
  extLen := u16At inp 22
  payload := none
  payloadLen := 0
  payload_length := noPayload_length

/-- The frame keeps what it held where the result is negative, except for an
extension that is too long. -/
def softbusFrameUnpack (inp : Bytes) (frame : SoftbusFrame) : SoftbusUnpack × SoftbusFrame :=
  if inp.length < softbusFrameHeaderSize then (.incomplete, frame)
  else if u8At inp 0 ≠ softbusFrameMagic0 ∨ u8At inp 1 ≠ softbusFrameMagic1 then (.invalid, frame)
  else if u8At inp 2 ≠ softbusFrameVersion then (.invalid, frame)
  else
    let total := (u32At inp 4).toNat
    if htotal : total < softbusFrameMinSize ∨
        total > softbusFrameMaxPayload + softbusFrameMinSize then (.invalid, frame)
    else if hlen : inp.length < total then (.incomplete, frame)
    else
      let fields := softbusFrameFields inp (by omega)
      if fields.extLen > UInt16.ofNat (total - softbusFrameMinSize) then (.invalid, fields)
      else
        let payloadLen := total - softbusFrameMinSize - fields.extLen.toNat
        (.consumed total,
          { fields with
            payload := some ((inp.drop softbusFrameMinSize).take payloadLen)
            payloadLen := payloadLen
            payload_length := fun b hb => by
              rw [Option.mem_some_iff] at hb
              rw [← hb, List.length_take, List.length_drop]
              omega })

/-- The result does not depend on what the frame held. -/
theorem softbusFrameUnpack_result (inp : Bytes) (frame frame' : SoftbusFrame) :
    (softbusFrameUnpack inp frame).1 = (softbusFrameUnpack inp frame').1 := by
  unfold softbusFrameUnpack
  split
  · rfl
  split
  · rfl
  split
  · rfl
  simp only
  split
  · rfl
  split
  · rfl
  split <;> rfl

/-- More bytes are waited for with the frame as it was. -/
theorem softbusFrameUnpack_incomplete {inp : Bytes} {frame : SoftbusFrame}
    (h : (softbusFrameUnpack inp frame).1 = .incomplete) :
    softbusFrameUnpack inp frame = (.incomplete, frame) := by
  unfold softbusFrameUnpack at h ⊢
  split
  · rfl
  rename_i hhead
  rw [if_neg hhead] at h
  split
  · rename_i hmagic
    rw [if_pos hmagic] at h
    cases h
  rename_i hmagic
  rw [if_neg hmagic] at h
  split
  · rename_i hversion
    rw [if_pos hversion] at h
    cases h
  rename_i hversion
  rw [if_neg hversion] at h
  simp only at h ⊢
  split
  · rename_i htotal
    rw [dif_pos htotal] at h
    cases h
  rename_i htotal
  rw [dif_neg htotal] at h
  split
  · rfl
  rename_i hlen
  rw [dif_neg hlen] at h
  split at h <;> cases h

/-! ## Reading a packed frame back -/

/-- What `softbus_session_send` makes sure of: no `NULL` with a length. -/
def SoftbusFrame.Readable (f : SoftbusFrame) : Prop := 0 < f.payloadLen → f.payload ≠ none

/-- The fields and the payload bytes of two frames are the same. -/
structure SameFrame (f g : SoftbusFrame) : Prop where
  sessionId : g.sessionId = f.sessionId
  seq : g.seq = f.seq
  flags : g.flags = f.flags
  type : g.type = f.type
  pktFlags : g.pktFlags = f.pktFlags
  extLen : g.extLen = f.extLen
  payloadLen : g.payloadLen = f.payloadLen
  payload : g.payload.getD [] = f.payload.getD []

/-- The bytes of the payload. -/
def SoftbusFrame.content (f : SoftbusFrame) : Bytes := f.payload.getD []

theorem SoftbusFrame.content_length {f : SoftbusFrame} (h : f.Readable) :
    f.content.length = f.payloadLen := by
  unfold SoftbusFrame.content
  rcases hp : f.payload with _ | b
  · by_contra hne
    exact h (Nat.pos_of_ne_zero fun h0 => hne (by simp [h0])) hp
  · exact f.payload_length b hp

/-- The wire form of a frame. -/
def SoftbusFrame.wire (f : SoftbusFrame) : Bytes :=
  softbusFrameHead f (UInt32.ofNat (softbusFrameMinSize + f.payloadLen + f.extLen.toNat)) ++
    f.content ++ List.replicate f.extLen.toNat 0

theorem softbusFramePack_wire {f : SoftbusFrame} (hr : f.Readable)
    (hmax : f.payloadLen ≤ softbusFrameMaxPayload) {cap : ℕ}
    (hcap : softbusFrameMinSize + f.payloadLen + f.extLen.toNat ≤ cap) :
    softbusFramePack f cap = some f.wire := by
  rw [softbusFramePack, if_neg (Nat.not_lt.mpr hmax)]
  simp only
  rw [if_neg (Nat.not_lt.mpr hcap), SoftbusFrame.wire]
  split
  · rfl
  · have hnil : f.content = [] := by
      rw [← List.length_eq_zero_iff, SoftbusFrame.content_length hr]
      omega
    rw [hnil]

theorem softbusFramePack_eq_some {f : SoftbusFrame} {cap : ℕ} {bytes : Bytes}
    (h : softbusFramePack f cap = some bytes) (hr : f.Readable) :
    bytes = f.wire ∧ f.payloadLen ≤ softbusFrameMaxPayload := by
  have hmax : f.payloadLen ≤ softbusFrameMaxPayload := by
    by_contra hlong
    rw [softbusFramePack, if_pos (Nat.lt_of_not_le hlong)] at h
    cases h
  have hcap : softbusFrameMinSize + f.payloadLen + f.extLen.toNat ≤ cap := by
    by_contra hsmall
    rw [softbusFramePack, if_neg (Nat.not_lt.mpr hmax)] at h
    simp only at h
    rw [if_pos (Nat.lt_of_not_le hsmall)] at h
    cases h
  rw [softbusFramePack_wire hr hmax hcap] at h
  exact ⟨(Option.some.inj h).symm, hmax⟩

@[simp] theorem softbusFrameHead_length (f : SoftbusFrame) (total : UInt32) :
    (softbusFrameHead f total).length = 24 := by
  have hid : f.sessionId.val.length = 8 := f.sessionId.property
  simp [softbusFrameHead, hid]

/-- The field readers on a head. -/
theorem softbusFrameHead_read (f : SoftbusFrame) (total : UInt32) (more : Bytes) :
    u8At (softbusFrameHead f total ++ more) 0 = softbusFrameMagic0 ∧
    u8At (softbusFrameHead f total ++ more) 1 = softbusFrameMagic1 ∧
    u8At (softbusFrameHead f total ++ more) 2 = softbusFrameVersion ∧
    u8At (softbusFrameHead f total ++ more) 3 = f.flags ∧
    u32At (softbusFrameHead f total ++ more) 4 = total := by
  unfold softbusFrameHead
  simp only [List.append_assoc]
  refine ⟨?_, ?_, ?_, ?_, ?_⟩
  · exact u8At_append [] _ _ rfl
  · exact u8At_append [softbusFrameMagic0] _ _ rfl
  · exact u8At_append [softbusFrameMagic0, softbusFrameMagic1] _ _ rfl
  · exact u8At_append [softbusFrameMagic0, softbusFrameMagic1, softbusFrameVersion] _ _ rfl
  · exact u32At_append [softbusFrameMagic0, softbusFrameMagic1, softbusFrameVersion, f.flags] _ _ rfl

/-- The frame read from a head, without its payload. -/
theorem softbusFrameFields_head (f : SoftbusFrame) (total : UInt32) (more : Bytes)
    (h : softbusFrameMinSize ≤ (softbusFrameHead f total ++ more).length) :
    softbusFrameFields (softbusFrameHead f total ++ more) h =
      { f with payload := none, payloadLen := 0, payload_length := fun _ hb => by cases hb } := by
  have hid : f.sessionId.val.length = 8 := f.sessionId.property
  have hflags := (softbusFrameHead_read f total more).2.2.2.1
  have hsession : field softbusFrameSessionIdSize 8 (softbusFrameHead f total ++ more) =
      f.sessionId.val := by
    unfold softbusFrameHead
    rw [List.append_assoc, List.append_assoc, List.append_assoc, List.append_assoc]
    exact field_append _ _ _ (by simp) f.sessionId.property
  have hseq : u32At (softbusFrameHead f total ++ more) 16 = f.seq := by
    unfold softbusFrameHead
    rw [List.append_assoc, List.append_assoc, List.append_assoc]
    exact u32At_append _ _ _ (by simp [hid])
  have htype : u8At (softbusFrameHead f total ++ more) 20 = f.type := by
    unfold softbusFrameHead
    rw [List.append_assoc, List.append_assoc]
    exact u8At_append _ _ _ (by simp [hid])
  have hpkt : u8At (softbusFrameHead f total ++ more) 21 = f.pktFlags := by
    have hsplit : softbusFrameHead f total ++ more = ([softbusFrameMagic0, softbusFrameMagic1,
        softbusFrameVersion, f.flags] ++ putU32 total ++ f.sessionId.val ++ putU32 f.seq ++
        [f.type]) ++ (f.pktFlags :: (putU16 f.extLen ++ more)) := by
      simp [softbusFrameHead]
    rw [hsplit]
    exact u8At_append _ _ _ (by simp [hid])
  have hext : u16At (softbusFrameHead f total ++ more) 22 = f.extLen := by
    unfold softbusFrameHead
    rw [List.append_assoc]
    exact u16At_append _ _ _ (by simp [hid])
  simp only [softbusFrameFields, hsession, hseq, htype, hflags, hpkt, hext]

/-- The frame as the peer reads it. -/
def SoftbusFrame.received (f : SoftbusFrame) : SoftbusFrame :=
  { f with payload := some f.content
           payloadLen := f.content.length
           payload_length := fun b hb => by rw [Option.mem_some_iff.mp hb] }

theorem SoftbusFrame.received_same {f : SoftbusFrame} (h : f.Readable) :
    SameFrame f f.received :=
  ⟨rfl, rfl, rfl, rfl, rfl, rfl, SoftbusFrame.content_length h, rfl⟩

theorem SoftbusFrame.wire_length {f : SoftbusFrame} (h : f.Readable) :
    f.wire.length = softbusFrameMinSize + f.payloadLen + f.extLen.toNat := by
  simp only [SoftbusFrame.wire, List.length_append, softbusFrameHead_length,
    SoftbusFrame.content_length h, List.length_replicate]
  rfl

/-- The length field holds the length. -/
theorem SoftbusFrame.wire_total {f : SoftbusFrame} (hmax : f.payloadLen ≤ softbusFrameMaxPayload) :
    (UInt32.ofNat (softbusFrameMinSize + f.payloadLen + f.extLen.toNat)).toNat =
      softbusFrameMinSize + f.payloadLen + f.extLen.toNat := by
  have hext := f.extLen.toNat_lt
  rw [UInt32.toNat_ofNat', Nat.mod_eq_of_lt]
  simp only [softbusFrameMinSize, softbusFrameHeaderSize, softbusFrameFixedBodySize,
    softbusFrameSessionIdSize]
  unfold softbusFrameMaxPayload at hmax
  omega

/-- **A packed frame is read back**, whatever follows it. -/
theorem softbusFrameUnpack_wire {f : SoftbusFrame} (hr : f.Readable)
    (hfit : f.payloadLen + f.extLen.toNat ≤ softbusFrameMaxPayload) (trailing : Bytes)
    (frame : SoftbusFrame) :
    softbusFrameUnpack (f.wire ++ trailing) frame = (.consumed f.wire.length, f.received) := by
  have htotal := SoftbusFrame.wire_total (f := f) (by omega)
  have hlen := SoftbusFrame.wire_length hr
  have hcontent := SoftbusFrame.content_length hr
  have hmax : softbusFrameMaxPayload = 65507 := rfl
  have hmin : softbusFrameMinSize = 24 := rfl
  set total := UInt32.ofNat (softbusFrameMinSize + f.payloadLen + f.extLen.toNat) with htotalDef
  set body := f.content ++ List.replicate f.extLen.toNat 0 ++ trailing with hbody
  have hsplit : f.wire ++ trailing = softbusFrameHead f total ++ body := by
    simp [SoftbusFrame.wire, hbody, htotalDef]
  have hlong : f.wire.length ≤ (softbusFrameHead f total ++ body).length := by
    rw [← hsplit, List.length_append]
    omega
  obtain ⟨h0, h1, h2, -, h4⟩ := softbusFrameHead_read f total body
  rw [hsplit, softbusFrameUnpack, if_neg (by rw [softbusFrameHeaderSize]; omega),
    if_neg (by rw [h0, h1]; simp), if_neg (by rw [h2]; simp)]
  simp only [h4, htotal]
  rw [dif_neg (by omega), dif_neg (by omega)]
  have hext : ¬ f.extLen > UInt16.ofNat (softbusFrameMinSize + f.payloadLen + f.extLen.toNat -
      softbusFrameMinSize) := by
    rw [gt_iff_lt, UInt16.lt_iff_toNat_lt, UInt16.toNat_ofNat']
    omega
  have hpayload : (softbusFrameHead f total ++ body).drop softbusFrameMinSize = body :=
    List.drop_left' (softbusFrameHead_length f total)
  have htake : body.take f.payloadLen = f.content := by
    rw [hbody, List.append_assoc]
    exact List.take_left' hcontent
  have hrest : softbusFrameMinSize + f.payloadLen + f.extLen.toNat - softbusFrameMinSize -
      f.extLen.toNat = f.payloadLen := by omega
  simp only [softbusFrameFields_head]
  rw [if_neg hext]
  simp only [hpayload, hrest, htake, hlen, SoftbusFrame.received, hcontent]

/-- **A strict prefix is incomplete.** -/
theorem softbusFrameUnpack_cutOff {f : SoftbusFrame} (hr : f.Readable)
    (hfit : f.payloadLen + f.extLen.toNat ≤ softbusFrameMaxPayload) {p q : Bytes}
    (hsplit : f.wire = p ++ q) (hq : q ≠ []) (frame : SoftbusFrame) :
    softbusFrameUnpack p frame = (.incomplete, frame) := by
  have htotal := SoftbusFrame.wire_total (f := f) (by omega)
  have hlen := SoftbusFrame.wire_length hr
  have hmax : softbusFrameMaxPayload = 65507 := rfl
  have hmin : softbusFrameMinSize = 24 := rfl
  have hshort : p.length < f.wire.length := by
    rw [hsplit, List.length_append]
    have := List.length_pos_iff.mpr hq
    omega
  unfold softbusFrameUnpack
  split
  · rfl
  rename_i hhead
  rw [softbusFrameHeaderSize] at hhead
  obtain ⟨h0, h1, h2, -, h4⟩ := softbusFrameHead_read f (UInt32.ofNat
    (softbusFrameMinSize + f.payloadLen + f.extLen.toNat))
    (f.content ++ List.replicate f.extLen.toNat 0)
  rw [← List.append_assoc, ← SoftbusFrame.wire, hsplit] at h0 h1 h2 h4
  rw [u8At_append_left (by omega)] at h0 h1 h2
  rw [u32At_append_left (by omega)] at h4
  rw [if_neg (by rw [h0, h1]; simp), if_neg (by rw [h2]; simp)]
  simp only [h4, htotal]
  rw [dif_neg (by omega), dif_pos (by omega)]

/-- A frame over the limit is refused, though `softbus_frame_pack` makes it. -/
theorem softbusFrameUnpack_long {f : SoftbusFrame} (hr : f.Readable)
    (hmax : f.payloadLen ≤ softbusFrameMaxPayload)
    (hlong : softbusFrameMaxPayload < f.payloadLen + f.extLen.toNat) (trailing : Bytes)
    (frame : SoftbusFrame) :
    softbusFrameUnpack (f.wire ++ trailing) frame = (.invalid, frame) := by
  have htotal := SoftbusFrame.wire_total hmax
  have hlen := SoftbusFrame.wire_length hr
  have hmin : softbusFrameMinSize = 24 := rfl
  obtain ⟨h0, h1, h2, -, h4⟩ := softbusFrameHead_read f (UInt32.ofNat
    (softbusFrameMinSize + f.payloadLen + f.extLen.toNat))
    (f.content ++ List.replicate f.extLen.toNat 0 ++ trailing)
  rw [← List.append_assoc, ← List.append_assoc, ← SoftbusFrame.wire] at h0 h1 h2 h4
  rw [softbusFrameUnpack, if_neg (by rw [softbusFrameHeaderSize, List.length_append]; omega),
    if_neg (by rw [h0, h1]; simp), if_neg (by rw [h2]; simp)]
  simp only [h4, htotal]
  rw [dif_pos (by omega)]

/-- The bytes are read back as the frame, with anything behind them, and no strict
prefix of them is read at all. -/
def RoundTrips (f : SoftbusFrame) (bytes : Bytes) : Prop :=
  (∃ g, SameFrame f g ∧ ∀ trailing frame,
    softbusFrameUnpack (bytes ++ trailing) frame = (.consumed bytes.length, g)) ∧
  ∀ p q frame, bytes = p ++ q → q ≠ [] → (softbusFrameUnpack p frame).1 = .incomplete

/-- **Round trip.** What `softbus_frame_pack` writes is read back if and only if
payload and extension together stay within the payload limit. -/
theorem softbusFramePack_roundTrips_iff {f : SoftbusFrame} {cap : ℕ} {bytes : Bytes}
    (h : softbusFramePack f cap = some bytes) (hr : f.Readable) :
    RoundTrips f bytes ↔ f.payloadLen + f.extLen.toNat ≤ softbusFrameMaxPayload := by
  obtain ⟨rfl, hmax⟩ := softbusFramePack_eq_some h hr
  constructor
  · rintro ⟨⟨g, -, hread⟩, -⟩
    by_contra hlong
    have hinvalid := softbusFrameUnpack_long hr hmax (by omega) [] f
    rw [hread [] f] at hinvalid
    cases hinvalid
  · intro hfit
    constructor
    · exact ⟨f.received, SoftbusFrame.received_same hr,
        fun trailing frame => softbusFrameUnpack_wire hr hfit trailing frame⟩
    · intro p q frame hsplit hq
      rw [softbusFrameUnpack_cutOff hr hfit hsplit hq]

/-- A frame of two bytes, and a frame of one byte with the longest extension that
does not fit beside it. -/
def shortFrame : SoftbusFrame where
  sessionId := ⟨[1, 2, 3, 4, 5, 6, 7, 8], rfl⟩
  seq := 7
  type := 2
  flags := softbusFrameFlagFin
  pktFlags := 0
  extLen := 3
  payload := some [104, 105]
  payloadLen := 2
  payload_length := fun b hb => by rw [← Option.mem_some_iff.mp hb]; rfl

def longFrame : SoftbusFrame :=
  { shortFrame with
    extLen := 65507
    payload := some [104]
    payloadLen := 1
    payload_length := fun b hb => by rw [← Option.mem_some_iff.mp hb]; rfl }

theorem shortFrame_packed : softbusFramePack shortFrame 29 = some shortFrame.wire := by decide

theorem shortFrame_roundTrips : RoundTrips shortFrame shortFrame.wire := by
  have hr : shortFrame.Readable := fun _ => by decide
  exact (softbusFramePack_roundTrips_iff shortFrame_packed hr).mpr (by decide)

/-- `softbus_frame_pack` writes a frame that `softbus_frame_unpack` calls corrupt. -/
theorem longFrame_not_roundTrips :
    ∃ bytes, softbusFramePack longFrame 131072 = some bytes ∧ longFrame.Readable ∧
      ¬ RoundTrips longFrame bytes := by
  have hr : longFrame.Readable := fun _ => by decide
  have hmax : longFrame.payloadLen ≤ softbusFrameMaxPayload := by decide
  refine ⟨longFrame.wire, softbusFramePack_wire hr hmax (by decide), hr, ?_⟩
  rintro ⟨⟨g, -, hread⟩, -⟩
  have hinvalid := softbusFrameUnpack_long hr hmax (by decide) [] longFrame
  rw [hread [] longFrame] at hinvalid
  cases hinvalid

/-! ## Stream buffer -/

/-- What `softbus_frame_buf_pop` leaves: its result, the error it sets, the buffer
and the frame. -/
structure SoftbusPop where
  popped : Bool
  error : Option String
  buf : Bytes
  frame : SoftbusFrame

def softbusFrameBufAppend (buf data : Bytes) : Bytes := buf ++ data

/-- The frame with a copy of its payload, `NULL` for an empty one. -/
def SoftbusFrame.owned (f : SoftbusFrame) : SoftbusFrame :=
  if f.payloadLen > 0 then f
  else { f with payload := none, payload_length := fun _ hb => by cases hb }

/-- Every branch of the loop in the source returns. -/
def softbusFrameBufPop (buf : Bytes) (frame : SoftbusFrame) : SoftbusPop :=
  if buf.length > 0 then
    match softbusFrameUnpack buf frame with
    | (.consumed n, frame) =>
        { popped := true, error := none, buf := buf.drop n, frame := frame.owned }
    | (.invalid, frame) =>
        { popped := false, error := some "corrupt frame (bad magic/version/length)"
          buf := [], frame := frame }
    | (.incomplete, frame) => { popped := false, error := none, buf := buf, frame := frame }
  else { popped := false, error := none, buf := buf, frame := frame }

/-! ## A pop that fails -/

/-- The frame is left untouched; the buffer is too, or it is reset with an error. -/
structure SoftbusPop.FailsCleanly (p : SoftbusPop) (buf : Bytes) (frame : SoftbusFrame) :
    Prop where
  frame_eq : p.popped = false → p.frame = frame
  buf_eq : p.popped = false → p.error = none → p.buf = buf
  reset : p.popped = false → p.error ≠ none → p.buf = []

/-- A whole frame with an extension longer than its body, and with other fields than the
caller's frame. -/
def LateExtension (buf : Bytes) (frame : SoftbusFrame) : Prop :=
  ∃ h : softbusFrameMinSize ≤ buf.length,
    (u8At buf 0 = softbusFrameMagic0 ∧ u8At buf 1 = softbusFrameMagic1) ∧
    u8At buf 2 = softbusFrameVersion ∧
    softbusFrameMinSize ≤ (u32At buf 4).toNat ∧
    (u32At buf 4).toNat ≤ softbusFrameMaxPayload + softbusFrameMinSize ∧
    (u32At buf 4).toNat ≤ buf.length ∧
    UInt16.ofNat ((u32At buf 4).toNat - softbusFrameMinSize) < u16At buf 22 ∧
    softbusFrameFields buf h ≠ frame

/-- **The ways through `softbus_frame_unpack`**, by what becomes of the frame. -/
theorem softbusFrameUnpack_cases (inp : Bytes) (frame : SoftbusFrame) :
    (LateExtension inp frame ∧
      ∃ fields, fields ≠ frame ∧ softbusFrameUnpack inp frame = (.invalid, fields)) ∨
    (¬ LateExtension inp frame ∧
      ((∃ n g, softbusFrameUnpack inp frame = (.consumed n, g)) ∨
        softbusFrameUnpack inp frame = (.invalid, frame) ∨
        softbusFrameUnpack inp frame = (.incomplete, frame))) := by
  have hmin : softbusFrameMinSize = 24 := rfl
  unfold softbusFrameUnpack
  split
  · rename_i hhead
    rw [softbusFrameHeaderSize] at hhead
    exact .inr ⟨fun ⟨hlong, _⟩ => by omega, .inr (.inr rfl)⟩
  split
  · rename_i hmagic
    refine .inr ⟨fun ⟨_, h, _⟩ => ?_, .inr (.inl rfl)⟩
    rcases hmagic with hmagic | hmagic
    · exact hmagic h.1
    · exact hmagic h.2
  rename_i hmagic
  rw [not_or, Decidable.not_not, Decidable.not_not] at hmagic
  split
  · rename_i hversion
    exact .inr ⟨fun ⟨_, _, h, _⟩ => hversion h, .inr (.inl rfl)⟩
  rename_i hversion
  rw [Decidable.not_not] at hversion
  simp only
  split
  · rename_i htotal
    exact .inr ⟨fun ⟨_, _, _, hlow, hhigh, _⟩ => by omega, .inr (.inl rfl)⟩
  rename_i htotal
  rw [not_or, Nat.not_lt, gt_iff_lt, Nat.not_lt] at htotal
  split
  · rename_i hshort
    exact .inr ⟨fun ⟨_, _, _, _, _, hlen, _⟩ => by omega, .inr (.inr rfl)⟩
  rename_i hlen
  have hlong : softbusFrameMinSize ≤ inp.length := by omega
  split
  · rename_i hext
    by_cases hsame : softbusFrameFields inp hlong = frame
    · exact .inr ⟨fun ⟨_, _, _, _, _, _, _, hne⟩ => hne hsame, .inr (.inl (by rw [hsame]))⟩
    · exact .inl ⟨⟨hlong, hmagic, hversion, htotal.1, htotal.2, Nat.not_lt.mp hlen, hext, hsame⟩,
        _, hsame, rfl⟩
  · rename_i hext
    exact .inr ⟨fun ⟨_, _, _, _, _, _, h, _⟩ => hext h, .inl ⟨_, _, rfl⟩⟩

/-- **A pop that fails leaves the frame untouched** unless the extension is too long. -/
theorem softbusFrameBufPop_cleanly_iff (buf : Bytes) (frame : SoftbusFrame) :
    (softbusFrameBufPop buf frame).FailsCleanly buf frame ↔ ¬ LateExtension buf frame := by
  unfold softbusFrameBufPop
  split
  · rcases softbusFrameUnpack_cases buf frame with ⟨hlate, fields, hne, heq⟩ | ⟨hnot, hcases⟩
    · rw [heq]
      exact iff_of_false (fun h => hne (h.frame_eq rfl)) fun hnot => hnot hlate
    · refine iff_of_true ?_ hnot
      rcases hcases with ⟨n, g, heq⟩ | heq | heq
      · rw [heq]
        refine ⟨?_, ?_, ?_⟩ <;> rintro ⟨⟩
      · rw [heq]
        exact ⟨fun _ => rfl, fun _ h => absurd h (Option.some_ne_none _), fun _ _ => rfl⟩
      · rw [heq]
        exact ⟨fun _ => rfl, fun _ _ => rfl, fun _ h => absurd rfl h⟩
  · rename_i hempty
    refine iff_of_true ⟨fun _ => rfl, fun _ _ => rfl, fun _ h => absurd rfl h⟩ ?_
    rintro ⟨hlong, -⟩
    have hmin : softbusFrameMinSize = 24 := rfl
    omega

/-- A header alone, which counts on one byte of extension. -/
theorem softbusFrameBufPop_not_cleanly :
    let buf : Bytes := [83, 66, 1, 1, 0, 0, 0, 24, 1, 2, 3, 4, 5, 6, 7, 8, 0, 0, 0, 9, 3, 0, 0, 1]
    (softbusFrameBufPop buf shortFrame).popped = false ∧
      (softbusFrameBufPop buf shortFrame).frame ≠ shortFrame := by
  decide

end HwPhoneLink.Softbus
