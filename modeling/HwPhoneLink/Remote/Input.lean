import HwPhoneLink.Lib.BigEndian

/-!
# RemoteCtrl input packets

`remote_input_build` of `remote_input.c`. A `gdouble` is its 64 bits; the
conversion to `gint32` is the instruction `cvttsd2si`, which truncates and gives
the least integer for what does not fit.
-/

namespace HwPhoneLink.Remote

open BigEndian

def remoteInputHdrLen : ℕ := 10
def remoteInputMaxTotal : ℕ := 512

inductive RemoteInputType : Type where
  | touch | key | zoom | scroll | mouse | input7 | wheel | vkey | message
deriving DecidableEq, Repr

/-- Four and five are dead. -/
def RemoteInputType.ofCode (code : UInt32) : Option RemoteInputType :=
  match code.toNat with
  | 0 => some .touch
  | 1 => some .key
  | 2 => some .zoom
  | 3 => some .scroll
  | 6 => some .mouse
  | 7 => some .input7
  | 8 => some .wheel
  | 9 => some .vkey
  | 10 => some .message
  | _ => none

/-! ## Doubles -/

/-- `(gint32)v` -/
def truncToInt32 (v : UInt64) : ℤ :=
  let exponent := ((v >>> 52) &&& 0x7ff).toNat
  let mantissa : ℕ := (v &&& 0xfffffffffffff).toNat + 2 ^ 52
  -- below one, a number is less than 2 ^ 52 units of its last place
  let magnitude : ℕ := if exponent = 0 then 0 else mantissa / 2 ^ (1075 - exponent)
  let value : ℤ := if v >>> 63 = 0 then magnitude else -magnitude
  if exponent > 1075 ∨ value < -2 ^ 31 ∨ value > 2 ^ 31 - 1 then -2 ^ 31 else value

def d16 (v : UInt64) : UInt16 := UInt16.ofInt (truncToInt32 v)

/-! ## Events -/

/-- The arrays hold four elements; the strings are NULL or hold what their
length says. -/
structure RemoteInputEvent where
  type : UInt32
  subtype : UInt32
  flags1 : UInt8
  flags2 : UInt8
  -- touch
  touchCnt : UInt8
  touchIds : Fin 4 → UInt8
  touchX : Fin 4 → UInt64
  touchY : Fin 4 → UInt64
  -- key
  keyF16a : UInt16
  keyF16b : UInt16
  keyF32 : UInt32
  -- zoom
  zoomX : UInt64
  zoomY : UInt64
  zoomPressure : UInt64
  -- scroll
  scrollAxis : UInt8
  scrollDelta : UInt8
  -- mouse
  mouseButton : UInt8
  mouseX : UInt64
  mouseY : UInt64
  mouseZ : UInt64
  mouseW : UInt64
  -- input7
  content : Option Bytes
  contentLen : UInt16
  focusF1 : UInt8
  focusF2 : UInt64
  focusF3 : UInt64
  focusF4 : UInt64
  focusF5 : UInt64
  -- wheel
  wheelDir : UInt8
  wheelF1 : UInt16
  wheelX : UInt64
  wheelY : UInt64
  -- vkey
  vkeyX : UInt64
  vkeyY : UInt64
  -- message
  msgLen : UInt32
  msgPayload : Option Bytes

/-- The length field of the builders with a variable length. -/
def lenfield (l : ℕ) : UInt16 := UInt16.ofNat ((l &&& 1) + (l - 3))

/-- The check of the event, and the length of the body. -/
def bodyLen (ev : RemoteInputEvent) : Option ℕ :=
  let subtype := ev.subtype.toNat
  match RemoteInputType.ofCode ev.type with
  | some .touch =>
      if ev.touchCnt < 1 ∨ ev.touchCnt > 4 ∨ subtype > 2 then none
      else some (9 * ev.touchCnt.toNat + 4)
  | some .key => if subtype > 1 then none else some 12
  | some .zoom => some 9
  | some .scroll => if subtype > 1 then none else some 5
  | some .mouse => if subtype > 2 then none else some 12
  | some .input7 =>
      if subtype = 0 then
        if ev.contentLen > 472 then none
        else if ev.contentLen > 0 ∧ ev.content = none then none
        else some (ev.contentLen.toNat + 5)
      else if subtype = 1 then some 12
      else none
  | some .wheel => if subtype > 1 then none else some 10
  | some .vkey => if subtype > 3 then none else some 7
  | some .message =>
      if subtype > 1 then none
      else if ev.msgLen < 2 ∨ ev.msgLen > 472 then none
      else if ev.msgPayload = none then none
      else some (ev.msgLen.toNat + 5)
  | none => none

/-- The points of a touch, five bytes each. -/
def touchPoints (ev : RemoteInputEvent) : Bytes :=
  ((List.finRange 4).take ev.touchCnt.toNat).flatMap fun i =>
    ev.touchIds i :: (putU16 (d16 (ev.touchX i)) ++ putU16 (d16 (ev.touchY i)))

def touchAction : Bytes := [0x0e, 0x0f, 0x02]
def mouseAction : Bytes := [0x0e, 0x0f, 0x10]

/-- What is written into a body of `l` zero bytes, from its start. -/
def bodyFields (ev : RemoteInputEvent) (l : ℕ) : Bytes :=
  let subtype := ev.subtype.toUInt8
  match RemoteInputType.ofCode ev.type with
  | some .touch =>
      [touchAction.getD ev.subtype.toNat 0] ++ putU16 (lenfield l) ++ [ev.touchCnt] ++
        touchPoints ev
  | some .key =>
      [3 + subtype] ++ putU16 9 ++ [0] ++ putU16 ev.keyF16a ++ putU16 ev.keyF16b ++
        putU32 ev.keyF32
  | some .zoom =>
      [(0x05 : UInt8)] ++ putU16 7 ++ putU16 (d16 ev.zoomX) ++ putU16 (d16 ev.zoomY) ++
        [ev.zoomPressure.toUInt8, (ev.zoomPressure >>> 8).toUInt8]
  | some .scroll => [0x06 + subtype] ++ putU16 3 ++ [ev.scrollAxis, ev.scrollDelta]
  | some .mouse =>
      [mouseAction.getD ev.subtype.toNat 0] ++ putU16 9 ++ [ev.mouseButton] ++
        putU16 (d16 ev.mouseX) ++ putU16 (d16 ev.mouseY) ++ putU16 (d16 ev.mouseZ) ++
        putU16 (d16 ev.mouseW)
  | some .input7 =>
      if ev.subtype = 0 then
        [(0x00 : UInt8)] ++ putU16 (lenfield l) ++ putU16 ev.contentLen ++
          (ev.content.getD []).take ev.contentLen.toNat
      else
        [(0x01 : UInt8)] ++ putU16 9 ++ [ev.focusF1] ++ putU16 (d16 ev.focusF2) ++
          putU16 (d16 ev.focusF3) ++ putU16 (d16 ev.focusF4) ++ putU16 (d16 ev.focusF5)
  | some .wheel =>
      [0x0c + subtype] ++ putU16 7 ++
        [((ev.wheelDir &&& 0x06) <<< 1) ||| (ev.wheelDir &&& 0x01)] ++ putU16 ev.wheelF1 ++
        putU16 (d16 ev.wheelX) ++ putU16 (d16 ev.wheelY)
  | some .vkey => [2 + subtype] ++ putU16 5 ++ putU16 (d16 ev.vkeyX) ++ putU16 (d16 ev.vkeyY)
  | some .message =>
      [6 + subtype] ++ putU16 (lenfield l) ++ putU16 ev.msgLen.toUInt16 ++
        putU16 (ev.msgLen >>> 16).toUInt16 ++ (ev.msgPayload.getD []).take (ev.msgLen.toNat - 2)
  | none => []

/-- The class byte of the header. -/
def classByte (ev : RemoteInputEvent) : UInt8 :=
  match RemoteInputType.ofCode ev.type with
  | some .input7 => 2
  | some .vkey => 3
  | some .message => 4
  | _ => 0

def headerFlags (flags1 : UInt8) : UInt8 :=
  (((flags1 >>> 6) &&& 1) <<< 1) ||| (((flags1 >>> 5) &&& 1) <<< 2) |||
    (((flags1 >>> 3) &&& 1) <<< 3)

def remoteInputBuild (ev : RemoteInputEvent) (ts : UInt32) (cap : ℕ) : Option Bytes :=
  match bodyLen ev with
  | none => none
  | some l =>
      let pad := (l + 4) % 2
      let total := remoteInputHdrLen + l + 4 + pad
      if cap < total then none
      else
        let fields := bodyFields ev l
        some ([headerFlags ev.flags1, classByte ev] ++ putU16 (UInt16.ofNat total) ++ [ev.flags2] ++
          List.replicate 5 0 ++ (fields ++ List.replicate (l - fields.length) 0) ++ putU32 ts ++
          List.replicate pad 0)

/-! ## The sequence of the daemon -/

def remoteInputEventZero : RemoteInputEvent where
  type := 0
  subtype := 0
  flags1 := 0
  flags2 := 0
  touchCnt := 0
  touchIds _ := 0
  touchX _ := 0
  touchY _ := 0
  keyF16a := 0
  keyF16b := 0
  keyF32 := 0
  zoomX := 0
  zoomY := 0
  zoomPressure := 0
  scrollAxis := 0
  scrollDelta := 0
  mouseButton := 0
  mouseX := 0
  mouseY := 0
  mouseZ := 0
  mouseW := 0
  content := none
  contentLen := 0
  focusF1 := 0
  focusF2 := 0
  focusF3 := 0
  focusF4 := 0
  focusF5 := 0
  wheelDir := 0
  wheelF1 := 0
  wheelX := 0
  wheelY := 0
  vkeyX := 0
  vkeyY := 0
  msgLen := 0
  msgPayload := none

/-- The double of `n / 4`. -/
def quarters (n : ℕ) : UInt64 :=
  if n = 0 then 0
  else
    let e := Nat.log2 n
    UInt64.ofNat ((1021 + e) * 2 ^ 52 + (n - 2 ^ e) * 2 ^ (52 - e))

/-- A touch with one point. -/
def touchAt (subtype : UInt32) (x y : ℕ) : RemoteInputEvent :=
  { remoteInputEventZero with
    type := 0
    subtype := subtype
    touchCnt := 1
    touchIds := fun i => if i = 0 then 1 else 0
    touchX := fun i => if i = 0 then quarters (4 * x) else 0
    touchY := fun i => if i = 0 then quarters (4 * y) else 0 }

/-- The events of `send_input_sequence`. -/
def inputEvents : List RemoteInputEvent :=
  [touchAt 0 1234 5678, touchAt 1 1300 5700, touchAt 2 1300 5700,
    { remoteInputEventZero with type := 1, subtype := 0, keyF16a := 1 },
    { remoteInputEventZero with type := 1, subtype := 1, keyF16a := 1 },
    { remoteInputEventZero with
      type := 6, subtype := 1, mouseX := quarters 402, mouseY := quarters 801
      mouseW := quarters 25000 },
    { remoteInputEventZero with type := 3, scrollDelta := 3 },
    { remoteInputEventZero with type := 9 },
    { remoteInputEventZero with type := 8, wheelDir := 1 },
    { remoteInputEventZero with type := 7, content := some [104, 105], contentLen := 2 },
    { remoteInputEventZero with type := 10, msgLen := 5, msgPayload := some [104, 105, 33] },
    { remoteInputEventZero with
      type := 2, zoomX := quarters 40, zoomY := quarters 80, zoomPressure := quarters 4 }]

/-- The packet of event `i`; its time stamp is `1000 + 16 * i`. -/
def inputPacket (ev : RemoteInputEvent) (i : ℕ) : Option Bytes :=
  remoteInputBuild ev (UInt32.ofNat (1000 + 16 * i)) remoteInputMaxTotal

end HwPhoneLink.Remote
