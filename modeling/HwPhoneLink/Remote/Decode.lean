import HwPhoneLink.Remote.Memory
import HwPhoneLink.Dmsdp.Daemon
import Mathlib.Tactic.IntervalCases

/-!
# Reading RemoteCtrl packets back

A packet determines its time stamp, its type and every field that its type puts on the wire.
The class and the action do not: a mouse and a touch share both, and only the length of the
packet tells them apart.
-/

namespace HwPhoneLink.Remote

open BigEndian

/-! ## What a packet carries -/

/-- The fields of a type, as they are on the wire: a coordinate has 16 bits, the direction of
a wheel three, the pressure of a zoom its low 16. -/
inductive InputFields : Type where
  | touch (points : List (UInt8 × UInt16 × UInt16))
  | key (f16a f16b : UInt16) (f32 : UInt32)
  | zoom (x y : UInt16) (pressure : ℕ)
  | scroll (axis delta : UInt8)
  | mouse (button : UInt8) (x y z w : UInt16)
  | content (bytes : Bytes)
  | focus (f1 : UInt8) (f2 f3 f4 f5 : UInt16)
  | wheel (dir : ℕ) (f1 x y : UInt16)
  | vkey (x y : UInt16)
  | message (bytes : Bytes)
deriving DecidableEq, Repr

structure InputPacket where
  flags : UInt8
  flags2 : UInt8
  timestamp : UInt32
  type : RemoteInputType
  subtype : ℕ
  fields : InputFields
deriving DecidableEq, Repr

/-- The fields of an event of the type. -/
def RemoteInputEvent.fields (ev : RemoteInputEvent) : RemoteInputType → InputFields
  | .touch =>
      .touch (((List.finRange 4).take ev.touchCnt.toNat).map fun i =>
        (ev.touchIds i, d16 (ev.touchX i), d16 (ev.touchY i)))
  | .key => .key ev.keyF16a ev.keyF16b ev.keyF32
  | .zoom => .zoom (d16 ev.zoomX) (d16 ev.zoomY) (ev.zoomPressure.toNat % 2 ^ 16)
  | .scroll => .scroll ev.scrollAxis ev.scrollDelta
  | .mouse =>
      .mouse ev.mouseButton (d16 ev.mouseX) (d16 ev.mouseY) (d16 ev.mouseZ) (d16 ev.mouseW)
  | .input7 =>
      if ev.subtype = 0 then .content ((ev.content.getD []).take ev.contentLen.toNat)
      else
        .focus ev.focusF1 (d16 ev.focusF2) (d16 ev.focusF3) (d16 ev.focusF4) (d16 ev.focusF5)
  | .wheel => .wheel (ev.wheelDir.toNat % 8) ev.wheelF1 (d16 ev.wheelX) (d16 ev.wheelY)
  | .vkey => .vkey (d16 ev.vkeyX) (d16 ev.vkeyY)
  | .message => .message ((ev.msgPayload.getD []).take (ev.msgLen.toNat - 2))

/-- What the packet of an event of the type carries. A zoom does not carry its subtype. -/
def RemoteInputEvent.wire (ev : RemoteInputEvent) (ts : UInt32) (ty : RemoteInputType) :
    InputPacket where
  flags := headerFlags ev.flags1
  flags2 := ev.flags2
  timestamp := ts
  type := ty
  subtype := if ty = .zoom then 0 else ev.subtype.toNat
  fields := ev.fields ty

/-- The strings are as long as the event says. -/
def RemoteInputEvent.HoldsStrings (ev : RemoteInputEvent) : Prop :=
  (∀ s, ev.content = some s → ev.contentLen.toNat ≤ s.length) ∧
    ∀ s, ev.msgPayload = some s → ev.msgLen.toNat - 2 ≤ s.length

/-! ## Reading -/

def readPoints : ℕ → Bytes → List (UInt8 × UInt16 × UInt16)
  | 0, _ => []
  | n + 1, b => (u8At b 0, u16At b 1, u16At b 3) :: readPoints n (b.drop 5)

/-- The type, the subtype, the length of the body, and its fields. -/
def readBody (cls : UInt8) (total : ℕ) (b : Bytes) :
    RemoteInputType × ℕ × ℕ × InputFields :=
  let action := (u8At b 0).toNat
  if cls = 2 then
    let n := (u16At b 3).toNat
    if action = 0 then (.input7, 0, n + 5, .content (field n 5 b))
    else
      (.input7, 1, 12,
        .focus (u8At b 3) (u16At b 4) (u16At b 6) (u16At b 8) (u16At b 10))
  else if cls = 3 then (.vkey, action - 2, 7, .vkey (u16At b 3) (u16At b 5))
  else if cls = 4 then
    let n := (u16At b 3).toNat
    (.message, action - 6, n + 5, .message (field (n - 2) 7 b))
  else if action = 3 ∨ action = 4 then
    (.key, action - 3, 12, .key (u16At b 4) (u16At b 6) (u32At b 8))
  else if action = 5 then
    (.zoom, 0, 9,
      .zoom (u16At b 3) (u16At b 5) ((u8At b 7).toNat + 2 ^ 8 * (u8At b 8).toNat))
  else if action = 6 ∨ action = 7 then (.scroll, action - 6, 5, .scroll (u8At b 3) (u8At b 4))
  else if action = 12 ∨ action = 13 then
    let v := (u8At b 3).toNat
    (.wheel, action - 12, 10, .wheel (v % 2 + v / 4 * 2) (u16At b 4) (u16At b 6) (u16At b 8))
  -- from here on the length decides
  else if total = 26 then
    (.mouse, action - 14, 12,
      .mouse (u8At b 3) (u16At b 4) (u16At b 6) (u16At b 8) (u16At b 10))
  else
    let cnt := (u8At b 3).toNat
    (.touch, if action = 2 then 2 else action - 14, 9 * cnt + 4,
      .touch (readPoints cnt (b.drop 4)))

def readPacket (p : Bytes) : InputPacket :=
  let body := readBody (u8At p 1) p.length (p.drop 10)
  { flags := u8At p 0
    flags2 := u8At p 4
    timestamp := u32At p (10 + body.2.2.1)
    type := body.1
    subtype := body.2.1
    fields := body.2.2.2 }

section

variable {ev : RemoteInputEvent} {l : ℕ} {total : ℕ} {more : Bytes}

/-! ### Fields that are changed on the way -/

theorem action_toNat {a : UInt8} {s : UInt32} (h : a.toNat + s.toNat < 256) :
    (a + s.toUInt8).toNat = a.toNat + s.toNat := by
  rw [UInt8.toNat_add, UInt32.toNat_toUInt8]
  omega

theorem wheelDir_read (d : UInt8) :
    let v := (((d &&& 0x06) <<< 1) ||| (d &&& 0x01)).toNat
    v % 2 + v / 4 * 2 = d.toNat % 8 := by
  have hall : ∀ k : Fin 256,
      let v := (((UInt8.ofNat k &&& 0x06) <<< 1) ||| (UInt8.ofNat k &&& 0x01)).toNat
      v % 2 + v / 4 * 2 = k.val % 8 := by decide +kernel
  have hd := hall ⟨d.toNat, d.toNat_lt⟩
  simp only [UInt8.ofNat_toNat] at hd
  exact hd

theorem pressure_read (v : UInt64) :
    v.toUInt8.toNat + 2 ^ 8 * (v >>> 8).toUInt8.toNat = v.toNat % 2 ^ 16 := by
  rw [UInt64.toNat_toUInt8, UInt64.toNat_toUInt8, UInt64.toNat_shiftRight, Nat.shiftRight_eq_div_pow]
  show v.toNat % 2 ^ 8 + 2 ^ 8 * (v.toNat / 2 ^ 8 % 2 ^ 8) = v.toNat % 2 ^ 16
  omega

theorem readPoints_points (ev : RemoteInputEvent) (more : Bytes) : ∀ ids : List (Fin 4),
    readPoints ids.length ((ids.flatMap fun i =>
        ev.touchIds i :: (putU16 (d16 (ev.touchX i)) ++ putU16 (d16 (ev.touchY i)))) ++ more) =
      ids.map fun i => (ev.touchIds i, d16 (ev.touchX i), d16 (ev.touchY i)) := by
  intro ids
  induction ids with
  | nil => rfl
  | cons i ids ih =>
      rw [List.length_cons, readPoints, List.flatMap_cons, List.map_cons]
      simp only [List.cons_append, List.append_assoc, u8At_cons_zero, u16At_cons_succ, u16At_zero,
        u16At_putU16_succ]
      exact congrArg _ ih

/-! ### One type after the other -/

theorem readBody_mouse (hty : RemoteInputType.ofCode ev.type = some .mouse)
    (h : bodyLen ev = some l) :
    readBody (classByte ev) (packetLen l) (bodyFields ev l ++ more) =
      (.mouse, ev.subtype.toNat, l, ev.fields .mouse) := by
  unfold bodyLen at h
  rw [hty] at h
  simp only at h
  split_ifs at h with hsub
  cases h
  have hcls : classByte ev = 0 := by rw [classByte, hty]
  have haction : (mouseAction.getD ev.subtype.toNat 0).toNat = 14 + ev.subtype.toNat := by
    generalize ev.subtype.toNat = s at hsub ⊢
    interval_cases s <;> rfl
  have hbytes : bodyFields ev 12 ++ more = mouseAction.getD ev.subtype.toNat 0 ::
      (putU16 9 ++ ev.mouseButton :: (putU16 (d16 ev.mouseX) ++ (putU16 (d16 ev.mouseY) ++
        (putU16 (d16 ev.mouseZ) ++ (putU16 (d16 ev.mouseW) ++ more))))) := by
    rw [bodyFields, hty]
    simp only [List.append_assoc]
    rfl
  rw [hcls, hbytes, readBody]
  simp only [u8At_cons_zero, u8At_cons_succ, u16At_cons_succ, u8At_putU16_succ, u16At_putU16_succ,
    u16At_zero, haction]
  rw [if_neg (by decide), if_neg (by decide), if_neg (by decide), if_neg (by omega),
    if_neg (by omega), if_neg (by omega), if_neg (by omega), if_pos (by decide),
    Nat.add_sub_cancel_left]
  rfl

theorem readBody_key (hty : RemoteInputType.ofCode ev.type = some .key)
    (h : bodyLen ev = some l) :
    readBody (classByte ev) (packetLen l) (bodyFields ev l ++ more) =
      (.key, ev.subtype.toNat, l, ev.fields .key) := by
  unfold bodyLen at h
  rw [hty] at h
  simp only at h
  split_ifs at h with hsub
  cases h
  have hcls : classByte ev = 0 := by rw [classByte, hty]
  have haction : (3 + ev.subtype.toUInt8).toNat = 3 + ev.subtype.toNat :=
    action_toNat (show 3 + ev.subtype.toNat < 256 by omega)
  have hbytes : bodyFields ev 12 ++ more = (3 + ev.subtype.toUInt8) ::
      (putU16 9 ++ 0 :: (putU16 ev.keyF16a ++ (putU16 ev.keyF16b ++ (putU32 ev.keyF32 ++ more)))) := by
    rw [bodyFields, hty]
    simp only [List.append_assoc]
    rfl
  rw [hcls, hbytes, readBody]
  simp only [u8At_cons_zero, u16At_cons_succ, u32At_cons_succ, u16At_putU16_succ, u32At_putU16_succ,
    u16At_zero, u32At_zero, haction]
  rw [if_neg (by decide), if_neg (by decide), if_neg (by decide), if_pos (by omega),
    Nat.add_sub_cancel_left]
  rfl

theorem readBody_zoom (hty : RemoteInputType.ofCode ev.type = some .zoom)
    (h : bodyLen ev = some l) :
    readBody (classByte ev) (packetLen l) (bodyFields ev l ++ more) =
      (.zoom, 0, l, ev.fields .zoom) := by
  unfold bodyLen at h
  rw [hty] at h
  cases h
  have hcls : classByte ev = 0 := by rw [classByte, hty]
  have hbytes : bodyFields ev 9 ++ more = (0x05 : UInt8) :: (putU16 7 ++ (putU16 (d16 ev.zoomX) ++
      (putU16 (d16 ev.zoomY) ++
        ev.zoomPressure.toUInt8 :: (ev.zoomPressure >>> 8).toUInt8 :: more))) := by
    rw [bodyFields, hty]
    simp only [List.append_assoc]
    rfl
  rw [hcls, hbytes, readBody]
  simp only [u8At_cons_zero, u8At_cons_succ, u16At_cons_succ, u8At_putU16_succ, u16At_putU16_succ,
    u16At_zero, pressure_read]
  rfl

theorem readBody_scroll (hty : RemoteInputType.ofCode ev.type = some .scroll)
    (h : bodyLen ev = some l) :
    readBody (classByte ev) (packetLen l) (bodyFields ev l ++ more) =
      (.scroll, ev.subtype.toNat, l, ev.fields .scroll) := by
  unfold bodyLen at h
  rw [hty] at h
  simp only at h
  split_ifs at h with hsub
  cases h
  have hcls : classByte ev = 0 := by rw [classByte, hty]
  have haction : (6 + ev.subtype.toUInt8).toNat = 6 + ev.subtype.toNat :=
    action_toNat (show 6 + ev.subtype.toNat < 256 by omega)
  have hbytes : bodyFields ev 5 ++ more = (6 + ev.subtype.toUInt8) ::
      (putU16 3 ++ ev.scrollAxis :: ev.scrollDelta :: more) := by
    rw [bodyFields, hty]
    rfl
  rw [hcls, hbytes, readBody]
  simp only [u8At_cons_zero, u8At_cons_succ, u8At_putU16_succ, haction]
  rw [if_neg (by decide), if_neg (by decide), if_neg (by decide), if_neg (by omega),
    if_neg (by omega), if_pos (by omega), Nat.add_sub_cancel_left]
  rfl

theorem readBody_wheel (hty : RemoteInputType.ofCode ev.type = some .wheel)
    (h : bodyLen ev = some l) :
    readBody (classByte ev) (packetLen l) (bodyFields ev l ++ more) =
      (.wheel, ev.subtype.toNat, l, ev.fields .wheel) := by
  unfold bodyLen at h
  rw [hty] at h
  simp only at h
  split_ifs at h with hsub
  cases h
  have hcls : classByte ev = 0 := by rw [classByte, hty]
  have haction : (12 + ev.subtype.toUInt8).toNat = 12 + ev.subtype.toNat :=
    action_toNat (show 12 + ev.subtype.toNat < 256 by omega)
  have hbytes : bodyFields ev 10 ++ more = (12 + ev.subtype.toUInt8) ::
      (putU16 7 ++ (((ev.wheelDir &&& 0x06) <<< 1) ||| (ev.wheelDir &&& 0x01)) ::
        (putU16 ev.wheelF1 ++ (putU16 (d16 ev.wheelX) ++ (putU16 (d16 ev.wheelY) ++ more)))) := by
    rw [bodyFields, hty]
    simp only [List.append_assoc]
    rfl
  rw [hcls, hbytes, readBody]
  simp only [u8At_cons_zero, u8At_cons_succ, u16At_cons_succ, u8At_putU16_succ, u16At_putU16_succ,
    u16At_zero, haction, wheelDir_read]
  rw [if_neg (by decide), if_neg (by decide), if_neg (by decide), if_neg (by omega),
    if_neg (by omega), if_neg (by omega), if_pos (by omega), Nat.add_sub_cancel_left]
  rfl

theorem readBody_vkey (hty : RemoteInputType.ofCode ev.type = some .vkey)
    (h : bodyLen ev = some l) :
    readBody (classByte ev) (packetLen l) (bodyFields ev l ++ more) =
      (.vkey, ev.subtype.toNat, l, ev.fields .vkey) := by
  unfold bodyLen at h
  rw [hty] at h
  simp only at h
  split_ifs at h with hsub
  cases h
  have hcls : classByte ev = 3 := by rw [classByte, hty]
  have haction : (2 + ev.subtype.toUInt8).toNat = 2 + ev.subtype.toNat :=
    action_toNat (show 2 + ev.subtype.toNat < 256 by omega)
  have hbytes : bodyFields ev 7 ++ more = (2 + ev.subtype.toUInt8) ::
      (putU16 5 ++ (putU16 (d16 ev.vkeyX) ++ (putU16 (d16 ev.vkeyY) ++ more))) := by
    rw [bodyFields, hty]
    simp only [List.append_assoc]
    rfl
  rw [hcls, hbytes, readBody]
  simp only [u8At_cons_zero, u16At_cons_succ, u16At_putU16_succ, u16At_zero, haction]
  rw [if_neg (by decide), if_pos trivial, Nat.add_sub_cancel_left]
  rfl

theorem readBody_touch (hty : RemoteInputType.ofCode ev.type = some .touch)
    (h : bodyLen ev = some l) :
    readBody (classByte ev) (packetLen l) (bodyFields ev l ++ more) =
      (.touch, ev.subtype.toNat, l, ev.fields .touch) := by
  have hvalid := valid_iff_bodyLen.mpr ⟨l, h⟩
  rw [RemoteInputEvent.Valid, hty] at hvalid
  obtain ⟨hmin, hmax, hsub⟩ := hvalid
  obtain ⟨rfl, hcnt⟩ := bodyLen_touch hty h
  have hcls : classByte ev = 0 := by rw [classByte, hty]
  have haction : ∀ s ≤ 2, (s = 2 ∧ (touchAction.getD s 0).toNat = 2) ∨
      (s < 2 ∧ (touchAction.getD s 0).toNat = 14 + s) := by decide
  have hids : ((List.finRange 4).take ev.touchCnt.toNat).length = ev.touchCnt.toNat := by
    rw [List.length_take, List.length_finRange]
    exact Nat.min_eq_left hmax
  have hpoints := readPoints_points ev more ((List.finRange 4).take ev.touchCnt.toNat)
  have hbytes : bodyFields ev (9 * ev.touchCnt.toNat + 4) ++ more =
      touchAction.getD ev.subtype.toNat 0 ::
        (putU16 (lenfield (9 * ev.touchCnt.toNat + 4)) ++ ev.touchCnt :: (touchPoints ev ++ more)) := by
    rw [bodyFields, hty]
    simp only [List.append_assoc]
    rfl
  -- the packet of a touch is longer than that of a mouse
  have hlong : packetLen (9 * ev.touchCnt.toNat + 4) ≠ 26 := by
    rcases hcnt with hcnt | hcnt | hcnt | hcnt <;> rw [hcnt] <;> decide
  rw [hids] at hpoints
  have haction := haction _ hsub
  rw [hcls, hbytes, readBody]
  simp only [u8At_cons_zero, u8At_cons_succ, u8At_putU16_succ]
  generalize (touchAction.getD ev.subtype.toNat 0).toNat = action at haction ⊢
  have hsubtype : (if action = 2 then 2 else action - 14) = ev.subtype.toNat := by
    split_ifs <;> omega
  rw [if_neg (by decide), if_neg (by decide), if_neg (by decide), if_neg (by omega),
    if_neg (by omega), if_neg (by omega), if_neg (by omega), if_neg hlong, hsubtype]
  exact congrArg (fun points => (RemoteInputType.touch, ev.subtype.toNat,
    9 * ev.touchCnt.toNat + 4, InputFields.touch points)) hpoints

theorem readBody_input7 (hty : RemoteInputType.ofCode ev.type = some .input7)
    (hstr : ev.HoldsStrings) (h : bodyLen ev = some l) :
    readBody (classByte ev) (packetLen l) (bodyFields ev l ++ more) =
      (.input7, ev.subtype.toNat, l, ev.fields .input7) := by
  have hvalid := valid_iff_bodyLen.mpr ⟨l, h⟩
  rw [RemoteInputEvent.Valid, hty] at hvalid
  have hcls : classByte ev = 2 := by rw [classByte, hty]
  rcases bodyLen_input7 hty h with ⟨hsub, rfl, -⟩ | ⟨hsub, rfl⟩
  · have hcontent : ((ev.content.getD []).take ev.contentLen.toNat).length = ev.contentLen.toNat := by
      rw [List.length_take]
      apply Nat.min_eq_left
      cases hc : ev.content with
      | some s => exact hstr.1 s hc
      | none =>
          rcases hvalid with ⟨-, -, hne⟩ | hfocus
          · exact not_lt.mp fun hpos => hne hpos hc
          · rw [hsub] at hfocus
            cases hfocus
    have hbytes : bodyFields ev (ev.contentLen.toNat + 5) ++ more = (0x00 : UInt8) ::
        (putU16 (lenfield (ev.contentLen.toNat + 5)) ++ (putU16 ev.contentLen ++
          ((ev.content.getD []).take ev.contentLen.toNat ++ more))) := by
      rw [bodyFields, hty]
      simp only [hsub, if_true, List.append_assoc]
      rfl
    have hfield := field_append ((0x00 : UInt8) ::
      (putU16 (lenfield (ev.contentLen.toNat + 5)) ++ putU16 ev.contentLen))
      ((ev.content.getD []).take ev.contentLen.toNat) more rfl hcontent
    rw [hcls, hbytes, readBody]
    simp only [u8At_cons_zero, u16At_cons_succ, u16At_putU16_succ, u16At_zero]
    rw [if_pos trivial, if_pos (by decide), RemoteInputEvent.fields, hsub, if_pos rfl]
    exact congrArg (fun bytes => (RemoteInputType.input7, 0, ev.contentLen.toNat + 5,
      InputFields.content bytes)) hfield
  · have hbytes : bodyFields ev 12 ++ more = (0x01 : UInt8) ::
        (putU16 9 ++ ev.focusF1 :: (putU16 (d16 ev.focusF2) ++ (putU16 (d16 ev.focusF3) ++
          (putU16 (d16 ev.focusF4) ++ (putU16 (d16 ev.focusF5) ++ more))))) := by
      rw [bodyFields, hty, hsub]
      simp only [List.append_assoc]
      rfl
    rw [hcls, hbytes, readBody]
    simp only [u8At_cons_zero, u8At_cons_succ, u16At_cons_succ, u8At_putU16_succ,
      u16At_putU16_succ, u16At_zero]
    rw [if_pos trivial, if_neg (by decide), RemoteInputEvent.fields, hsub, if_neg (by decide)]
    rfl

theorem readBody_message (hty : RemoteInputType.ofCode ev.type = some .message)
    (hstr : ev.HoldsStrings) (h : bodyLen ev = some l) :
    readBody (classByte ev) (packetLen l) (bodyFields ev l ++ more) =
      (.message, ev.subtype.toNat, l, ev.fields .message) := by
  have hvalid := valid_iff_bodyLen.mpr ⟨l, h⟩
  rw [RemoteInputEvent.Valid, hty] at hvalid
  obtain ⟨hsub, -, -, hne⟩ := hvalid
  obtain ⟨-, rfl, hmin, hmax⟩ := bodyLen_message hty h
  have hcls : classByte ev = 4 := by rw [classByte, hty]
  have haction : (6 + ev.subtype.toUInt8).toNat = 6 + ev.subtype.toNat :=
    action_toNat (show 6 + ev.subtype.toNat < 256 by omega)
  have hlen : ev.msgLen.toUInt16.toNat = ev.msgLen.toNat := by
    rw [UInt32.toNat_toUInt16]
    omega
  have hpayload : ((ev.msgPayload.getD []).take (ev.msgLen.toNat - 2)).length =
      ev.msgLen.toNat - 2 := by
    rw [List.length_take]
    apply Nat.min_eq_left
    obtain ⟨s, hs⟩ := Option.ne_none_iff_exists'.mp hne
    rw [hs]
    exact hstr.2 s hs
  have hbytes : bodyFields ev (ev.msgLen.toNat + 5) ++ more = (6 + ev.subtype.toUInt8) ::
      (putU16 (lenfield (ev.msgLen.toNat + 5)) ++ (putU16 ev.msgLen.toUInt16 ++
        (putU16 (ev.msgLen >>> 16).toUInt16 ++
          ((ev.msgPayload.getD []).take (ev.msgLen.toNat - 2) ++ more)))) := by
    rw [bodyFields, hty]
    simp only [List.append_assoc]
    rfl
  have hfield := field_append ((6 + ev.subtype.toUInt8) ::
    (putU16 (lenfield (ev.msgLen.toNat + 5)) ++ (putU16 ev.msgLen.toUInt16 ++
      putU16 (ev.msgLen >>> 16).toUInt16)))
    ((ev.msgPayload.getD []).take (ev.msgLen.toNat - 2)) more rfl hpayload
  rw [hcls, hbytes, readBody]
  simp only [u8At_cons_zero, u16At_cons_succ, u16At_putU16_succ, u16At_zero, haction, hlen]
  rw [if_neg (by decide), if_neg (by decide), if_pos trivial, Nat.add_sub_cancel_left]
  exact congrArg (fun bytes => (RemoteInputType.message, ev.subtype.toNat, ev.msgLen.toNat + 5,
    InputFields.message bytes)) hfield

/-- **The body is read back.** -/
theorem readBody_bodyFields {ty : RemoteInputType} (hty : RemoteInputType.ofCode ev.type = some ty)
    (hstr : ev.HoldsStrings) (h : bodyLen ev = some l) :
    readBody (classByte ev) (packetLen l) (bodyFields ev l ++ more) =
      (ty, if ty = .zoom then 0 else ev.subtype.toNat, l, ev.fields ty) := by
  cases ty with
  | touch => exact readBody_touch hty h
  | key => exact readBody_key hty h
  | zoom => exact readBody_zoom hty h
  | scroll => exact readBody_scroll hty h
  | mouse => exact readBody_mouse hty h
  | input7 => exact readBody_input7 hty hstr h
  | wheel => exact readBody_wheel hty h
  | vkey => exact readBody_vkey hty h
  | message => exact readBody_message hty hstr h

theorem readPacket_packet {ty : RemoteInputType} (ts : UInt32)
    (hty : RemoteInputType.ofCode ev.type = some ty) (hstr : ev.HoldsStrings)
    (h : bodyLen ev = some l) : readPacket (packet ev ts l) = ev.wire ts ty := by
  have hcls : u8At (packet ev ts l) 1 = classByte ev := by
    rw [packet, packetHeader]
    exact u8At_append [headerFlags ev.flags1] _ _ rfl
  have hflags : u8At (packet ev ts l) 0 = headerFlags ev.flags1 := by
    rw [packet, packetHeader]
    exact u8At_cons_zero _ _
  have hflags2 : u8At (packet ev ts l) 4 = ev.flags2 := by
    rw [packet, packetHeader]
    exact u8At_append ([headerFlags ev.flags1, classByte ev] ++
      putU16 (UInt16.ofNat (packetLen l))) _ _ rfl
  have hdrop : (packet ev ts l).drop 10 = bodyFields ev l ++
      (List.replicate (l - (bodyFields ev l).length) 0 ++
        (putU32 ts ++ List.replicate ((l + 4) % 2) 0)) := by
    rw [packet, packetBody]
    simp only [List.append_assoc]
    exact List.drop_left' (packetHeader_length ev l)
  have hts := (packet_layout ts h []).timestamp
  rw [List.append_nil] at hts
  rw [readPacket, hcls, packet_length ts h, hdrop, readBody_bodyFields hty hstr h, hflags, hflags2,
    hts]
  rfl

/-! ## Codes -/

def RemoteInputType.code : RemoteInputType → UInt32
  | .touch => 0
  | .key => 1
  | .zoom => 2
  | .scroll => 3
  | .mouse => 6
  | .input7 => 7
  | .wheel => 8
  | .vkey => 9
  | .message => 10

theorem ofCode_some {c : UInt32} {ty : RemoteInputType} (h : RemoteInputType.ofCode c = some ty) :
    c = ty.code := by
  unfold RemoteInputType.ofCode at h
  split at h
  case h_10 => cases h
  all_goals
    rename_i hc
    cases h
    exact UInt32.toNat_inj.mp hc

theorem bodyLen_type (h : bodyLen ev = some l) : ∃ ty, RemoteInputType.ofCode ev.type = some ty := by
  apply Option.ne_none_iff_exists'.mp
  intro hnone
  unfold bodyLen at h
  rw [hnone] at h
  cases h

theorem classByte_cases (ev : RemoteInputEvent) :
    classByte ev = 0 ∨ classByte ev = 2 ∨ classByte ev = 3 ∨ classByte ev = 4 := by
  unfold classByte
  split
  · exact Or.inr (Or.inl rfl)
  · exact Or.inr (Or.inr (Or.inl rfl))
  · exact Or.inr (Or.inr (Or.inr rfl))
  · exact Or.inl rfl

/-! ## No frame of the session -/

theorem u16At_pair (a b : UInt8) (rest : Bytes) :
    (u16At (a :: b :: rest) 0).toNat = a.toNat * 256 + b.toNat := by
  have ha := a.toNat_lt
  have hb := b.toNat_lt
  have hpair : unbe [a, b] = a.toNat * 256 + b.toNat := by
    rw [unbe, List.foldl_cons, List.foldl_cons, List.foldl_nil, Nat.zero_mul, Nat.zero_add]
  show (UInt16.ofNat (unbe [a, b])).toNat = _
  rw [hpair]
  exact UInt16.toNat_ofNat_of_lt' (show a.toNat * 256 + b.toNat < 2 ^ 16 by omega)

/-- The class and the high byte of the length are never the length of the rest. -/
theorem packet_not_frame (ts : UInt32) (h : bodyLen ev = some l) :
    3 + (u16At (packet ev ts l) 1).toNat ≠ (packet ev ts l).length := by
  obtain ⟨hmin, hmax⟩ := bodyLen_bounds h
  have htotal : (UInt16.ofNat (packetLen l)).toNat = packetLen l :=
    UInt16.toNat_ofNat_of_lt' (packetLen_lt h)
  have hn : (u16At (packet ev ts l) 1).toNat = (classByte ev).toNat * 256 +
      (UInt8.ofNat ((UInt16.ofNat (packetLen l)).toNat / 256 ^ 1)).toNat := by
    rw [packet, packetHeader]
    exact u16At_pair _ _ _
  have hlen : 20 ≤ packetLen l ∧ packetLen l ≤ 492 := by
    rw [packetLen, remoteInputHdrLen]
    omega
  have hhigh : packetLen l / 256 ^ 1 % 2 ^ 8 ≤ 1 := by
    rw [pow_one]
    omega
  rw [hn, htotal, UInt8.toNat_ofNat', packet_length ts h]
  generalize packetLen l / 256 ^ 1 % 2 ^ 8 = high at hhigh ⊢
  rcases classByte_cases ev with hcls | hcls | hcls | hcls
  all_goals
    rw [hcls]
    simp only [UInt8.reduceToNat]
    omega

end

/-- **A packet says what it was built from**, and it is no NoCrypto frame. -/
theorem remoteInputBuild_injective {ev₁ ev₂ : RemoteInputEvent} {ts₁ ts₂ : UInt32} {cap₁ cap₂ : ℕ}
    {p : Bytes} (hstr₁ : ev₁.HoldsStrings) (hstr₂ : ev₂.HoldsStrings)
    (h₁ : remoteInputBuild ev₁ ts₁ cap₁ = some p) (h₂ : remoteInputBuild ev₂ ts₂ cap₂ = some p) :
    ts₁ = ts₂ ∧ ev₁.type = ev₂.type ∧ (ev₁.type ≠ 2 → ev₁.subtype = ev₂.subtype) ∧
      headerFlags ev₁.flags1 = headerFlags ev₂.flags1 ∧ ev₁.flags2 = ev₂.flags2 ∧
      (∃ ty, RemoteInputType.ofCode ev₁.type = some ty ∧ ev₁.fields ty = ev₂.fields ty) ∧
      3 + (u16At p 1).toNat ≠ p.length ∧ Dmsdp.dmsdpNocrypto p = none := by
  obtain ⟨l₁, hl₁, -, rfl⟩ := remoteInputBuild_some.mp h₁
  obtain ⟨l₂, hl₂, -, heq⟩ := remoteInputBuild_some.mp h₂
  obtain ⟨ty₁, hty₁⟩ := bodyLen_type hl₁
  obtain ⟨ty₂, hty₂⟩ := bodyLen_type hl₂
  have hwire : ev₁.wire ts₁ ty₁ = ev₂.wire ts₂ ty₂ := by
    rw [← readPacket_packet ts₁ hty₁ hstr₁ hl₁, heq, readPacket_packet ts₂ hty₂ hstr₂ hl₂]
  have hframe := packet_not_frame ts₁ hl₁
  simp only [RemoteInputEvent.wire, InputPacket.mk.injEq] at hwire
  obtain ⟨hflags, hflags2, hts, rfl, hsub, hfields⟩ := hwire
  have htype : ev₁.type = ev₂.type := (ofCode_some hty₁).trans (ofCode_some hty₂).symm
  refine ⟨hts, htype, fun hzoom => ?_, hflags, hflags2, ⟨ty₁, hty₁, hfields⟩, hframe, ?_⟩
  · have hne : ty₁ ≠ .zoom := fun h => hzoom (by rw [ofCode_some hty₁, h]; rfl)
    rw [if_neg hne, if_neg hne] at hsub
    exact UInt32.toNat_inj.mp hsub
  · unfold Dmsdp.dmsdpNocrypto
    split
    · rfl
    · exact if_neg fun hn => hframe hn.2

/-- Two zooms that differ in their subtype and in the high bits of their pressure. -/
theorem remoteInputBuild_injective_zoom :
    let ev₁ := { remoteInputEventZero with type := 2, subtype := 1 }
    let ev₂ := { remoteInputEventZero with
      type := 2, subtype := 5, flags1 := 1, zoomPressure := quarters 4 }
    ev₁.fields .zoom = ev₂.fields .zoom ∧ headerFlags ev₁.flags1 = headerFlags ev₂.flags1 ∧
      ∃ p, remoteInputBuild ev₁ 7 512 = some p ∧ remoteInputBuild ev₂ 7 512 = some p ∧
        Dmsdp.dmsdpNocrypto p = none := by
  intro ev₁ ev₂
  have hstr : ∀ ev : RemoteInputEvent, ev.content = none → ev.msgPayload = none →
      ev.HoldsStrings := by
    rintro ev hcontent hpayload
    refine ⟨fun s hs => ?_, fun s hs => ?_⟩
    · rw [hcontent] at hs
      cases hs
    · rw [hpayload] at hs
      cases hs
  have h₁ : remoteInputBuild ev₁ 7 512 = some (packet ev₁ 7 9) :=
    remoteInputBuild_some.mpr ⟨9, rfl, by decide, rfl⟩
  have h₂ : remoteInputBuild ev₂ 7 512 = some (packet ev₁ 7 9) :=
    remoteInputBuild_some.mpr ⟨9, rfl, by decide, by decide⟩
  obtain ⟨-, -, -, hflags, -, ⟨ty, hty, hfields⟩, -, hframe⟩ :=
    remoteInputBuild_injective (hstr ev₁ rfl rfl) (hstr ev₂ rfl rfl) h₁ h₂
  cases hty
  exact ⟨hfields, hflags, packet ev₁ 7 9, h₁, h₂, hframe⟩

end HwPhoneLink.Remote
