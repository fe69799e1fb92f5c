import HwPhoneLink.Lib.Memory
import HwPhoneLink.Remote.Input
import Mathlib.Algebra.Group.Even

/-!
# RemoteCtrl input packets in the caller's buffer

`remote_input_build` once more, write by write. The buffer is what the caller's memory holds
from `out` on; a write behind it has no result.
-/

namespace HwPhoneLink.Remote

open BigEndian

/-! ## Valid events -/

/-- What the header file asks of an event. -/
def RemoteInputEvent.Valid (ev : RemoteInputEvent) : Prop :=
  match RemoteInputType.ofCode ev.type with
  | some .touch => 1 ≤ ev.touchCnt.toNat ∧ ev.touchCnt.toNat ≤ 4 ∧ ev.subtype.toNat ≤ 2
  | some .key => ev.subtype.toNat ≤ 1
  | some .zoom => True
  | some .scroll => ev.subtype.toNat ≤ 1
  | some .mouse => ev.subtype.toNat ≤ 2
  | some .input7 =>
      (ev.subtype.toNat = 0 ∧ ev.contentLen.toNat ≤ 472 ∧
        (0 < ev.contentLen.toNat → ev.content ≠ none)) ∨ ev.subtype.toNat = 1
  | some .wheel => ev.subtype.toNat ≤ 1
  | some .vkey => ev.subtype.toNat ≤ 3
  | some .message =>
      ev.subtype.toNat ≤ 1 ∧ 2 ≤ ev.msgLen.toNat ∧ ev.msgLen.toNat ≤ 472 ∧ ev.msgPayload ≠ none
  | none => False

/-- The length of the packet of a body. -/
def packetLen (l : ℕ) : ℕ := remoteInputHdrLen + l + 4 + (l + 4) % 2

/-- The header of the packet of a body of `l` bytes. -/
def packetHeader (ev : RemoteInputEvent) (l : ℕ) : Bytes :=
  [headerFlags ev.flags1, classByte ev] ++ putU16 (UInt16.ofNat (packetLen l)) ++ [ev.flags2] ++
    List.replicate 5 0

/-- The body: its fields, and zeros. -/
def packetBody (ev : RemoteInputEvent) (l : ℕ) : Bytes :=
  bodyFields ev l ++ List.replicate (l - (bodyFields ev l).length) 0

def packet (ev : RemoteInputEvent) (ts : UInt32) (l : ℕ) : Bytes :=
  packetHeader ev l ++ packetBody ev l ++ putU32 ts ++ List.replicate ((l + 4) % 2) 0

theorem remoteInputBuild_some {ev : RemoteInputEvent} {ts : UInt32} {cap : ℕ} {p : Bytes} :
    remoteInputBuild ev ts cap = some p ↔
      ∃ l, bodyLen ev = some l ∧ packetLen l ≤ cap ∧ p = packet ev ts l := by
  unfold remoteInputBuild
  cases hl : bodyLen ev with
  | none =>
      constructor
      · intro h
        cases h
      · rintro ⟨l, h, -⟩
        cases h
  | some l =>
      simp only
      constructor
      · intro h
        split_ifs at h with hcap
        cases h
        exact ⟨l, rfl, not_lt.mp hcap, rfl⟩
      · rintro ⟨l', h, hcap, rfl⟩
        cases h
        exact if_neg (not_lt.mpr hcap)

/-! ## The writes -/

namespace Checked

open Memory

/-- The writes of the body, in the order of the source. -/
def bodyWrites (ev : RemoteInputEvent) (l : ℕ) : List (ℕ × Bytes) :=
  let b := remoteInputHdrLen
  let subtype := ev.subtype.toUInt8
  match RemoteInputType.ofCode ev.type with
  | some .touch =>
      [(b, [touchAction.getD ev.subtype.toNat 0]), (b + 1, putU16 (lenfield l)),
        (b + 3, [ev.touchCnt])] ++
        ((List.finRange 4).take ev.touchCnt.toNat).flatMap fun i =>
          let q := b + 4 + 5 * i.val
          [(q, [ev.touchIds i]), (q + 1, putU16 (d16 (ev.touchX i))),
            (q + 3, putU16 (d16 (ev.touchY i)))]
  | some .key =>
      [(b, [3 + subtype]), (b + 1, putU16 9), (b + 3, [0]), (b + 4, putU16 ev.keyF16a),
        (b + 6, putU16 ev.keyF16b), (b + 8, putU32 ev.keyF32)]
  | some .zoom =>
      [(b, [0x05]), (b + 1, putU16 7), (b + 3, putU16 (d16 ev.zoomX)),
        (b + 5, putU16 (d16 ev.zoomY)), (b + 7, [ev.zoomPressure.toUInt8]),
        (b + 8, [(ev.zoomPressure >>> 8).toUInt8])]
  | some .scroll =>
      [(b, [0x06 + subtype]), (b + 1, putU16 3), (b + 3, [ev.scrollAxis]),
        (b + 4, [ev.scrollDelta])]
  | some .mouse =>
      [(b, [mouseAction.getD ev.subtype.toNat 0]), (b + 1, putU16 9), (b + 3, [ev.mouseButton]),
        (b + 4, putU16 (d16 ev.mouseX)), (b + 6, putU16 (d16 ev.mouseY)),
        (b + 8, putU16 (d16 ev.mouseZ)), (b + 10, putU16 (d16 ev.mouseW))]
  | some .input7 =>
      if ev.subtype = 0 then
        [(b, [0x00]), (b + 1, putU16 (lenfield l)), (b + 3, putU16 ev.contentLen)] ++
          if ev.contentLen > 0 then
            [(b + 5, (ev.content.getD []).take ev.contentLen.toNat)]
          else []
      else
        [(b, [0x01]), (b + 1, putU16 9), (b + 3, [ev.focusF1]), (b + 4, putU16 (d16 ev.focusF2)),
          (b + 6, putU16 (d16 ev.focusF3)), (b + 8, putU16 (d16 ev.focusF4)),
          (b + 10, putU16 (d16 ev.focusF5))]
  | some .wheel =>
      [(b, [0x0c + subtype]), (b + 1, putU16 7),
        (b + 3, [((ev.wheelDir &&& 0x06) <<< 1) ||| (ev.wheelDir &&& 0x01)]),
        (b + 4, putU16 ev.wheelF1), (b + 6, putU16 (d16 ev.wheelX)),
        (b + 8, putU16 (d16 ev.wheelY))]
  | some .vkey =>
      [(b, [2 + subtype]), (b + 1, putU16 5), (b + 3, putU16 (d16 ev.vkeyX)),
        (b + 5, putU16 (d16 ev.vkeyY))]
  | some .message =>
      [(b, [6 + subtype]), (b + 1, putU16 (lenfield l)), (b + 3, putU16 ev.msgLen.toUInt16),
        (b + 5, putU16 (ev.msgLen >>> 16).toUInt16),
        (b + 7, (ev.msgPayload.getD []).take (ev.msgLen.toNat - 2))]
  | none => []

def headerWrites (ev : RemoteInputEvent) (total : ℕ) : List (ℕ × Bytes) :=
  [(0, [headerFlags ev.flags1]), (1, [classByte ev]), (2, putU16 (UInt16.ofNat total)),
    (4, [ev.flags2])]

/-- The writes of a packet: the zeros, the body, the header and the time stamp. -/
def remoteInputWrites (ev : RemoteInputEvent) (ts : UInt32) (l : ℕ) : List (ℕ × Bytes) :=
  [(0, List.replicate (packetLen l) 0)] ++ bodyWrites ev l ++ headerWrites ev (packetLen l) ++
    [(remoteInputHdrLen + l, putU32 ts)]

/-- The return code, the buffer, and the length. -/
def remoteInputBuild (ev : RemoteInputEvent) (ts : UInt32) (out : Bytes) (cap outLen : ℕ) :
    Option (ℤ × Bytes × ℕ) :=
  match bodyLen ev with
  | none => some (-1, out, outLen)
  | some l =>
      if cap < packetLen l then some (-1, out, outLen)
      else (storeAll out (remoteInputWrites ev ts l)).map fun out => (0, out, packetLen l)

end Checked

/-! ## The length of the body -/

section

variable {ev : RemoteInputEvent} {l : ℕ}

theorem exists_ite_some {c : Prop} [Decidable c] {k : ℕ} :
    (∃ l, (if c then none else some k) = some l) ↔ ¬ c := by
  constructor
  · rintro ⟨l, h⟩ hc
    rw [if_pos hc] at h
    cases h
  · intro hc
    exact ⟨k, if_neg hc⟩

/-- The check of the event is what the header file says. -/
theorem valid_iff_bodyLen : ev.Valid ↔ ∃ l, bodyLen ev = some l := by
  unfold RemoteInputEvent.Valid bodyLen
  cases RemoteInputType.ofCode ev.type with
  | none => exact ⟨False.elim, fun ⟨l, h⟩ => by cases h⟩
  | some ty =>
      cases ty with
      | touch =>
          rw [exists_ite_some]
          simp only [UInt8.lt_iff_toNat_lt, gt_iff_lt, UInt8.reduceToNat]
          omega
      | zoom => exact ⟨fun _ => ⟨9, rfl⟩, fun _ => trivial⟩
      | key => rw [exists_ite_some]; exact not_lt.symm
      | scroll => rw [exists_ite_some]; exact not_lt.symm
      | mouse => rw [exists_ite_some]; exact not_lt.symm
      | wheel => rw [exists_ite_some]; exact not_lt.symm
      | vkey => rw [exists_ite_some]; exact not_lt.symm
      | input7 =>
          simp only [UInt16.lt_iff_toNat_lt, gt_iff_lt, UInt16.reduceToNat]
          constructor
          · rintro (⟨hcontent, hlen, hne⟩ | hfocus)
            · rw [if_pos hcontent, if_neg (not_lt.mpr hlen), if_neg fun hnull => hne hnull.1 hnull.2]
              exact ⟨_, rfl⟩
            · rw [if_neg (by omega), if_pos hfocus]
              exact ⟨_, rfl⟩
          · rintro ⟨l, h⟩
            split_ifs at h with hcontent hlong hnull hfocus
            · exact Or.inl ⟨hcontent, not_lt.mp hlong, fun hpos hnone => hnull ⟨hpos, hnone⟩⟩
            · exact Or.inr hfocus
      | message =>
          simp only [UInt32.lt_iff_toNat_lt, gt_iff_lt, UInt32.reduceToNat]
          constructor
          · rintro ⟨hsub, hmin, hmax, hne⟩
            rw [if_neg (not_lt.mpr hsub), if_neg (by omega), if_neg hne]
            exact ⟨_, rfl⟩
          · rintro ⟨l, h⟩
            split_ifs at h with hsub hlen hnull
            exact ⟨not_lt.mp hsub, by omega, by omega, hnull⟩

theorem bodyLen_bounds (h : bodyLen ev = some l) : 5 ≤ l ∧ l ≤ 477 := by
  unfold bodyLen at h
  simp only [UInt8.lt_iff_toNat_lt, UInt16.lt_iff_toNat_lt, UInt32.lt_iff_toNat_lt, gt_iff_lt,
    UInt8.reduceToNat, UInt16.reduceToNat, UInt32.reduceToNat] at h
  split at h
  all_goals try split_ifs at h
  all_goals cases h
  all_goals omega

theorem packetLen_even (l : ℕ) : Even (packetLen l) := by
  rw [Nat.even_iff, packetLen, remoteInputHdrLen]
  omega

/-- The length field of the body, for every type. -/
theorem lenfield_toNat (hl : 3 ≤ l) (hlt : l < 65536) : (lenfield l).toNat = l - 3 + l % 2 := by
  rw [lenfield, Nat.and_one_is_mod]
  show (l % 2 + (l - 3)) % 2 ^ 16 = _
  omega

theorem packetLen_lt (h : bodyLen ev = some l) : packetLen l < 65536 := by
  obtain ⟨-, hmax⟩ := bodyLen_bounds h
  rw [packetLen, remoteInputHdrLen]
  omega

/-! ## The body -/

theorem bodyLen_touch (hty : RemoteInputType.ofCode ev.type = some .touch)
    (h : bodyLen ev = some l) :
    l = 9 * ev.touchCnt.toNat + 4 ∧ (ev.touchCnt.toNat = 1 ∨ ev.touchCnt.toNat = 2 ∨
      ev.touchCnt.toNat = 3 ∨ ev.touchCnt.toNat = 4) := by
  unfold bodyLen at h
  rw [hty] at h
  simp only [UInt8.lt_iff_toNat_lt, gt_iff_lt, UInt8.reduceToNat] at h
  split_ifs at h with hbad
  cases h
  exact ⟨rfl, by omega⟩

theorem bodyLen_input7 (hty : RemoteInputType.ofCode ev.type = some .input7)
    (h : bodyLen ev = some l) :
    (ev.subtype = 0 ∧ l = ev.contentLen.toNat + 5 ∧ ev.contentLen.toNat ≤ 472) ∨
      (ev.subtype = 1 ∧ l = 12) := by
  unfold bodyLen at h
  rw [hty] at h
  simp only [UInt16.lt_iff_toNat_lt, gt_iff_lt, UInt16.reduceToNat] at h
  split_ifs at h with hcontent hlong hnull hfocus
  · cases h
    exact Or.inl ⟨UInt32.toNat_inj.mp hcontent, rfl, by omega⟩
  · cases h
    exact Or.inr ⟨UInt32.toNat_inj.mp hfocus, rfl⟩

theorem bodyLen_message (hty : RemoteInputType.ofCode ev.type = some .message)
    (h : bodyLen ev = some l) :
    ev.subtype.toNat ≤ 1 ∧ l = ev.msgLen.toNat + 5 ∧ 2 ≤ ev.msgLen.toNat ∧
      ev.msgLen.toNat ≤ 472 := by
  unfold bodyLen at h
  rw [hty] at h
  simp only [UInt32.lt_iff_toNat_lt, gt_iff_lt, UInt32.reduceToNat] at h
  split_ifs at h with hsub hlen hnull
  cases h
  exact ⟨by omega, rfl, by omega, by omega⟩

section Body

open Memory Checked

/-- The writes of the body fill it from its start. -/
theorem bodyWrites_consecutive (h : bodyLen ev = some l) :
    bodyWrites ev l = consecutive remoteInputHdrLen ((bodyWrites ev l).map Prod.snd) := by
  unfold bodyWrites
  cases hty : RemoteInputType.ofCode ev.type with
  | none => rfl
  | some ty =>
      cases ty with
      | touch =>
          simp only
          rcases (bodyLen_touch hty h).2 with hcnt | hcnt | hcnt | hcnt
          all_goals
            rw [hcnt]
            rfl
      | input7 =>
          simp only
          split_ifs
          all_goals rfl
      | _ => rfl

theorem bodyWrites_bytes (h : bodyLen ev = some l) :
    ((bodyWrites ev l).map Prod.snd).flatten = bodyFields ev l := by
  unfold bodyWrites bodyFields
  cases hty : RemoteInputType.ofCode ev.type with
  | none => rfl
  | some ty =>
      cases ty with
      | touch =>
          simp only
          rw [touchPoints]
          rcases (bodyLen_touch hty h).2 with hcnt | hcnt | hcnt | hcnt
          all_goals
            rw [hcnt]
            rfl
      | input7 =>
          simp only
          split_ifs with hcontent hlen
          · simp only [List.map_append, List.map_cons, List.map_nil, List.flatten_append,
              List.flatten_cons, List.flatten_nil, List.append_nil, List.append_assoc]
          · have hzero : ev.contentLen.toNat = 0 := by
              simp only [UInt16.lt_iff_toNat_lt, gt_iff_lt, UInt16.reduceToNat] at hlen
              omega
            rw [hzero, List.take_zero]
            rfl
          · rfl
      | message =>
          simp only [List.map_cons, List.map_nil, List.flatten_cons, List.flatten_nil,
            List.append_nil, List.append_assoc]
      | _ => rfl

theorem bodyFields_touch_length (hty : RemoteInputType.ofCode ev.type = some .touch)
    (h : bodyLen ev = some l) : (bodyFields ev l).length = 4 + 5 * ev.touchCnt.toNat := by
  unfold bodyFields
  rw [hty]
  simp only
  rw [touchPoints]
  rcases (bodyLen_touch hty h).2 with hcnt | hcnt | hcnt | hcnt
  all_goals
    rw [hcnt]
    rfl

/-- What is written fits into the body. -/
theorem bodyFields_length_le (h : bodyLen ev = some l) : (bodyFields ev l).length ≤ l := by
  cases hty : RemoteInputType.ofCode ev.type with
  | none =>
      unfold bodyLen at h
      rw [hty] at h
      cases h
  | some ty =>
      cases ty with
      | touch =>
          rw [bodyFields_touch_length hty h, (bodyLen_touch hty h).1]
          omega
      | input7 =>
          unfold bodyFields
          rw [hty]
          rcases bodyLen_input7 hty h with ⟨hsub, rfl, -⟩ | ⟨hsub, rfl⟩
          · simp only [hsub, if_pos, List.length_append, List.length_singleton, putU16_length,
              List.length_take]
            omega
          · rw [hsub]
            exact le_refl 12
      | message =>
          obtain ⟨-, rfl, hmin, -⟩ := bodyLen_message hty h
          unfold bodyFields
          rw [hty]
          simp only [List.length_append, List.length_singleton, putU16_length, List.length_take]
          omega
      | _ =>
          unfold bodyLen at h
          unfold bodyFields
          rw [hty] at h ⊢
          simp only at h ⊢
          try split_ifs at h
          all_goals
            cases h
            simp

/-! ## The packet -/

/-- The buffer with a packet at its front. -/
theorem storeAll_remoteInputWrites {ts : UInt32} {out : Bytes} (h : bodyLen ev = some l)
    (hout : packetLen l ≤ out.length) :
    storeAll out (remoteInputWrites ev ts l) =
      some (packet ev ts l ++ out.drop (packetLen l)) := by
  have hfits := bodyFields_length_le h
  have hflat := bodyWrites_bytes h
  -- the zeros, cut where the parts of the packet will be
  have hcut : List.replicate (packetLen l) (0 : UInt8) =
      List.replicate 5 0 ++ (List.replicate 5 0 ++ (List.replicate (bodyFields ev l).length 0 ++
        (List.replicate (l - (bodyFields ev l).length) 0 ++ (List.replicate 4 0 ++
          List.replicate ((l + 4) % 2) 0)))) := by
    simp only [List.replicate_append_replicate]
    congr 1
    rw [packetLen, remoteInputHdrLen]
    omega
  have hzeros : store out (0, List.replicate (packetLen l) 0) =
      some (List.replicate (packetLen l) 0 ++ out.drop (packetLen l)) := by
    conv_lhs => rw [← List.take_append_drop (packetLen l) out]
    exact store_split (a := []) rfl (by rw [List.length_replicate, List.length_take]; omega)
  have hbody : ∀ c : Bytes, storeAll (List.replicate 5 0 ++ (List.replicate 5 0 ++
      (List.replicate (bodyFields ev l).length 0 ++ c))) (bodyWrites ev l) =
        some (List.replicate 5 0 ++ (List.replicate 5 0 ++ (bodyFields ev l ++ c))) := by
    intro c
    rw [bodyWrites_consecutive h, ← List.append_assoc, storeAll_consecutive (by rfl), hflat,
      List.append_assoc]
    rw [hflat, List.length_replicate]
  have hheader : ∀ c : Bytes, storeAll (List.replicate 5 0 ++ c) (headerWrites ev (packetLen l)) =
      some (([headerFlags ev.flags1, classByte ev] ++ putU16 (UInt16.ofNat (packetLen l)) ++
        [ev.flags2]) ++ c) := by
    intro c
    have hwrites : headerWrites ev (packetLen l) = consecutive 0 [[headerFlags ev.flags1],
        [classByte ev], putU16 (UInt16.ofNat (packetLen l)), [ev.flags2]] := rfl
    rw [hwrites, ← List.nil_append (List.replicate 5 0 ++ c)]
    exact storeAll_consecutive rfl rfl
  have htime : ∀ a c : Bytes, a.length = remoteInputHdrLen + l →
      store (a ++ (List.replicate 4 0 ++ c)) (remoteInputHdrLen + l, putU32 ts) =
        some (a ++ (putU32 ts ++ c)) := fun a c hlen => store_split hlen rfl
  rw [remoteInputWrites, storeAll_append, storeAll_append, storeAll_append, storeAll_singleton,
    hzeros, hcut, Option.bind_some]
  simp only [List.append_assoc]
  rw [hbody, Option.bind_some, hheader, Option.bind_some, storeAll_singleton]
  have hpre := htime (([headerFlags ev.flags1, classByte ev] ++
    putU16 (UInt16.ofNat (packetLen l)) ++ [ev.flags2]) ++ List.replicate 5 0 ++ bodyFields ev l ++
      List.replicate (l - (bodyFields ev l).length) 0)
    (List.replicate ((l + 4) % 2) 0 ++ out.drop (packetLen l)) (by
      simp only [List.length_append, List.length_cons, List.length_nil, putU16_length,
        List.length_replicate, remoteInputHdrLen]
      omega)
  simpa only [packet, packetHeader, packetBody, List.append_assoc] using hpre

end Body

theorem packetHeader_length (ev : RemoteInputEvent) (l : ℕ) : (packetHeader ev l).length = 10 := rfl

theorem packetBody_length (h : bodyLen ev = some l) : (packetBody ev l).length = l := by
  have hfits := bodyFields_length_le h
  rw [packetBody, List.length_append, List.length_replicate]
  omega

theorem packet_length (ts : UInt32) (h : bodyLen ev = some l) :
    (packet ev ts l).length = packetLen l := by
  rw [packet, List.length_append, List.length_append, List.length_append, packetHeader_length,
    packetBody_length h, putU32_length, List.length_replicate]
  rfl

/-- **The function writes the packet** at the front of the buffer, or nothing. -/
theorem checked_remoteInputBuild_eq (ev : RemoteInputEvent) (ts : UInt32) {out : Bytes} {cap : ℕ}
    (hout : cap ≤ out.length) (outLen : ℕ) :
    Checked.remoteInputBuild ev ts out cap outLen =
      some (match remoteInputBuild ev ts cap with
        | none => (-1, out, outLen)
        | some p => (0, p ++ out.drop p.length, p.length)) := by
  unfold Checked.remoteInputBuild
  cases hl : bodyLen ev with
  | none =>
      simp only [remoteInputBuild, hl]
  | some l =>
      simp only
      by_cases hcap : cap < packetLen l
      · have hnone : remoteInputBuild ev ts cap = none := by
          unfold remoteInputBuild
          rw [hl]
          exact if_pos hcap
        rw [if_pos hcap, hnone]
      · have hsome : remoteInputBuild ev ts cap = some (packet ev ts l) :=
          remoteInputBuild_some.mpr ⟨l, hl, not_lt.mp hcap, rfl⟩
        rw [if_neg hcap, hsome, storeAll_remoteInputWrites hl (by omega)]
        simp only [packet_length ts hl]
        rfl

/-! ## The layout -/

/-- Every type has the same length field. -/
theorem bodyFields_front (h : bodyLen ev = some l) :
    bodyFields ev l =
      (bodyFields ev l).headD 0 :: (putU16 (lenfield l) ++ (bodyFields ev l).drop 3) := by
  cases hty : RemoteInputType.ofCode ev.type with
  | none =>
      unfold bodyLen at h
      rw [hty] at h
      cases h
  | some ty =>
      cases ty with
      | touch =>
          unfold bodyFields
          rw [hty]
          rfl
      | input7 =>
          unfold bodyFields
          rw [hty]
          rcases bodyLen_input7 hty h with ⟨hsub, -, -⟩ | ⟨hsub, rfl⟩
          · rw [hsub]
            rfl
          · rw [hsub]
            rfl
      | message =>
          unfold bodyFields
          rw [hty]
          rfl
      | _ =>
          unfold bodyLen at h
          unfold bodyFields
          rw [hty] at h ⊢
          simp only at h ⊢
          try split_ifs at h
          all_goals
            cases h
            rfl

/-- Where the parts of a packet stand in the buffer. -/
structure Layout (ev : RemoteInputEvent) (ts : UInt32) (l : ℕ) (out : Bytes) : Prop where
  total : (u16At out 2).toNat = packetLen l
  reserved : field 5 5 out = List.replicate 5 0
  bodyLength : (u16At out 11).toNat = l - 3 + l % 2
  touchTail : RemoteInputType.ofCode ev.type = some .touch →
    field (4 * ev.touchCnt.toNat) (14 + 5 * ev.touchCnt.toNat) out =
      List.replicate (4 * ev.touchCnt.toNat) 0
  timestamp : u32At out (10 + l) = ts
  pad : field ((l + 4) % 2) (14 + l) out = List.replicate ((l + 4) % 2) 0

theorem packet_layout (ts : UInt32) (h : bodyLen ev = some l) (rest : Bytes) :
    Layout ev ts l (packet ev ts l ++ rest) := by
  have hbounds := bodyLen_bounds h
  have hbody := packetBody_length h
  have hlen := packetHeader_length ev l
  constructor
  · have hat : u16At (packet ev ts l ++ rest) 2 = UInt16.ofNat (packetLen l) := by
      rw [packet, packetHeader]
      simp only [List.append_assoc]
      exact u16At_append [headerFlags ev.flags1, classByte ev] _ _ rfl
    rw [hat]
    exact UInt16.toNat_ofNat_of_lt' (packetLen_lt h)
  · rw [packet, packetHeader]
    simp only [List.append_assoc]
    rw [← List.append_assoc, ← List.append_assoc]
    exact field_append _ _ _ rfl rfl
  · have hat : u16At (packet ev ts l ++ rest) 11 = lenfield l := by
      rw [packet, packetBody, bodyFields_front h]
      simp only [List.append_assoc]
      rw [u16At_append_right (by rw [hlen]; decide), hlen]
      exact u16At_append [(bodyFields ev l).headD 0] _ _ rfl
    rw [hat]
    exact lenfield_toNat (by omega) (by omega)
  · intro hty
    have hfields := bodyFields_touch_length hty h
    have htail : l - (bodyFields ev l).length = 4 * ev.touchCnt.toNat := by
      rw [hfields, (bodyLen_touch hty h).1]
      omega
    rw [packet, packetBody, htail]
    simp only [List.append_assoc]
    rw [← List.append_assoc]
    apply field_append _ _ _ _ (List.length_replicate)
    rw [List.length_append, hlen, hfields]
    omega
  · rw [packet]
    simp only [List.append_assoc]
    rw [← List.append_assoc]
    apply u32At_append
    rw [List.length_append, hlen, hbody]
  · rw [packet, List.append_assoc]
    apply field_append _ _ _ _ (List.length_replicate)
    rw [List.length_append, List.length_append, hlen, hbody, putU32_length]
    omega

/-- Every write of a packet stays in it. -/
theorem remoteInputWrites_within (ts : UInt32) (h : bodyLen ev = some l) :
    ∀ w ∈ Checked.remoteInputWrites ev ts l, w.1 + w.2.length ≤ packetLen l := by
  have hfits := bodyFields_length_le h
  have hflat := bodyWrites_bytes h
  have hle : remoteInputHdrLen + l + 4 ≤ packetLen l := Nat.le_add_right _ _
  intro w hw
  rw [Checked.remoteInputWrites] at hw
  simp only [List.mem_append, List.mem_singleton] at hw
  rcases hw with ((rfl | hw) | hw) | rfl
  · show 0 + (List.replicate (packetLen l) (0 : UInt8)).length ≤ packetLen l
    rw [List.length_replicate, Nat.zero_add]
  · rw [bodyWrites_consecutive h] at hw
    have hwithin := Memory.consecutive_within hw
    rw [hflat] at hwithin
    omega
  · have hten : 10 ≤ packetLen l := by
      rw [packetLen, remoteInputHdrLen]
      omega
    rw [Checked.headerWrites] at hw
    simp only [List.mem_cons, List.not_mem_nil, or_false] at hw
    rcases hw with rfl | rfl | rfl | rfl
    all_goals
      simp only [List.length_singleton, putU16_length]
      omega
  · rw [putU32_length]
    exact hle

/-! ## The function -/

/-- **What `remote_input_build` does to the caller's memory.** -/
theorem checked_remoteInputBuild_memory (ev : RemoteInputEvent) (ts : UInt32) (out : Bytes)
    (cap outLen : ℕ) (hout : cap ≤ out.length) :
    ∃ rc out' outLen', Checked.remoteInputBuild ev ts out cap outLen = some (rc, out', outLen') ∧
      (rc = 0 ↔ ev.Valid ∧ ∃ l, bodyLen ev = some l ∧ packetLen l ≤ cap) ∧
      (rc ≠ 0 → rc = -1 ∧ out' = out ∧ outLen' = outLen) ∧
      ∀ l, rc = 0 → bodyLen ev = some l →
        outLen' = packetLen l ∧ Even (packetLen l) ∧ Layout ev ts l out' ∧
          (∀ w ∈ Checked.remoteInputWrites ev ts l, w.1 + w.2.length ≤ packetLen l) ∧
          out'.length = out.length ∧ out'.drop (packetLen l) = out.drop (packetLen l) := by
  rw [checked_remoteInputBuild_eq ev ts hout]
  cases hbuild : remoteInputBuild ev ts cap with
  | none =>
      refine ⟨-1, out, outLen, rfl, ?_, fun _ => ⟨rfl, rfl, rfl⟩, fun l hrc => by cases hrc⟩
      constructor
      · intro hrc
        cases hrc
      · rintro ⟨-, l, hl, hcap⟩
        have hsome : remoteInputBuild ev ts cap = some (packet ev ts l) :=
          remoteInputBuild_some.mpr ⟨l, hl, hcap, rfl⟩
        rw [hbuild] at hsome
        cases hsome
  | some p =>
      obtain ⟨l, hl, hcap, rfl⟩ := remoteInputBuild_some.mp hbuild
      have hlen := packet_length ts hl
      refine ⟨0, _, _, rfl, ?_, fun hrc => absurd rfl hrc, ?_⟩
      · exact ⟨fun _ => ⟨valid_iff_bodyLen.mpr ⟨l, hl⟩, l, hl, hcap⟩, fun _ => rfl⟩
      · intro l' _ hl'
        rw [hl] at hl'
        cases hl'
        refine ⟨hlen, packetLen_even l, packet_layout ts hl _, remoteInputWrites_within ts hl, ?_, ?_⟩
        · rw [hlen, List.length_append, hlen, List.length_drop]
          omega
        · rw [hlen]
          exact List.drop_left' hlen

theorem checked_remoteInputBuild_memory_key :
    ∃ rc out' outLen', Checked.remoteInputBuild
        { remoteInputEventZero with type := 1, keyF16a := 1 } 1000 (List.replicate 40 0xff) 32 7 =
          some (rc, out', outLen') ∧
      rc = 0 ∧ outLen' = 26 ∧ u32At out' 22 = 1000 ∧ out'.drop 26 = List.replicate 14 0xff := by
  obtain ⟨rc, out', outLen', hrun, hrc, -, hpacket⟩ := checked_remoteInputBuild_memory
    { remoteInputEventZero with type := 1, keyF16a := 1 } 1000 (List.replicate 40 0xff) 32 7
    (by decide)
  have hzero : rc = 0 := hrc.mpr ⟨Nat.zero_le 1, 12, rfl, by decide⟩
  obtain ⟨hlen, -, hlayout, -, -, hkept⟩ := hpacket 12 hzero rfl
  exact ⟨rc, out', outLen', hrun, hzero, hlen, hlayout.timestamp, hkept⟩

end

end HwPhoneLink.Remote
