import HwPhoneLink.DFile.Frame

/-!
# The DFile codec in both directions

A frame that an encoder of `dfile_frame.c` makes is read back by its decoder, and a frame
that a decoder accepts is what its encoder makes of the values read, when it has what the
encoder fixes: session id 0, the default flag and transfer id, and a version padded with NULs.
-/

namespace HwPhoneLink.DFile

open BigEndian Path

/-! ## A frame written back -/

theorem framePayload_length {bs p : Bytes} {type : DFileFrameType} {h : DFileFrameHeader}
    (hp : framePayload bs type = some (h, p)) :
    bs.length = dfileFrameHeaderLen + h.length.toNat ∧ p.length = h.length.toNat ∧ Carried p := by
  obtain ⟨hunpack, -, rfl⟩ := framePayload_some hp
  unfold framePayload at hp
  rw [hunpack] at hp
  dsimp only at hp
  split at hp
  · cases hp
  split at hp
  · cases hp
  rename_i hlen
  have hsize := not_not.mp hlen
  have hdrop : (bs.drop dfileFrameHeaderLen).length = h.length.toNat := by
    rw [List.length_drop, hsize]
    exact Nat.add_sub_cancel_left _ _
  refine ⟨hsize, hdrop, ?_⟩
  suffices hfield : 0 < h.length.toNat ∧ h.length.toNat ≤ dfileFrameMaxLen by
    rw [← hdrop] at hfield
    exact hfield
  unfold dfileFrameHeaderUnpack at hunpack
  split at hunpack
  · cases hunpack
  dsimp only at hunpack
  split at hunpack
  · cases hunpack
  rename_i hok
  cases hunpack
  dsimp only
  omega

/-- **The bytes of a complete frame**: its header fields and the payload. -/
theorem framePayload_bytes {bs p : Bytes} {type : DFileFrameType} {h : DFileFrameHeader}
    (hp : framePayload bs type = some (h, p)) :
    bs = type.code :: h.flag ::
      (putU16 h.sessionId ++ (putU16 h.transId ++ (putU16 h.length ++ p))) := by
  obtain ⟨hsize, -, -⟩ := framePayload_length hp
  obtain ⟨hunpack, htype, rfl⟩ := framePayload_some hp
  rw [dfileFrameHeaderLen] at hsize ⊢
  unfold dfileFrameHeaderUnpack at hunpack
  split at hunpack
  · cases hunpack
  dsimp only at hunpack
  split at hunpack
  · cases hunpack
  cases hunpack
  dsimp only at htype hsize ⊢
  have hhead : bs.take 8 = [u8At bs 0] ++ ([u8At bs 1] ++ (putU16 (u16At bs 2) ++
      (putU16 (u16At bs 4) ++ putU16 (u16At bs 6)))) := by
    rw [singleton_u8At (by omega), singleton_u8At (by omega), putU16_u16At (by omega),
      putU16_u16At (by omega), putU16_u16At (by omega), field_add 2 2 4 bs, field_add 2 4 2 bs,
      field_add 1 6 1 bs, field_add 1 7 0 bs]
    rfl
  calc bs = bs.take 8 ++ bs.drop 8 := (List.take_append_drop 8 bs).symm
    _ = _ := by
      rw [hhead, htype]
      simp

/-- Bytes that spell a frame are one. -/
theorem framePayload_mk {type : DFileFrameType} {flag : UInt8} {sessionId transId length : UInt16}
    {p : Bytes} (hlen : length.toNat = p.length) (hp : Carried p) :
    framePayload (type.code :: flag ::
      (putU16 sessionId ++ (putU16 transId ++ (putU16 length ++ p)))) type =
      some (⟨type.code, flag, sessionId, transId, length⟩, p) := by
  set rest := putU16 sessionId ++ (putU16 transId ++ (putU16 length ++ p)) with hrest
  have hsize : (type.code :: flag :: rest).length = dfileFrameHeaderLen + length.toNat := by
    simp [hrest, dfileFrameHeaderLen, hlen]
    omega
  have hfields : dfileFrameHeaderUnpack (type.code :: flag :: rest) =
      .ok ⟨type.code, flag, sessionId, transId, length⟩ := by
    apply dfileFrameHeaderUnpack_bytes
    · rw [hlen]
      exact hp.1
    · rw [hlen]
      exact hp.2
  have hdrop : (type.code :: flag :: rest).drop dfileFrameHeaderLen = p := by
    have hsplit : type.code :: flag :: rest =
        (type.code :: flag :: (putU16 sessionId ++ (putU16 transId ++ putU16 length))) ++ p := by
      simp [hrest]
    rw [hsplit]
    exact List.drop_left' (by simp [dfileFrameHeaderLen])
  rw [framePayload, hfields]
  dsimp only
  rw [if_neg (not_not.mpr rfl), if_neg (not_not.mpr hsize), hdrop]

theorem framePayload_eq_frame {bs p : Bytes} {type : DFileFrameType} {h : DFileFrameHeader}
    (hp : framePayload bs type = some (h, p)) (hsession : u16At bs 2 = 0) :
    bs = frame type h.flag h.transId p ∧ Carried p := by
  obtain ⟨-, hlen, hcarried⟩ := framePayload_length hp
  have hbytes := framePayload_bytes hp
  have hzero : h.sessionId = 0 := by
    have hat : u16At bs 2 = h.sessionId := by
      rw [hbytes]
      exact u16At_append [type.code, h.flag] _ _ rfl
    rw [← hat, hsession]
  refine ⟨?_, hcarried⟩
  rw [frame, hcarried.writeHeader_eq, hlen, UInt16.ofNat_toNat, ← hzero]
  simpa using hbytes

theorem flatMap_wordsAt {p : Bytes} {off : ℕ} (n : ℕ) (h : off + 2 * n ≤ p.length) :
    (wordsAt p off n).flatMap putU16 = field (2 * n) off p := by
  induction n with
  | zero => rfl
  | succ n ih =>
      have hword : putU16 (u16At p (off + 2 * n)) = field 2 (off + 2 * n) p :=
        putU16_u16At (by omega)
      have hstep : wordsAt p off (n + 1) = wordsAt p off n ++ [u16At p (off + 2 * n)] := by
        rw [wordsAt, List.range_succ, List.map_append, wordsAt]
        rfl
      rw [hstep, List.flatMap_append, ih (by omega), List.flatMap_singleton, hword, field_add]
      rfl

@[simp] theorem wordsAt_length (p : Bytes) (off n : ℕ) : (wordsAt p off n).length = n := by
  simp [wordsAt]

theorem framePayload_of_bind {β : Type} {bs : Bytes} {type : DFileFrameType}
    {g : DFileFrameHeader × Bytes → Option β} {b : β}
    (h : (framePayload bs type).bind g = some b) :
    ∃ hd p, framePayload bs type = some (hd, p) ∧ g (hd, p) = some b := by
  obtain ⟨⟨hd, p⟩, hp, hg⟩ := Option.bind_eq_some_iff.mp h
  exact ⟨hd, p, hp, hg⟩

theorem framePayload_flag {bs p : Bytes} {type : DFileFrameType} {h : DFileFrameHeader}
    (hp : framePayload bs type = some (h, p)) : u8At bs 1 = h.flag ∧ u16At bs 4 = h.transId := by
  have hbytes := framePayload_bytes hp
  constructor
  · rw [hbytes]
    exact u8At_append [type.code] _ _ rfl
  · rw [hbytes]
    exact u16At_append (type.code :: h.flag :: putU16 h.sessionId) _ _ (by simp)

/-! ## Settings -/

/-- A text in an array of 64 bytes, the rest NUL. -/
def PaddedVersion (a : Bytes) : Prop :=
  ∃ text : Bytes, text.length ≤ 63 ∧ (0 : UInt8) ∉ text ∧
    a = text ++ List.replicate (64 - text.length) 0

theorem paddedVersion_pad (productVersion : Bytes) :
    PaddedVersion (dfilePadVersion productVersion) := by
  refine ⟨(cString productVersion).take 63, List.length_take_le _ _, ?_, rfl⟩
  exact fun hmem => cString_no_nul productVersion (List.mem_of_mem_take hmem)

/-- **What the receiver reads of the version** is its first 63 bytes. -/
theorem cString_dfilePadVersion (productVersion : Bytes) :
    cString (dfilePadVersion productVersion) = (cString productVersion).take 63 := by
  have hlen : ((cString productVersion).take 63).length ≤ 63 := List.length_take_le _ _
  refine cString_padded ?_ (by omega)
  exact fun hmem => cString_no_nul productVersion (List.mem_of_mem_take hmem)

/-- Padding what is read from a padded array gives the array back, the last byte being
set to NUL or not. -/
theorem PaddedVersion.pad_eq {a : Bytes} (h : PaddedVersion a) :
    dfilePadVersion a = a ∧ a.take 63 ++ [0] = a := by
  obtain ⟨text, hlen, htext, rfl⟩ := h
  constructor
  · have hread := cString_padded htext (n := 64 - text.length) (by omega)
    simp only [dfilePadVersion, hread, List.take_of_length_le hlen]
  · have hsplit : List.replicate (64 - text.length) (0 : UInt8) =
        List.replicate (63 - text.length) 0 ++ [0] := by
      rw [← List.replicate_succ']
      congr 1
      omega
    rw [hsplit, ← List.append_assoc]
    congr 1
    rw [List.take_left']
    simp
    omega

theorem dfileSettingPayload_length (s : DFileSetting) : (dfileSettingPayload s).length = 100 := by
  simp [dfileSettingPayload, dfilePadVersion_length]

/-- The fields of a setting payload. -/
def settingAt (p : Bytes) : DFileSetting :=
  { mtu := u16At p 0, connType := u16At p 2, dfileVersion := u32At p 4
    abmCapability := u32At p 8, capability := u32At p 12, dataFrameSize := u32At p 16
    capsCheck := u32At p 20, productVersion := field 63 24 p ++ [0]
    isSupport160m := u8At p 88, isSupportMtp := u8At p 89, mtpPort := u8At p 90
    headerEnc := u8At p 91, mtpCapability := u32At p 92, cipherCapability := u32At p 96 }

theorem settingAt_payload (s : DFileSetting) :
    settingAt (dfileSettingPayload s) =
      { s with productVersion := dfilePadVersion s.productVersion } := by
  have hpad := dfilePadVersion_length s.productVersion
  have hversion : field 63 24 (dfileSettingPayload s) ++ [0] = dfilePadVersion s.productVersion := by
    obtain ⟨-, htake⟩ := (paddedVersion_pad s.productVersion).pad_eq
    have hshort : field 63 24 (dfileSettingPayload s) =
        (dfilePadVersion s.productVersion).take 63 := by
      simp [dfileSettingPayload, field_append_right, field_zero_append, hpad]
    rw [hshort, htake]
  rw [settingAt, hversion]
  have hlast : u32At (putU32 s.cipherCapability) 0 = s.cipherCapability :=
    u32At_append_last [] _ rfl
  simp [dfileSettingPayload, hpad, hlast, u8At_append_right, u16At_append_right,
    u32At_append_right, u16At_zero, u32At_zero, u8At_cons_zero, u8At_cons_succ, u32At_cons_succ]

theorem dfileSettingPayload_settingAt {p : Bytes} (hp : p.length = 100)
    (hversion : PaddedVersion (field 64 24 p)) : dfileSettingPayload (settingAt p) = p := by
  have hver : dfilePadVersion (field 63 24 p ++ [0]) = field 64 24 p := by
    obtain ⟨hpad, htake⟩ := hversion.pad_eq
    have hshort : field 63 24 p = (field 64 24 p).take 63 := by
      rw [field, field, List.take_take]
      rfl
    rw [hshort, htake, hpad]
  have hbytes : [u8At p 88, u8At p 89, u8At p 90, u8At p 91] = field 4 88 p := by
    calc [u8At p 88, u8At p 89, u8At p 90, u8At p 91]
        = [u8At p 88] ++ ([u8At p 89] ++ ([u8At p 90] ++ [u8At p 91])) := rfl
      _ = field 4 88 p := by
        rw [singleton_u8At (by omega), singleton_u8At (by omega), singleton_u8At (by omega),
          singleton_u8At (by omega), field_add 1 1 90, field_add 1 2 89, field_add 1 3 88]
  rw [dfileSettingPayload, settingAt]
  dsimp only
  rw [hver, hbytes, putU16_u16At (by omega), putU16_u16At (by omega), putU32_u32At (by omega),
    putU32_u32At (by omega), putU32_u32At (by omega), putU32_u32At (by omega),
    putU32_u32At (by omega), putU32_u32At (by omega), putU32_u32At (by omega),
    field_add 4 4 92, field_add 4 8 88, field_add 64 12 24, field_add 4 76 20, field_add 4 80 16,
    field_add 4 84 12, field_add 4 88 8, field_add 4 92 4, field_add 2 96 2, field_add 2 98 0,
    field_all hp]

/-! ## The four codecs -/

/-- The codec of a frame; an id list says which type it expects. -/
inductive Codec : Type where
  | setting
  | idlist (expectType : DFileFrameType)
  | data
  | rst
deriving DecidableEq, Repr

/-- What a frame carries, with the header fields that its encoder takes. -/
inductive Message : Type where
  | setting (s : DFileSetting)
  | idlist (type : DFileFrameType) (m : DFileIdlist)
  | data (m : DFileData)
  | rst (m : DFileRst)
deriving DecidableEq, Repr

def Codec.type : Codec → DFileFrameType
  | .setting => .setting
  | .idlist expectType => expectType
  | .data => .fileData
  | .rst => .rst

def Codec.decode (bs : Bytes) : Codec → Option Message
  | .setting => (dfileDecodeSetting bs).map .setting
  | .idlist expectType => (dfileDecodeIdlist bs expectType).map (.idlist expectType)
  | .data => (dfileDecodeData bs).map .data
  | .rst => (dfileDecodeRst bs).map .rst

namespace Message

def codec : Message → Codec
  | .setting _ => .setting
  | .idlist type _ => .idlist type
  | .data _ => .data
  | .rst _ => .rst

def encode (cap : ℕ) : Message → Option Bytes
  | .setting s => dfileEncodeSetting cap s
  | .idlist type m => dfileEncodeIdlist cap type m.flag m.transId m.ids
  | .data m => dfileEncodeData cap m.transId m.flag m.fileId m.blockSeq m.payload
  | .rst m => dfileEncodeRst cap m.transId m.code m.ids

/-- The flag of the header. -/
def flag : Message → UInt8
  | .setting _ => 0
  | .idlist _ m => m.flag
  | .data m => m.flag
  | .rst _ => 0

/-- The transfer id of the header. -/
def transId : Message → UInt16
  | .setting _ => 0
  | .idlist _ m => m.transId
  | .data m => m.transId
  | .rst m => m.transId

/-- No caller announces an empty id list. -/
def HasIds : Message → Prop
  | .idlist _ m => m.ids ≠ []
  | _ => True

/-- The message at the other end: the version in its array of 64 bytes. -/
def received : Message → Message
  | .setting s => .setting { s with productVersion := dfilePadVersion s.productVersion }
  | m => m

/-- The payload that the encoder writes. -/
def payload : Message → Bytes
  | .setting s => dfileSettingPayload s
  | .idlist _ m => m.ids.flatMap putU16
  | .data m => putU16 m.fileId ++ (putU32 m.blockSeq ++ m.payload)
  | .rst m => putU16 m.code ++ m.ids.flatMap putU16

theorem encode_frame {m : Message} {cap : ℕ} {f : Bytes} (hids : m.HasIds)
    (h : m.encode cap = some f) :
    f = frame m.codec.type m.flag m.transId m.payload ∧ Carried m.payload := by
  cases m with
  | setting s => exact dfileEncodeSetting_frame h
  | idlist type m =>
      obtain ⟨hf, hcarried, -⟩ := dfileEncodeIdlist_frame hids h
      exact ⟨hf, hcarried⟩
  | data m => exact dfileEncodeData_frame h
  | rst m =>
      obtain ⟨hf, hcarried, -⟩ := dfileEncodeRst_frame h
      exact ⟨hf, hcarried⟩

theorem decode_encode {m : Message} {cap : ℕ} {f : Bytes} (hids : m.HasIds)
    (h : m.encode cap = some f) : m.codec.decode f = some m.received := by
  cases m with
  | setting s =>
      obtain ⟨rfl, hcarried⟩ := dfileEncodeSetting_frame h
      have hlen := dfileSettingPayload_length s
      have hback := settingAt_payload s
      have hdecode : dfileDecodeSetting (frame .setting 0 0 (dfileSettingPayload s)) =
          some (settingAt (dfileSettingPayload s)) := by
        rw [dfileDecodeSetting, framePayload_frame hcarried, Option.bind_some]
        exact if_neg (not_not.mpr hlen)
      show (dfileDecodeSetting _).map _ = _
      rw [hdecode, hback]
      rfl
  | idlist type m => exact congrArg (Option.map (Message.idlist type)) (dfileDecodeIdlist_encode hids h)
  | data m => exact congrArg (Option.map Message.data) (dfileDecodeData_encode h)
  | rst m => exact congrArg (Option.map Message.rst) (dfileDecodeRst_encode h)

end Message

/-- A frame as the encoders make it: no session, the flag and the transfer id that the
encoder fixes, no longer than a data frame, and a version padded with NULs. -/
structure Codec.Canonical (c : Codec) (bs : Bytes) : Prop where
  session : u16At bs 2 = 0
  size : bs.length ≤ dfileFrameMaxSize
  flag : c = .setting ∨ c = .rst → u8At bs 1 = 0
  transId : c = .setting → u16At bs 4 = 0
  version : c = .setting → PaddedVersion (field 64 (dfileFrameHeaderLen + 24) bs)

/-! ## Frames written back -/

theorem dfileEncodeSetting_decode {bs : Bytes} {s : DFileSetting} {cap : ℕ}
    (hc : Codec.setting.Canonical bs) (h : dfileDecodeSetting bs = some s)
    (hcap : bs.length ≤ cap) : dfileEncodeSetting cap s = some bs := by
  obtain ⟨hd, p, hp, hg⟩ := framePayload_of_bind h
  obtain ⟨hframe, -⟩ := framePayload_eq_frame hp hc.session
  obtain ⟨hflag, htrans⟩ := framePayload_flag hp
  obtain ⟨-, -, hdrop⟩ := framePayload_some hp
  dsimp only at hg
  split at hg
  · cases hg
  rename_i hlen
  have hlen : p.length = 100 := not_not.mp hlen
  have hsp : s = settingAt p := (Option.some.inj hg).symm
  have hver : PaddedVersion (field 64 24 p) := by
    have hv := hc.version rfl
    rwa [hdrop, field, List.drop_drop]
  have hpay : dfileSettingPayload s = p := by
    rw [hsp]
    exact dfileSettingPayload_settingAt hlen hver
  have hroom : ¬ cap < dfileFrameHeaderLen + dfileSettingPayloadLen := by
    rw [hframe, frame_length, hlen] at hcap
    exact Nat.not_lt.mpr hcap
  rw [dfileEncodeSetting, if_neg hroom, hpay, hframe, ← hflag, ← htrans, hc.flag (Or.inl rfl),
    hc.transId rfl]

theorem dfileEncodeIdlist_decode {bs : Bytes} {type : DFileFrameType} {m : DFileIdlist} {cap : ℕ}
    (hsession : u16At bs 2 = 0) (h : dfileDecodeIdlist bs type = some m) (hcap : bs.length ≤ cap) :
    dfileEncodeIdlist cap type m.flag m.transId m.ids = some bs := by
  obtain ⟨hd, p, hp, hg⟩ := framePayload_of_bind h
  obtain ⟨hframe, -⟩ := framePayload_eq_frame hp hsession
  dsimp only at hg
  split at hg
  · cases hg
  split at hg
  · cases hg
  rename_i heven hmax
  cases hg
  have hwords : (wordsAt p 0 (p.length / 2)).flatMap putU16 = p := by
    rw [flatMap_wordsAt _ (by omega)]
    exact field_all (by omega)
  have hroom : ¬ cap < dfileFrameHeaderLen + 2 * (p.length / 2) := by
    rw [hframe, frame_length] at hcap
    omega
  rw [dfileEncodeIdlist, wordsAt_length, if_neg hmax, if_neg hroom, hwords, hframe]

theorem dfileEncodeData_decode {bs : Bytes} {m : DFileData} {cap : ℕ}
    (hsession : u16At bs 2 = 0) (hsize : bs.length ≤ dfileFrameMaxSize)
    (h : dfileDecodeData bs = some m) (hcap : bs.length ≤ cap) :
    dfileEncodeData cap m.transId m.flag m.fileId m.blockSeq m.payload = some bs := by
  obtain ⟨hd, p, hp, hg⟩ := framePayload_of_bind h
  obtain ⟨hframe, -⟩ := framePayload_eq_frame hp hsession
  dsimp only at hg
  split at hg
  · cases hg
  rename_i hshort
  cases hg
  have hpay : putU16 (u16At p 0) ++ (putU32 (u32At p 2) ++ p.drop 6) = p := by
    rw [putU16_u16At (by omega), putU32_u32At (by omega), ← List.append_assoc, field_add 2 4 0 p]
    exact List.take_append_drop 6 p
  have hlen : dfileFrameHeaderLen + 6 + (p.drop 6).length = bs.length := by
    rw [hframe, frame_length, List.length_drop]
    omega
  rw [dfileEncodeData]
  dsimp only
  rw [hlen, if_neg (Nat.not_lt.mpr hsize), if_neg (Nat.not_lt.mpr hcap), hpay, hframe]

theorem dfileEncodeRst_decode {bs : Bytes} {m : DFileRst} {cap : ℕ}
    (hc : Codec.rst.Canonical bs) (h : dfileDecodeRst bs = some m) (hcap : bs.length ≤ cap) :
    dfileEncodeRst cap m.transId m.code m.ids = some bs := by
  obtain ⟨hd, p, hp, hg⟩ := framePayload_of_bind h
  obtain ⟨hframe, -⟩ := framePayload_eq_frame hp hc.session
  obtain ⟨hflag, -⟩ := framePayload_flag hp
  dsimp only at hg
  split at hg
  · cases hg
  split at hg
  · cases hg
  rename_i hshape hmax
  cases hg
  have hpay : putU16 (u16At p 0) ++ (wordsAt p 2 ((p.length - 2) / 2)).flatMap putU16 = p := by
    rw [putU16_u16At (by omega), flatMap_wordsAt _ (by omega), field_add 2 _ 0 p]
    exact field_all (by omega)
  have hroom : ¬ cap < dfileFrameHeaderLen + (2 + 2 * ((p.length - 2) / 2)) := by
    rw [hframe, frame_length] at hcap
    omega
  rw [dfileEncodeRst, wordsAt_length, if_neg hmax, if_neg hroom, hpay, hframe, ← hflag,
    hc.flag (Or.inr rfl)]

theorem Codec.encode_decode {c : Codec} {bs : Bytes} {m : Message} {cap : ℕ}
    (hc : c.Canonical bs) (h : c.decode bs = some m) (hcap : bs.length ≤ cap) :
    m.encode cap = some bs := by
  cases c with
  | setting =>
      obtain ⟨s, hs, rfl⟩ := Option.map_eq_some_iff.mp h
      exact dfileEncodeSetting_decode hc hs hcap
  | idlist type =>
      obtain ⟨m, hm, rfl⟩ := Option.map_eq_some_iff.mp h
      exact dfileEncodeIdlist_decode hc.session hm hcap
  | data =>
      obtain ⟨m, hm, rfl⟩ := Option.map_eq_some_iff.mp h
      exact dfileEncodeData_decode hc.session hc.size hm hcap
  | rst =>
      obtain ⟨m, hm, rfl⟩ := Option.map_eq_some_iff.mp h
      exact dfileEncodeRst_decode hc hm hcap

/-- **The four codecs, both ways.** What an encoder makes starts with a header of its type
and of the length of the rest, and the decoder returns the values encoded; a canonical frame
that a decoder accepts is what the encoder makes of the values returned. -/
theorem codec_round_trip :
    (∀ (m : Message) (cap : ℕ) (f : Bytes), m.HasIds → m.encode cap = some f →
      (∃ length : UInt16, length.toNat = f.length - dfileFrameHeaderLen ∧
        dfileFrameHeaderUnpack f = .ok ⟨m.codec.type.code, m.flag, 0, m.transId, length⟩) ∧
      m.codec.decode f = some m.received) ∧
    (∀ productVersion : Bytes,
      cString (dfilePadVersion productVersion) = (cString productVersion).take 63) ∧
    (∀ (c : Codec) (bs : Bytes) (m : Message), c.Canonical bs → c.decode bs = some m →
      ∀ cap ≥ bs.length, m.encode cap = some bs) := by
  refine ⟨?_, cString_dfilePadVersion, fun c bs m hc h cap hcap => Codec.encode_decode hc h hcap⟩
  intro m cap f hids h
  obtain ⟨hf, hcarried⟩ := Message.encode_frame hids h
  refine ⟨⟨UInt16.ofNat m.payload.length, ?_, ?_⟩, Message.decode_encode hids h⟩
  · rw [hcarried.toNat, hf, frame_length, Nat.add_sub_cancel_left]
  · rw [hf]
    exact dfileFrameHeaderUnpack_single _ _ _ hcarried

/-- A data frame with two bytes of payload. -/
theorem codec_round_trip_data :
    Codec.data.decode [4, 3, 0, 0, 0, 4, 0, 8, 0, 1, 0, 0, 2, 200, 9, 8] =
        some (.data ⟨4, 3, 1, 712, [9, 8]⟩) ∧
      (Message.data ⟨4, 3, 1, 712, [9, 8]⟩).encode 16 =
        some [4, 3, 0, 0, 0, 4, 0, 8, 0, 1, 0, 0, 2, 200, 9, 8] := by
  have hdecode := (codec_round_trip.1 (.data ⟨4, 3, 1, 712, [9, 8]⟩) 16
    [4, 3, 0, 0, 0, 4, 0, 8, 0, 1, 0, 0, 2, 200, 9, 8] trivial (by decide)).2
  refine ⟨hdecode, codec_round_trip.2.2 .data _ _ ?_ hdecode 16 (by decide)⟩
  have hother : Codec.data ≠ Codec.setting := by decide
  exact ⟨by decide, by decide, by decide, fun h => absurd h hother, fun h => absurd h hother⟩

/-! ## ACKs of both layouts -/

/-- What the decoder returns of an entry: the words past the sequence number only for the
first entry of a V2 frame, the third word cut to 16 bits. -/
def DFileAckEntry.received (v2 first : Bool) (e : DFileAckEntry) : DFileAckEntry :=
  if v2 && first then { e with c := UInt32.ofNat (e.c.toNat % 2 ^ 16) }
  else { e with c := 0, d := 0 }

def ackReceived (v2 : Bool) : List DFileAckEntry → List DFileAckEntry
  | [] => []
  | e :: es => e.received v2 true :: es.map (·.received v2 false)

theorem map_ackEntryAt_later (v2 : Bool) (es : List DFileAckEntry) (post : Bytes) :
    ∀ (pre : Bytes) {k : ℕ}, 0 < k →
      pre.length = (if v2 then 12 + 6 * (k - 1) else 6 * k) →
      (List.range es.length).map (fun i => ackEntryAt v2 (pre ++
        (es.flatMap DFileAckEntry.bytes ++ post)) (k + i)) = es.map (·.received v2 false) := by
  induction es with
  | nil => intro pre k _ _; rfl
  | cons e es ih =>
      intro pre k hk hpre
      set buf := pre ++ ((e :: es).flatMap DFileAckEntry.bytes ++ post) with hbuf
      have hnext : (pre ++ e.bytes).length =
          (if v2 then 12 + 6 * (k + 1 - 1) else 6 * (k + 1)) := by
        rw [List.length_append, hpre, e.bytes_length]
        split <;> omega
      have htail := ih (pre ++ e.bytes) (Nat.succ_pos k) hnext
      have hsplit : (pre ++ e.bytes) ++ (es.flatMap DFileAckEntry.bytes ++ post) = buf := by
        simp [hbuf]
      have hid : u16At buf pre.length = e.fileId := by
        rw [hbuf, List.flatMap_cons, DFileAckEntry.bytes]
        simp only [List.append_assoc]
        exact u16At_append _ _ _ rfl
      have hseq : u32At buf (pre.length + 2) = e.lastSeq := by
        have hmid : buf = (pre ++ putU16 e.fileId) ++ (putU32 e.lastSeq ++
            (es.flatMap DFileAckEntry.bytes ++ post)) := by
          simp [hbuf, DFileAckEntry.bytes]
        rw [hmid]
        exact u32At_append _ _ _ (by simp)
      have hhead : ackEntryAt v2 buf k = e.received v2 false := by
        have hk0 : k ≠ 0 := by omega
        simp [ackEntryAt, hk0, ← hpre, hid, hseq, DFileAckEntry.received]
      have hshift : (fun i => ackEntryAt v2 buf (k + i)) ∘ Nat.succ =
          fun i => ackEntryAt v2 buf (k + 1 + i) := by
        funext i
        rw [Function.comp_apply, Nat.succ_eq_add_one]
        congr 1
        omega
      rw [hsplit] at htail
      rw [List.length_cons, List.range_succ_eq_map, List.map_cons, List.map_map, Nat.add_zero,
        hhead, hshift, htail, List.map_cons]

theorem dfileAckWritten_length (v2 : Bool) (es : List DFileAckEntry) :
    (dfileAckWritten v2 es).length ≤ dfileAckLen v2 es.length := by
  cases es with
  | nil => simp [dfileAckWritten]
  | cons e es =>
      cases v2 <;> simp [dfileAckWritten, dfileAckLen] <;> omega

/-- All entries of an encoded payload. -/
theorem map_ackEntryAt_written (v2 : Bool) (es : List DFileAckEntry) (post : Bytes) :
    (List.range es.length).map (ackEntryAt v2 (dfileAckWritten v2 es ++ post)) =
      ackReceived v2 es := by
  cases es with
  | nil => rfl
  | cons e es =>
      set head := if v2 then e.bytes ++ (putU16 (UInt16.ofNat e.c.toNat) ++ (putU16 e.d ++ [0, 0]))
        else e.bytes with hhead
      have hbuf : dfileAckWritten v2 (e :: es) ++ post =
          head ++ (es.flatMap DFileAckEntry.bytes ++ post) := by
        rw [dfileAckWritten, List.append_assoc]
      have hlen : head.length = (if v2 then 12 + 6 * (1 - 1) else 6 * 1) := by
        cases v2 <;> simp [hhead]
      have hlater := map_ackEntryAt_later v2 es post head Nat.one_pos hlen
      have hfirst : ackEntryAt v2 (head ++ (es.flatMap DFileAckEntry.bytes ++ post)) 0 =
          e.received v2 true := by
        cases v2 with
        | false =>
            simp [ackEntryAt, hhead, DFileAckEntry.bytes, DFileAckEntry.received, u16At_zero,
              u32At_zero, u32At_append_right]
        | true =>
            simp [ackEntryAt, hhead, DFileAckEntry.bytes, DFileAckEntry.received, u16At_zero,
              u32At_zero, u16At_append_right, u32At_append_right]
      have hshift : ackEntryAt v2 (head ++ (es.flatMap DFileAckEntry.bytes ++ post)) ∘ Nat.succ =
          fun i => ackEntryAt v2 (head ++ (es.flatMap DFileAckEntry.bytes ++ post)) (1 + i) := by
        funext i
        rw [Function.comp_apply, Nat.succ_eq_one_add]
      rw [hbuf, List.length_cons, List.range_succ_eq_map, List.map_cons, List.map_map, hfirst,
        hshift, hlater, ackReceived]

/-- The length field tells the layout and the count. -/
theorem dfileAckLen_inj {v2 v2' : Bool} {n n' : ℕ} (h : dfileAckLen v2 n = dfileAckLen v2' n') :
    v2 = v2' ∧ n = n' := by
  cases v2 <;> cases v2' <;> simp [dfileAckLen] at h ⊢ <;> omega

theorem dfileEncodeAck_some {v2 : Bool} {cap : ℕ} {transId : UInt16} {flag : UInt8}
    {es : List DFileAckEntry} {f : Bytes} (h : dfileEncodeAck cap v2 transId flag es = some f) :
    ∃ p, f = frame .fileDataAck flag transId p ∧ p.length = dfileAckLen v2 es.length ∧
      es.length ≤ dfileMaxAckEntries ∧ ∃ post, p = dfileAckWritten v2 es ++ post := by
  simp only [dfileEncodeAck] at h
  split at h
  · cases h
  rename_i hmax
  split at h
  · cases h
  cases h
  have hle := dfileAckWritten_length v2 es
  refine ⟨_, rfl, ?_, Nat.le_of_not_gt hmax, _, rfl⟩
  rw [List.length_append, List.length_replicate]
  omega

theorem dfileDecodeAck_payload {bs p : Bytes} {h : DFileFrameHeader} {v2 : Bool} {n : ℕ}
    (hp : framePayload bs .fileDataAck = some (h, p)) (hlen : h.length.toNat = dfileAckLen v2 n)
    (hn : n ≤ dfileMaxAckEntries) :
    dfileDecodeAck bs = some ⟨h.transId, h.flag, v2, (List.range n).map (ackEntryAt v2 p)⟩ := by
  rw [dfileMaxAckEntries] at hn
  rw [dfileDecodeAck, hp, Option.bind_some]
  cases v2 with
  | false =>
      have hlen : h.length.toNat = 6 + 37 * n := hlen
      have hmod : h.length.toNat % 37 = 6 := by omega
      have hcount : (h.length.toNat - 6) / 37 = n := by omega
      have hbound : ¬ h.length.toNat ≥ 0x5c1 := by omega
      simp [hmod, hcount, hbound]
  | true =>
      have hlen : h.length.toNat = 12 + 37 * n := hlen
      have hmod : h.length.toNat % 37 = 12 := by omega
      have hcount : (h.length.toNat - 12) / 37 = n := by omega
      have hbound : ¬ h.length.toNat ≥ 0x5c1 := by omega
      simp [hmod, hcount, hbound]

/-- **ACKs round trip in both layouts.** -/
theorem dfileDecodeAck_encode {v2 : Bool} {cap : ℕ} {transId : UInt16} {flag : UInt8}
    {es : List DFileAckEntry} {f : Bytes} (h : dfileEncodeAck cap v2 transId flag es = some f) :
    dfileDecodeAck f = some ⟨transId, flag, v2, ackReceived v2 es⟩ := by
  obtain ⟨p, rfl, hlen, hmax, post, hpost⟩ := dfileEncodeAck_some h
  have hcarried : Carried p := by
    rw [dfileMaxAckEntries] at hmax
    rw [Carried, hlen, dfileFrameMaxLen]
    cases v2 <;> simp [dfileAckLen] <;> omega
  have hfield : (UInt16.ofNat p.length).toNat = dfileAckLen v2 es.length := by
    rw [hcarried.toNat, hlen]
  rw [dfileDecodeAck_payload (framePayload_frame hcarried) hfield hmax, hpost,
    map_ackEntryAt_written]

/-- The count that a length field of one of the two forms gives. -/
theorem dfileAckLen_of_mod {len : ℕ}
    (hkind : ¬ (!decide (len % 37 = 6) && !decide (len % 37 = 12)) = true) (hbound : ¬ len ≥ 0x5c1) :
    len = dfileAckLen (decide (len % 37 = 12))
        ((len - (if decide (len % 37 = 12) then 12 else 6)) / 37) ∧
      (len - (if decide (len % 37 = 12) then 12 else 6)) / 37 ≤ dfileMaxAckEntries := by
  rw [dfileMaxAckEntries]
  by_cases hv2 : len % 37 = 12
  · simp only [hv2, decide_true, if_true, dfileAckLen]
    omega
  · have hv1 : len % 37 = 6 := by
      by_contra hne
      simp [hv2, hne] at hkind
    simp only [hv2, decide_false, Bool.false_eq_true, if_false, dfileAckLen]
    omega

/-- **Only these lengths are accepted.** -/
theorem dfileDecodeAck_some {bs : Bytes} {a : DFileAck} (h : dfileDecodeAck bs = some a) :
    ∃ hd p v2 n, framePayload bs .fileDataAck = some (hd, p) ∧ n ≤ dfileMaxAckEntries ∧
      p.length = dfileAckLen v2 n := by
  obtain ⟨hd, p, hp, hg⟩ := framePayload_of_bind h
  obtain ⟨-, hlen, -⟩ := framePayload_length hp
  dsimp only at hg
  split at hg
  · cases hg
  split at hg
  · cases hg
  rename_i hkind hbound
  obtain ⟨hform, hmax⟩ := dfileAckLen_of_mod hkind hbound
  exact ⟨hd, p, _, _, hp, hmax, hlen.trans hform⟩

/-- **The ACK codec.** Up to 39 entries of either layout come back, the lengths are all
different, and a frame of any other length is rejected. -/
theorem dfile_ack_codec :
    (∀ (v2 : Bool) (transId : UInt16) (flag : UInt8) (es : List DFileAckEntry),
      es.length ≤ dfileMaxAckEntries →
      ∀ cap ≥ dfileFrameHeaderLen + dfileAckLen v2 es.length,
        ∃ f, dfileEncodeAck cap v2 transId flag es = some f ∧
          f.length = dfileFrameHeaderLen + dfileAckLen v2 es.length ∧
          dfileDecodeAck f = some ⟨transId, flag, v2, ackReceived v2 es⟩) ∧
    (∀ (v2 v2' : Bool) (n n' : ℕ), dfileAckLen v2 n = dfileAckLen v2' n' → v2 = v2' ∧ n = n') ∧
    (∀ bs : Bytes,
      (∀ (v2 : Bool) (n : ℕ), n ≤ dfileMaxAckEntries →
        bs.length ≠ dfileFrameHeaderLen + dfileAckLen v2 n) →
      dfileDecodeAck bs = none) := by
  refine ⟨?_, fun _ _ _ _ => dfileAckLen_inj, ?_⟩
  · intro v2 transId flag es hes cap hcap
    obtain ⟨f, hf⟩ : ∃ f, dfileEncodeAck cap v2 transId flag es = some f := by
      rw [dfileEncodeAck, if_neg (Nat.not_lt.mpr hes)]
      exact ⟨_, if_neg (Nat.not_lt.mpr hcap)⟩
    obtain ⟨p, hframe, hlen, -⟩ := dfileEncodeAck_some hf
    refine ⟨f, hf, ?_, dfileDecodeAck_encode hf⟩
    rw [hframe, frame_length, hlen]
  · intro bs hother
    cases hdec : dfileDecodeAck bs with
    | none => rfl
    | some a =>
        obtain ⟨hd, p, v2, n, hp, hn, hlen⟩ := dfileDecodeAck_some hdec
        obtain ⟨hsize, hplen, -⟩ := framePayload_length hp
        exact absurd (by rw [hsize, ← hplen, hlen]) (hother v2 n hn)

/-- One V2 entry, the third word cut. -/
theorem dfile_ack_codec_v2 :
    ∃ f, dfileEncodeAck 57 true 4 0 [⟨1, 4, 0x11234, 0x5678⟩] = some f ∧ f.length = 57 ∧
      dfileDecodeAck f = some ⟨4, 0, true, [⟨1, 4, 0x1234, 0x5678⟩]⟩ :=
  dfile_ack_codec.1 true 4 0 [⟨1, 4, 0x11234, 0x5678⟩] (by decide) 57 (by decide)

end HwPhoneLink.DFile
