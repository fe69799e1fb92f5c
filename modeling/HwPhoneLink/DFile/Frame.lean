import HwPhoneLink.Lib.Framing
import HwPhoneLink.Lib.Path

/-!
# The DFile frame codec

`dfile_frame.c`: an 8-byte header and a payload. An encoder returns `none`
where the source returns `-1`, a decoder where it returns `FALSE`. The entry
loops of the decoders are recursions on what is left of the payload.
-/

namespace HwPhoneLink.DFile

open BigEndian Path

def dfileFrameHeaderLen : ℕ := 8
def dfileFrameMaxLen : ℕ := 29433
def dfileFrameMaxSize : ℕ := 14720
def dfileDefaultFrameSize : ℕ := 1472
def dfileMinMtuSize : ℕ := 64
def dfileMaxFileNum : ℕ := 500
def dfileMaxFileNameLen : ℕ := 256
def dfileMaxFileSize : ℕ := 0x7FFFFFFFFF
def dfileMaxAckEntries : ℕ := 39
def dfileVersion : UInt32 := 1
def dfileSettingPayloadLen : ℕ := 100

inductive DFileFrameType : Type where
  | fileHeader | fileHeaderConfirm | fileTransferReq | fileData | fileDataAck
  | fileTransferDone | fileTransferDoneAck | setting | rst
deriving DecidableEq, Repr

def DFileFrameType.code : DFileFrameType → UInt8
  | .fileHeader => 1
  | .fileHeaderConfirm => 2
  | .fileTransferReq => 3
  | .fileData => 4
  | .fileDataAck => 5
  | .fileTransferDone => 6
  | .fileTransferDoneAck => 7
  | .setting => 8
  | .rst => 9

/-- The frame type of a type byte; `none` is what the dispatcher ignores. -/
def DFileFrameType.ofCode : UInt8 → Option DFileFrameType
  | 1 => some .fileHeader
  | 2 => some .fileHeaderConfirm
  | 3 => some .fileTransferReq
  | 4 => some .fileData
  | 5 => some .fileDataAck
  | 6 => some .fileTransferDone
  | 7 => some .fileTransferDoneAck
  | 8 => some .setting
  | 9 => some .rst
  | _ => none

@[simp] theorem DFileFrameType.ofCode_code (t : DFileFrameType) :
    DFileFrameType.ofCode t.code = some t := by
  cases t <;> rfl

theorem DFileFrameType.code_inj {t u : DFileFrameType} (h : t.code = u.code) : t = u := by
  have hof := congrArg DFileFrameType.ofCode h
  rw [ofCode_code, ofCode_code] at hof
  exact Option.some.inj hof

def dfileFlagDataContinue : UInt8 := 0x1
def dfileFlagDataEnd : UInt8 := 0x2
def dfileFlagDataRetran : UInt8 := 0x4

def dfileRstWithoutSetting : UInt16 := 201
def dfileRstFileWriteError : UInt16 := 202
def dfileRstNoEnoughStorage : UInt16 := 204
def dfileRstInternalError : UInt16 := 209
def dfileRstCancel : UInt16 := 210

/-! ## Header -/

structure DFileFrameHeader where
  type : UInt8
  flag : UInt8
  sessionId : UInt16
  transId : UInt16
  length : UInt16
deriving DecidableEq, Repr

def dfileFrameHeaderPack (h : DFileFrameHeader) : Option Bytes :=
  if h.length.toNat = 0 ∨ h.length.toNat > dfileFrameMaxLen then none
  else some (h.type :: h.flag :: (putU16 h.sessionId ++ (putU16 h.transId ++ putU16 h.length)))

inductive DFileUnpack : Type where
  | ok (h : DFileFrameHeader)
  | incomplete
  | invalid
deriving DecidableEq, Repr

def dfileFrameHeaderUnpack (bs : Bytes) : DFileUnpack :=
  if bs.length < dfileFrameHeaderLen then .incomplete
  else
    let h : DFileFrameHeader :=
      { type := u8At bs 0, flag := u8At bs 1, sessionId := u16At bs 2, transId := u16At bs 4
        length := u16At bs 6 }
    if h.length.toNat = 0 ∨ h.length.toNat > dfileFrameMaxLen then .invalid else .ok h

/-- The header and payload of a complete frame of the expected type. -/
def framePayload (frame : Bytes) (type : DFileFrameType) : Option (DFileFrameHeader × Bytes) :=
  match dfileFrameHeaderUnpack frame with
  | .ok h =>
      if h.type ≠ type.code then none
      else if frame.length ≠ dfileFrameHeaderLen + h.length.toNat then none
      else some (h, frame.drop dfileFrameHeaderLen)
  | _ => none

/-- The eight header bytes. A length the packer refuses leaves them as the
caller's buffer had them, here zero. -/
def writeHeader (type : DFileFrameType) (flag : UInt8) (transId : UInt16) (length : ℕ) : Bytes :=
  (dfileFrameHeaderPack
    { type := type.code, flag := flag, sessionId := 0, transId := transId
      length := UInt16.ofNat length }).getD (List.replicate dfileFrameHeaderLen 0)

/-- A frame as every encoder builds it. -/
def frame (type : DFileFrameType) (flag : UInt8) (transId : UInt16) (payload : Bytes) : Bytes :=
  writeHeader type flag transId payload.length ++ payload

/-! ## Encoders and decoders -/

structure DFileSetting where
  mtu : UInt16
  connType : UInt16
  dfileVersion : UInt32
  abmCapability : UInt32
  capability : UInt32
  dataFrameSize : UInt32
  capsCheck : UInt32
  productVersion : Bytes
  isSupport160m : UInt8
  isSupportMtp : UInt8
  mtpPort : UInt8
  headerEnc : UInt8
  mtpCapability : UInt32
  cipherCapability : UInt32
deriving DecidableEq, Repr

/-- `productVersion` as the encoder pads it. -/
def dfilePadVersion (productVersion : Bytes) : Bytes :=
  let pv := (cString productVersion).take 63
  pv ++ List.replicate (64 - pv.length) 0

def dfileSettingPayload (s : DFileSetting) : Bytes :=
  putU16 s.mtu ++ (putU16 s.connType ++ (putU32 s.dfileVersion ++ (putU32 s.abmCapability ++
    (putU32 s.capability ++ (putU32 s.dataFrameSize ++ (putU32 s.capsCheck ++
      (dfilePadVersion s.productVersion ++
        ([s.isSupport160m, s.isSupportMtp, s.mtpPort, s.headerEnc] ++
          (putU32 s.mtpCapability ++ putU32 s.cipherCapability)))))))))

def dfileEncodeSetting (cap : ℕ) (s : DFileSetting) : Option Bytes :=
  if cap < dfileFrameHeaderLen + dfileSettingPayloadLen then none
  else some (frame .setting 0 0 (dfileSettingPayload s))

def dfileDecodeSetting (bs : Bytes) : Option DFileSetting :=
  (framePayload bs .setting).bind fun (_, p) =>
    if p.length ≠ dfileSettingPayloadLen then none
    else some
      { mtu := u16At p 0, connType := u16At p 2, dfileVersion := u32At p 4
        abmCapability := u32At p 8, capability := u32At p 12, dataFrameSize := u32At p 16
        capsCheck := u32At p 20, productVersion := field 63 24 p ++ [0]
        isSupport160m := u8At p 88, isSupportMtp := u8At p 89, mtpPort := u8At p 90
        headerEnc := u8At p 91, mtpCapability := u32At p 92, cipherCapability := u32At p 96 }

structure DFileHeaderEntry where
  fileId : UInt16
  fileSize : UInt64
  name : Bytes
deriving DecidableEq, Repr

/-- One entry on the wire: id, size, name length, name. -/
def DFileHeaderEntry.bytes (e : DFileHeaderEntry) : Bytes :=
  putU16 e.fileId ++ (putU64 e.fileSize ++ (putU16 (UInt16.ofNat e.name.length) ++ e.name))

/-- How many entries fit from position `pos` on; `none` for a name that is too
long. -/
def fileHeaderFits (cap : ℕ) : ℕ → List DFileHeaderEntry → Option ℕ
  | _, [] => some 0
  | pos, e :: es =>
      if e.name.length ≥ dfileMaxFileNameLen then none
      else if pos + (12 + e.name.length) > cap then some 0
      else (fileHeaderFits cap (pos + (12 + e.name.length)) es).map (· + 1)

/-- The frame and the number of entries in it. -/
def dfileEncodeFileHeader (cap : ℕ) (transId nodeNumber : UInt16)
    (entries : List DFileHeaderEntry) (start count : ℕ) : Option (Bytes × ℕ) :=
  if count = 0 ∨ start + count > dfileMaxFileNum then none
  else
    let ents := (entries.drop start).take count
    match fileHeaderFits cap (dfileFrameHeaderLen + 2) ents with
    | none => none
    | some 0 => none
    | some (written + 1) =>
        some (frame .fileHeader 0 transId
          (putU16 nodeNumber ++ (ents.take (written + 1)).flatMap DFileHeaderEntry.bytes),
          written + 1)

/-- The entry loop. The second argument bounds the rounds; the length of the
rest is enough, as an entry takes more than twelve bytes. -/
def decodeEntries (capEntries : ℕ) :
    ℕ → List DFileHeaderEntry → Bytes → Option (List DFileHeaderEntry)
  | 0, entries, _ => some entries
  | fuel + 1, entries, p =>
      if p.length = 0 then some entries
      else if p.length < 12 then none
      else
        let id := u16At p 0
        let nameLen := (u16At p 10).toNat
        if id = 0 then
          -- a user data unit: the path type, then data to the end of the frame
          if p.length - 12 < 2 then none else some entries
        else if nameLen = 0 ∨ nameLen > dfileMaxFileNameLen then none
        else if p.length - 12 < nameLen then none
        else if entries.length ≥ capEntries then none
        else
          decodeEntries capEntries fuel
            (entries ++ [⟨id, u64At p 2, cString (field nameLen 12 p)⟩])
            (p.drop (12 + nameLen))

structure DFileHeaderFrame where
  transId : UInt16
  nodeNumber : UInt16
  entries : List DFileHeaderEntry
deriving DecidableEq, Repr

def dfileDecodeFileHeader (bs : Bytes) : Option DFileHeaderFrame :=
  (framePayload bs .fileHeader).bind fun (h, p) =>
    if p.length < 2 then none
    else
      let node := u16At p 0
      let capEntries := if node.toNat > 0 then node.toNat else dfileMaxFileNum
      (decodeEntries capEntries (p.length - 2) [] (p.drop 2)).map fun entries =>
        ⟨h.transId, node, entries⟩

def dfileEncodeIdlist (cap : ℕ) (type : DFileFrameType) (flag : UInt8) (transId : UInt16)
    (ids : List UInt16) : Option Bytes :=
  if ids.length > dfileMaxFileNum then none
  else if cap < dfileFrameHeaderLen + 2 * ids.length then none
  else some (frame type flag transId (ids.flatMap putU16))

structure DFileIdlist where
  transId : UInt16
  flag : UInt8
  ids : List UInt16
deriving DecidableEq, Repr

/-- The `n` two-byte words from offset `off` on. -/
def wordsAt (p : Bytes) (off n : ℕ) : List UInt16 :=
  (List.range n).map fun i => u16At p (off + 2 * i)

def dfileDecodeIdlist (bs : Bytes) (expectType : DFileFrameType) : Option DFileIdlist :=
  (framePayload bs expectType).bind fun (h, p) =>
    if p.length % 2 ≠ 0 then none
    else if p.length / 2 > dfileMaxFileNum then none
    else some ⟨h.transId, h.flag, wordsAt p 0 (p.length / 2)⟩

def dfileEncodeData (cap : ℕ) (transId : UInt16) (flag : UInt8) (fileId : UInt16)
    (blockSeq : UInt32) (payload : Bytes) : Option Bytes :=
  let frameLen := dfileFrameHeaderLen + 6 + payload.length
  if frameLen > dfileFrameMaxSize then none
  else if cap < frameLen then none
  else some (frame .fileData flag transId (putU16 fileId ++ (putU32 blockSeq ++ payload)))

structure DFileData where
  transId : UInt16
  flag : UInt8
  fileId : UInt16
  blockSeq : UInt32
  payload : Bytes
deriving DecidableEq, Repr

def dfileDecodeData (bs : Bytes) : Option DFileData :=
  (framePayload bs .fileData).bind fun (h, p) =>
    if p.length < 6 then none
    else some ⟨h.transId, h.flag, u16At p 0, u32At p 2, p.drop 6⟩

structure DFileAckEntry where
  fileId : UInt16
  lastSeq : UInt32
  c : UInt32
  d : UInt16
deriving DecidableEq, Repr

/-- The words every entry has. -/
def DFileAckEntry.bytes (e : DFileAckEntry) : Bytes := putU16 e.fileId ++ putU32 e.lastSeq

/-- The length field, which counts the entries. -/
def dfileAckLen (v2 : Bool) (n : ℕ) : ℕ := (if v2 then 12 else 6) + 37 * n

/-- The bytes written into the zeroed payload. -/
def dfileAckWritten (v2 : Bool) : List DFileAckEntry → Bytes
  | [] => []
  | e :: es =>
      (if v2 then e.bytes ++ (putU16 (UInt16.ofNat e.c.toNat) ++ (putU16 e.d ++ [0, 0]))
        else e.bytes) ++ es.flatMap DFileAckEntry.bytes

def dfileEncodeAck (cap : ℕ) (v2 : Bool) (transId : UInt16) (flag : UInt8)
    (entries : List DFileAckEntry) : Option Bytes :=
  if entries.length > dfileMaxAckEntries then none
  else
    let countField := dfileAckLen v2 entries.length
    if cap < dfileFrameHeaderLen + countField then none
    else
      let written := dfileAckWritten v2 entries
      some (frame .fileDataAck flag transId
        (written ++ List.replicate (countField - written.length) 0))

structure DFileAck where
  transId : UInt16
  flag : UInt8
  v2 : Bool
  entries : List DFileAckEntry
deriving DecidableEq, Repr

/-- Entry `i` of an ACK payload. -/
def ackEntryAt (v2 : Bool) (p : Bytes) (i : ℕ) : DFileAckEntry :=
  let off := if i = 0 then 0 else if v2 then 12 + 6 * (i - 1) else 6 * i
  { fileId := u16At p off, lastSeq := u32At p (off + 2)
    c := if v2 ∧ i = 0 then UInt32.ofNat (u16At p 6).toNat else 0
    d := if v2 ∧ i = 0 then u16At p 8 else 0 }

/-- The length encoding makes every entry lie inside the payload, so the bound
checks of the source's entry loops never fail. -/
def dfileDecodeAck (bs : Bytes) : Option DFileAck :=
  (framePayload bs .fileDataAck).bind fun (h, p) =>
    let lenField := h.length.toNat
    let isV2 := decide (lenField % 37 = 12)
    let isV1 := decide (lenField % 37 = 6)
    if !isV1 && !isV2 then none
    else if lenField ≥ 0x5c1 then none
    else
      let n := (lenField - (if isV2 then 12 else 6)) / 37
      some ⟨h.transId, h.flag, isV2, (List.range n).map (ackEntryAt isV2 p)⟩

def dfileEncodeRst (cap : ℕ) (transId code : UInt16) (ids : List UInt16) : Option Bytes :=
  if ids.length > dfileMaxFileNum then none
  else if cap < dfileFrameHeaderLen + (2 + 2 * ids.length) then none
  else some (frame .rst 0 transId (putU16 code ++ ids.flatMap putU16))

structure DFileRst where
  transId : UInt16
  code : UInt16
  ids : List UInt16
deriving DecidableEq, Repr

def dfileDecodeRst (bs : Bytes) : Option DFileRst :=
  (framePayload bs .rst).bind fun (h, p) =>
    if p.length < 2 ∨ p.length % 2 ≠ 0 then none
    else if (p.length - 2) / 2 > dfileMaxFileNum then none
    else some ⟨h.transId, u16At p 0, wordsAt p 2 ((p.length - 2) / 2)⟩

/-! ## Frames read back -/

/-- A payload whose length the header can carry. -/
def Carried (p : Bytes) : Prop := 0 < p.length ∧ p.length ≤ dfileFrameMaxLen

@[simp] theorem writeHeader_length (type : DFileFrameType) (flag : UInt8) (transId : UInt16)
    (length : ℕ) : (writeHeader type flag transId length).length = dfileFrameHeaderLen := by
  unfold writeHeader dfileFrameHeaderPack
  split <;> simp [dfileFrameHeaderLen]

theorem frame_length (type : DFileFrameType) (flag : UInt8) (transId : UInt16) (p : Bytes) :
    (frame type flag transId p).length = dfileFrameHeaderLen + p.length := by
  rw [frame, List.length_append, writeHeader_length]

theorem Carried.toNat {p : Bytes} (hp : Carried p) : (UInt16.ofNat p.length).toNat = p.length := by
  have hlt : p.length < 2 ^ 16 := lt_of_le_of_lt hp.2 (by decide)
  rw [UInt16.toNat_ofNat', Nat.mod_eq_of_lt hlt]

theorem Carried.writeHeader_eq {p : Bytes} (hp : Carried p) (type : DFileFrameType)
    (flag : UInt8) (transId : UInt16) :
    writeHeader type flag transId p.length =
      type.code :: flag :: (putU16 0 ++ (putU16 transId ++ putU16 (UInt16.ofNat p.length))) := by
  have hlen := hp.toNat
  have hok : ¬ ((UInt16.ofNat p.length).toNat = 0 ∨
      (UInt16.ofNat p.length).toNat > dfileFrameMaxLen) := by
    have := hp.1
    have := hp.2
    omega
  simp only [writeHeader, dfileFrameHeaderPack, if_neg hok, Option.getD_some]

/-- Header bytes with an accepted length unpack to their fields. -/
theorem dfileFrameHeaderUnpack_bytes (type flag : UInt8) (sessionId transId : UInt16)
    {length : UInt16} (hpos : 0 < length.toNat) (hmax : length.toNat ≤ dfileFrameMaxLen)
    (rest : Bytes) :
    dfileFrameHeaderUnpack (type :: flag ::
      (putU16 sessionId ++ (putU16 transId ++ (putU16 length ++ rest)))) =
      .ok ⟨type, flag, sessionId, transId, length⟩ := by
  set bs := type :: flag :: (putU16 sessionId ++ (putU16 transId ++ (putU16 length ++ rest)))
    with hbs
  have htype : u8At bs 0 = type := u8At_append [] _ _ rfl
  have hflag : u8At bs 1 = flag := u8At_append [type] _ _ rfl
  have hsession : u16At bs 2 = sessionId := u16At_append [type, flag] _ _ rfl
  have htrans : u16At bs 4 = transId :=
    u16At_append (type :: flag :: putU16 sessionId) _ _ (by simp)
  have hlength : u16At bs 6 = length := by
    have hsplit : bs = (type :: flag :: (putU16 sessionId ++ putU16 transId)) ++
        (putU16 length ++ rest) := by
      simp [hbs]
    rw [hsplit]
    exact u16At_append _ _ _ (by simp)
  have hshort : ¬ bs.length < dfileFrameHeaderLen := by
    simp [hbs, dfileFrameHeaderLen]
    omega
  have hok : ¬ (length.toNat = 0 ∨ length.toNat > dfileFrameMaxLen) := by omega
  simp only [dfileFrameHeaderUnpack, if_neg hshort, htype, hflag, hsession, htrans, hlength,
    if_neg hok]

theorem dfileFrameHeaderUnpack_frame (type : DFileFrameType) (flag : UInt8) (transId : UInt16)
    {p : Bytes} (hp : Carried p) (more : Bytes) :
    dfileFrameHeaderUnpack (frame type flag transId p ++ more) =
      .ok ⟨type.code, flag, 0, transId, UInt16.ofNat p.length⟩ := by
  have hlen := hp.toNat
  have hbuf : frame type flag transId p ++ more = type.code :: flag ::
      (putU16 0 ++ (putU16 transId ++ (putU16 (UInt16.ofNat p.length) ++ (p ++ more)))) := by
    rw [frame, hp.writeHeader_eq]
    simp
  rw [hbuf]
  apply dfileFrameHeaderUnpack_bytes
  · rw [hlen]
    exact hp.1
  · rw [hlen]
    exact hp.2

theorem dfileFrameHeaderUnpack_single (type : DFileFrameType) (flag : UInt8) (transId : UInt16)
    {p : Bytes} (hp : Carried p) :
    dfileFrameHeaderUnpack (frame type flag transId p) =
      .ok ⟨type.code, flag, 0, transId, UInt16.ofNat p.length⟩ := by
  have h := dfileFrameHeaderUnpack_frame type flag transId hp []
  rwa [List.append_nil] at h

theorem framePayload_frame {type : DFileFrameType} {flag : UInt8} {transId : UInt16} {p : Bytes}
    (hp : Carried p) :
    framePayload (frame type flag transId p) type =
      some (⟨type.code, flag, 0, transId, UInt16.ofNat p.length⟩, p) := by
  have hunpack := dfileFrameHeaderUnpack_single type flag transId hp
  have hlen : (frame type flag transId p).length =
      dfileFrameHeaderLen + (UInt16.ofNat p.length).toNat := by
    rw [frame_length, hp.toNat]
  have hdrop : (frame type flag transId p).drop dfileFrameHeaderLen = p := by
    rw [frame]
    exact List.drop_left' (writeHeader_length type flag transId p.length)
  simp [framePayload, hunpack, hlen, hdrop]

theorem framePayload_some {bs p : Bytes} {type : DFileFrameType} {h : DFileFrameHeader}
    (hp : framePayload bs type = some (h, p)) :
    dfileFrameHeaderUnpack bs = .ok h ∧ h.type = type.code ∧ p = bs.drop dfileFrameHeaderLen := by
  unfold framePayload at hp
  split at hp
  · rename_i h' hunpack
    split at hp
    · cases hp
    rename_i htype
    split at hp
    · cases hp
    cases hp
    exact ⟨hunpack, not_not.mp htype, rfl⟩
  · cases hp

theorem flatMap_putU16_length (ids : List UInt16) : (ids.flatMap putU16).length = 2 * ids.length := by
  induction ids with
  | nil => rfl
  | cons i ids ih =>
      rw [List.flatMap_cons, List.length_append, putU16_length, ih, List.length_cons]
      omega

theorem wordsAt_flatMap (ids : List UInt16) : ∀ (pre : Bytes) {off : ℕ}, pre.length = off →
    wordsAt (pre ++ ids.flatMap putU16) off ids.length = ids := by
  induction ids with
  | nil => intro pre off _; rfl
  | cons i ids ih =>
      intro pre off hoff
      have hhead : u16At (pre ++ (putU16 i ++ ids.flatMap putU16)) off = i :=
        u16At_append _ _ _ hoff
      have hnext : (pre ++ putU16 i).length = off + 2 := by simp [hoff]
      have htail := ih (pre ++ putU16 i) hnext
      rw [List.append_assoc] at htail
      have hshift : (fun k => u16At (pre ++ (putU16 i ++ ids.flatMap putU16)) (off + 2 * k)) ∘
          Nat.succ = fun k => u16At (pre ++ (putU16 i ++ ids.flatMap putU16)) (off + 2 + 2 * k) := by
        funext k
        rw [Function.comp_apply, Nat.succ_eq_add_one]
        congr 1
        omega
      rw [wordsAt, List.length_cons, List.range_succ_eq_map, List.map_cons, List.map_map,
        List.flatMap_cons, Nat.mul_zero, Nat.add_zero, hhead, hshift]
      exact congrArg (i :: ·) htail

/-- A byte string is a complete frame of the type. -/
def IsFrameOf (type : DFileFrameType) (f : Bytes) : Prop :=
  ∃ flag transId p, f = frame type flag transId p ∧ Carried p

theorem IsFrameOf.ne_nil {type : DFileFrameType} {f : Bytes} (h : IsFrameOf type f) : f ≠ [] := by
  obtain ⟨flag, transId, p, rfl, -⟩ := h
  rw [← List.length_pos_iff, frame_length, dfileFrameHeaderLen]
  omega

/-- The first byte of a frame gives its type. -/
theorem IsFrameOf.head {type : DFileFrameType} {f : Bytes} (h : IsFrameOf type f) :
    f.head? = some type.code := by
  obtain ⟨flag, transId, p, rfl, hp⟩ := h
  rw [frame, hp.writeHeader_eq]
  rfl

/-- A piece of a frame of the type. -/
def PieceOf (type : DFileFrameType) (w : Bytes) : Prop := ∃ f, IsFrameOf type f ∧ w <+: f

/-- The first byte of a piece gives the type of its frame. -/
theorem PieceOf.type_eq {type other : DFileFrameType} {w : Bytes} (h : PieceOf type w)
    (hhead : w.head? = some other.code) : type = other := by
  obtain ⟨f, hframe, more, rfl⟩ := h
  have hcode := hframe.head
  rw [List.head?_append, hhead] at hcode
  exact DFileFrameType.code_inj (Option.some.inj hcode).symm

theorem IsFrameOf.pieceOf {type : DFileFrameType} {f : Bytes} (h : IsFrameOf type f) :
    PieceOf type f := ⟨f, h, List.prefix_refl f⟩

/-! ## Id lists -/

theorem dfileEncodeIdlist_frame {cap : ℕ} {type : DFileFrameType} {flag : UInt8}
    {transId : UInt16} {ids : List UInt16} {f : Bytes} (hids : ids ≠ [])
    (h : dfileEncodeIdlist cap type flag transId ids = some f) :
    f = frame type flag transId (ids.flatMap putU16) ∧ Carried (ids.flatMap putU16) ∧
      ids.length ≤ dfileMaxFileNum := by
  unfold dfileEncodeIdlist at h
  split at h
  · cases h
  rename_i hmax
  split at h
  · cases h
  cases h
  have hpos : 0 < ids.length := List.length_pos_iff.mpr hids
  have hlen := flatMap_putU16_length ids
  refine ⟨rfl, ?_, Nat.le_of_not_gt hmax⟩
  rw [dfileMaxFileNum] at hmax
  constructor
  · omega
  · rw [dfileFrameMaxLen]
    omega

/-- **Id lists round trip.** -/
theorem dfileDecodeIdlist_encode {cap : ℕ} {type : DFileFrameType} {flag : UInt8}
    {transId : UInt16} {ids : List UInt16} {f : Bytes} (hids : ids ≠ [])
    (h : dfileEncodeIdlist cap type flag transId ids = some f) :
    dfileDecodeIdlist f type = some ⟨transId, flag, ids⟩ := by
  obtain ⟨rfl, hcarried, hmax⟩ := dfileEncodeIdlist_frame hids h
  have hlen := flatMap_putU16_length ids
  have hhalf : (ids.flatMap putU16).length / 2 = ids.length := by omega
  have heven : (ids.flatMap putU16).length % 2 = 0 := by omega
  have hwords : wordsAt (ids.flatMap putU16) 0 ids.length = ids := wordsAt_flatMap ids [] rfl
  simp only [dfileDecodeIdlist, framePayload_frame hcarried, Option.bind_some, heven, hhalf, hwords,
    ne_eq, not_true_eq_false, Nat.not_lt.mpr hmax, if_false]

/-! ## Resets -/

theorem dfileEncodeRst_frame {cap : ℕ} {transId code : UInt16} {ids : List UInt16} {f : Bytes}
    (h : dfileEncodeRst cap transId code ids = some f) :
    f = frame .rst 0 transId (putU16 code ++ ids.flatMap putU16) ∧
      Carried (putU16 code ++ ids.flatMap putU16) ∧ ids.length ≤ dfileMaxFileNum := by
  unfold dfileEncodeRst at h
  split at h
  · cases h
  rename_i hmax
  split at h
  · cases h
  cases h
  have hlen := flatMap_putU16_length ids
  refine ⟨rfl, ?_, Nat.le_of_not_gt hmax⟩
  rw [dfileMaxFileNum] at hmax
  constructor
  · rw [List.length_append, putU16_length]
    omega
  · rw [List.length_append, putU16_length, dfileFrameMaxLen]
    omega

/-- **Resets round trip.** -/
theorem dfileDecodeRst_encode {cap : ℕ} {transId code : UInt16} {ids : List UInt16} {f : Bytes}
    (h : dfileEncodeRst cap transId code ids = some f) :
    dfileDecodeRst f = some ⟨transId, code, ids⟩ := by
  obtain ⟨rfl, hcarried, hmax⟩ := dfileEncodeRst_frame h
  have hwords := wordsAt_flatMap ids (putU16 code) (putU16_length code)
  have hcode : u16At (putU16 code ++ ids.flatMap putU16) 0 = code := u16At_zero _ _
  have hlen : (putU16 code ++ ids.flatMap putU16).length = 2 + 2 * ids.length := by
    rw [List.length_append, putU16_length, flatMap_putU16_length]
  have hshape : ¬ (2 + 2 * ids.length < 2 ∨ (2 + 2 * ids.length) % 2 ≠ 0) := by omega
  have hcount : (2 + 2 * ids.length - 2) / 2 = ids.length := by omega
  simp only [dfileDecodeRst, framePayload_frame hcarried, Option.bind_some, hlen, hshape, hcount,
    hwords, hcode, Nat.not_lt.mpr hmax, gt_iff_lt, if_false]

/-! ## Data frames -/

theorem dfileEncodeData_frame {cap : ℕ} {transId : UInt16} {flag : UInt8} {fileId : UInt16}
    {blockSeq : UInt32} {payload f : Bytes}
    (h : dfileEncodeData cap transId flag fileId blockSeq payload = some f) :
    f = frame .fileData flag transId (putU16 fileId ++ (putU32 blockSeq ++ payload)) ∧
      Carried (putU16 fileId ++ (putU32 blockSeq ++ payload)) := by
  simp only [dfileEncodeData] at h
  split at h
  · cases h
  rename_i hmax
  split at h
  · cases h
  cases h
  have hlen : (putU16 fileId ++ (putU32 blockSeq ++ payload)).length = 6 + payload.length := by
    rw [List.length_append, List.length_append, putU16_length, putU32_length]
    omega
  simp only [dfileFrameMaxSize, dfileFrameHeaderLen] at hmax
  refine ⟨rfl, ?_, ?_⟩
  · omega
  · rw [dfileFrameMaxLen]
    omega

/-- **Data frames round trip.** -/
theorem dfileDecodeData_encode {cap : ℕ} {transId : UInt16} {flag : UInt8} {fileId : UInt16}
    {blockSeq : UInt32} {payload f : Bytes}
    (h : dfileEncodeData cap transId flag fileId blockSeq payload = some f) :
    dfileDecodeData f = some ⟨transId, flag, fileId, blockSeq, payload⟩ := by
  obtain ⟨rfl, hcarried⟩ := dfileEncodeData_frame h
  set p := putU16 fileId ++ (putU32 blockSeq ++ payload) with hp
  have hid : u16At p 0 = fileId := u16At_zero _ _
  have hseq : u32At p 2 = blockSeq := u32At_append _ _ _ (by simp)
  have hdrop : p.drop 6 = payload := by
    rw [hp, ← List.append_assoc]
    exact List.drop_left' (by simp)
  have hshort : ¬ p.length < 6 := by
    simp only [hp, List.length_append, putU16_length, putU32_length]
    omega
  simp only [dfileDecodeData, framePayload_frame hcarried, Option.bind_some, hshort, if_false, hid,
    hseq, hdrop]

/-! ## ACKs -/

@[simp] theorem DFileAckEntry.bytes_length (e : DFileAckEntry) : e.bytes.length = 6 := by
  simp [DFileAckEntry.bytes]

theorem flatMap_ackBytes_length (es : List DFileAckEntry) :
    (es.flatMap DFileAckEntry.bytes).length = 6 * es.length := by
  induction es with
  | nil => rfl
  | cons e es ih =>
      rw [List.flatMap_cons, List.length_append, DFileAckEntry.bytes_length, ih, List.length_cons]
      omega

theorem dfileEncodeAck_frame {cap : ℕ} {transId : UInt16} {flag : UInt8}
    {es : List DFileAckEntry} {f : Bytes}
    (h : dfileEncodeAck cap false transId flag es = some f) :
    ∃ pad, f = frame .fileDataAck flag transId (es.flatMap DFileAckEntry.bytes ++ pad) ∧
      Carried (es.flatMap DFileAckEntry.bytes ++ pad) ∧
      (es.flatMap DFileAckEntry.bytes ++ pad).length = 6 + 37 * es.length ∧
      es.length ≤ dfileMaxAckEntries := by
  simp only [dfileEncodeAck] at h
  split at h
  · cases h
  rename_i hmax
  split at h
  · cases h
  cases h
  have hwritten : dfileAckWritten false es = es.flatMap DFileAckEntry.bytes := by
    cases es <;> rfl
  have hwlen := flatMap_ackBytes_length es
  have hlen : (es.flatMap DFileAckEntry.bytes ++ List.replicate
      (dfileAckLen false es.length - (es.flatMap DFileAckEntry.bytes).length) (0 : UInt8)).length =
      6 + 37 * es.length := by
    rw [List.length_append, List.length_replicate, hwlen, dfileAckLen]
    simp only [Bool.false_eq_true, if_false]
    omega
  refine ⟨_, by rw [hwritten], ⟨?_, ?_⟩, hlen, Nat.le_of_not_gt hmax⟩
  · omega
  · rw [hlen, dfileFrameMaxLen]
    rw [dfileMaxAckEntries] at hmax
    omega

/-! ## Header entries -/

/-- An entry as the sender builds it. -/
structure DFileHeaderEntry.Sendable (e : DFileHeaderEntry) : Prop where
  id_ne : e.fileId ≠ 0
  name_ne : e.name ≠ []
  name_short : e.name.length < dfileMaxFileNameLen
  name_text : (0 : UInt8) ∉ e.name

theorem DFileHeaderEntry.bytes_length (e : DFileHeaderEntry) : e.bytes.length = 12 + e.name.length := by
  simp [DFileHeaderEntry.bytes]
  omega

theorem decodeEntries_bytes {capEntries : ℕ} (es : List DFileHeaderEntry) :
    ∀ (fuel : ℕ) (entries : List DFileHeaderEntry), (∀ e ∈ es, e.Sendable) →
      entries.length + es.length ≤ capEntries →
      (es.flatMap DFileHeaderEntry.bytes).length ≤ fuel →
      decodeEntries capEntries fuel entries (es.flatMap DFileHeaderEntry.bytes) =
        some (entries ++ es) := by
  induction es with
  | nil =>
      intro fuel entries _ _ _
      cases fuel <;> simp [decodeEntries]
  | cons e es ih =>
      intro fuel entries hes hcap hfuel
      have he := hes e (by simp)
      have hbytes := e.bytes_length
      rw [List.flatMap_cons, List.length_append, hbytes] at hfuel
      rw [List.flatMap_cons]
      set p := e.bytes ++ es.flatMap DFileHeaderEntry.bytes with hp
      have hplen : p.length = 12 + e.name.length + (es.flatMap DFileHeaderEntry.bytes).length := by
        rw [hp, List.length_append, hbytes]
      obtain ⟨fuel, rfl⟩ : ∃ m, fuel = m + 1 := ⟨fuel - 1, by omega⟩
      have hshort := he.name_short
      have hpos := List.length_pos_iff.mpr he.name_ne
      rw [dfileMaxFileNameLen] at hshort
      have hsplit : p = putU16 e.fileId ++ (putU64 e.fileSize ++
          (putU16 (UInt16.ofNat e.name.length) ++ (e.name ++
            es.flatMap DFileHeaderEntry.bytes))) := by
        simp [hp, DFileHeaderEntry.bytes]
      have hid : u16At p 0 = e.fileId := by
        rw [hsplit]
        exact u16At_zero _ _
      have hsize : u64At p 2 = e.fileSize := by
        rw [hsplit]
        exact u64At_append _ _ _ (by simp)
      have hnameLen : (u16At p 10).toNat = e.name.length := by
        have hword : u16At p 10 = UInt16.ofNat e.name.length := by
          rw [hsplit, ← List.append_assoc]
          exact u16At_append _ _ _ (by simp)
        rw [hword, UInt16.toNat_ofNat', Nat.mod_eq_of_lt (by omega)]
      have hname : field e.name.length 12 p = e.name := by
        rw [hsplit, ← List.append_assoc, ← List.append_assoc]
        exact field_append _ _ _ (by simp) rfl
      have hdrop : p.drop (12 + e.name.length) = es.flatMap DFileHeaderEntry.bytes := by
        rw [hp]
        exact List.drop_left' hbytes
      have hrest := ih fuel (entries ++ [e]) (fun e' he' => hes e' (List.mem_cons_of_mem _ he'))
        (by simp at hcap ⊢; omega) (by omega)
      rw [List.length_cons] at hcap
      have h1 : ¬ p.length = 0 := by omega
      have h2 : ¬ p.length < 12 := by omega
      have h3 : ¬ (e.name.length = 0 ∨ e.name.length > dfileMaxFileNameLen) := by
        rw [dfileMaxFileNameLen]
        omega
      have h4 : ¬ p.length - 12 < e.name.length := by omega
      have h5 : ¬ entries.length ≥ capEntries := by omega
      rw [decodeEntries, if_neg h1, if_neg h2]
      simp only [hid, hsize, hnameLen, hname, hdrop, he.id_ne, h3, h4, h5, if_false,
        cString_of_no_nul he.name_text, hrest, List.append_assoc, List.singleton_append]

theorem fileHeaderFits_le {cap : ℕ} (es : List DFileHeaderEntry) : ∀ {pos n : ℕ},
    fileHeaderFits cap pos es = some n →
      n ≤ es.length ∧ (0 < n → pos + ((es.take n).flatMap DFileHeaderEntry.bytes).length ≤ cap) := by
  induction es with
  | nil =>
      intro pos n h
      cases h
      simp
  | cons e es ih =>
      intro pos n h
      unfold fileHeaderFits at h
      split at h
      · cases h
      split at h
      · cases h
        simp
      · rename_i hfit
        obtain ⟨m, hm, rfl⟩ := Option.map_eq_some_iff.mp h
        obtain ⟨hle, hcap⟩ := ih hm
        constructor
        · rw [List.length_cons]
          omega
        · intro _
          rw [List.take_succ_cons, List.flatMap_cons, List.length_append, e.bytes_length]
          by_cases hm : 0 < m
          · have := hcap hm
            omega
          · obtain rfl : m = 0 := by omega
            rw [List.take_zero, List.flatMap_nil, List.length_nil]
            omega

theorem dfileEncodeFileHeader_frame {transId node : UInt16} {ents : List DFileHeaderEntry}
    {start count written cap : ℕ} {f : Bytes} (hcap : cap ≤ dfileFrameMaxLen)
    (h : dfileEncodeFileHeader cap transId node ents start count = some (f, written)) :
    let p := putU16 node ++ ((ents.drop start).take written).flatMap DFileHeaderEntry.bytes
    f = frame .fileHeader 0 transId p ∧ Carried p ∧
      0 < written ∧ written ≤ count ∧ start + written ≤ ents.length := by
  simp only [dfileEncodeFileHeader] at h
  split at h
  · cases h
  split at h
  · cases h
  · cases h
  rename_i m hfits
  cases h
  obtain ⟨hle, hfit⟩ := fileHeaderFits_le _ hfits
  have hwithin : m + 1 ≤ count ∧ start + (m + 1) ≤ ents.length := by
    rw [List.length_take, List.length_drop] at hle
    omega
  have htake : ((ents.drop start).take count).take (m + 1) = (ents.drop start).take (m + 1) := by
    rw [List.take_take, Nat.min_eq_left hwithin.1]
  rw [htake] at hfit ⊢
  have hroom := hfit (Nat.succ_pos m)
  rw [dfileFrameHeaderLen] at hroom
  refine ⟨rfl, ⟨?_, ?_⟩, Nat.succ_pos m, hwithin.1, hwithin.2⟩
  · rw [List.length_append, putU16_length]
    omega
  · rw [List.length_append, putU16_length]
    omega

/-- **Header frames round trip**: the frame decodes to the entries encoded. -/
theorem dfileDecodeFileHeader_encode {transId node : UInt16} {ents : List DFileHeaderEntry}
    {start count written cap : ℕ} {f : Bytes} (hcap : cap ≤ dfileFrameMaxLen)
    (hents : ∀ e ∈ ents, e.Sendable) (hnode : ents.length ≤ node.toNat) (hpos : 0 < node.toNat)
    (h : dfileEncodeFileHeader cap transId node ents start count = some (f, written)) :
    dfileDecodeFileHeader f = some ⟨transId, node, (ents.drop start).take written⟩ := by
  obtain ⟨rfl, hcarried, -⟩ := dfileEncodeFileHeader_frame hcap h
  set es := (ents.drop start).take written with hes
  set p := putU16 node ++ es.flatMap DFileHeaderEntry.bytes with hp
  have hplen : p.length = 2 + (es.flatMap DFileHeaderEntry.bytes).length := by
    rw [hp, List.length_append, putU16_length]
  have hsendable : ∀ e ∈ es, e.Sendable := fun e he =>
    hents e (List.mem_of_mem_drop (List.mem_of_mem_take he))
  have hnodeAt : u16At p 0 = node := u16At_zero _ _
  have hdrop : p.drop 2 = es.flatMap DFileHeaderEntry.bytes := by
    rw [hp]
    exact List.drop_left' (putU16_length node)
  have heslen : es.length ≤ node.toNat := by
    rw [hes, List.length_take, List.length_drop]
    omega
  have hdecode := decodeEntries_bytes es (p.length - 2) [] hsendable
    (show ([] : List DFileHeaderEntry).length + es.length ≤ node.toNat by simpa using heslen)
    (by omega)
  have hshort : ¬ p.length < 2 := by omega
  simp only [dfileDecodeFileHeader, framePayload_frame hcarried, Option.bind_some, hshort, if_false,
    hnodeAt, hdrop, gt_iff_lt, hpos, if_true, hdecode, Option.map_some, List.nil_append]

/-! ## Settings -/

theorem dfilePadVersion_length (productVersion : Bytes) :
    (dfilePadVersion productVersion).length = 64 := by
  have htake : ((cString productVersion).take 63).length ≤ 63 := List.length_take_le _ _
  simp only [dfilePadVersion, List.length_append, List.length_replicate]
  omega

theorem dfileEncodeSetting_frame {cap : ℕ} {s : DFileSetting} {f : Bytes}
    (h : dfileEncodeSetting cap s = some f) :
    f = frame .setting 0 0 (dfileSettingPayload s) ∧ Carried (dfileSettingPayload s) := by
  unfold dfileEncodeSetting at h
  split at h
  · cases h
  cases h
  have hlen : (dfileSettingPayload s).length = 100 := by
    simp [dfileSettingPayload, dfilePadVersion_length]
  refine ⟨rfl, ?_, ?_⟩
  · omega
  · rw [hlen, dfileFrameMaxLen]
    decide

end HwPhoneLink.DFile
