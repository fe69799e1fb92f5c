import HwPhoneLink.DFile.BlockSteps
import HwPhoneLink.DFile.Gate
import HwPhoneLink.DFile.Announce
import HwPhoneLink.DFile.HeaderGrammar
import HwPhoneLink.DFile.Written

/-!
# What a sender writes

Of the frames that leave a connection, the settings are its own, the headers list the files
of its transfer and the data frames hold their blocks. `content` gives the files of this side,
which do not change while they are sent.
-/

namespace HwPhoneLink.DFile

open BigEndian Path Framing Transitions HwPhoneLink.Testfile

/-- What `fstat` and `pread` see of the files. -/
structure FilesAre (content : Bytes → Bytes) (env : DcEnv) : Prop where
  size : ∀ {path n}, env.fstat path = some n → n = (content path).length
  read : ∀ {path off n block}, env.pread path off n = some block →
    block <+: (content path).drop off

/-- The frame holds a block of a file of the transfer. -/
def SentBlock (content : Bytes → Bytes) (blockSize : ℕ) (t : DCTrans) (d : DFileData) : Prop :=
  d.transId = t.transId ∧ ∃ f ∈ t.files, d.fileId = f.fileId ∧ ∃ path seq, f.fd = some path ∧
    d.blockSeq = UInt32.ofNat seq ∧ d.payload.length = dcBlockLen f.size blockSize seq ∧
    d.payload <+: (content path).drop (seq * blockSize)

/-- What a write tells the peer, if it is a whole frame. -/
structure SourcePiece (content : Bytes → Bytes) (blockSize : ℕ) (tx : Option DCTrans)
    (w : Bytes) : Prop where
  setting : ∀ s, dfileDecodeSetting w = some s → dcBlockSize s = dfileDefaultFrameSize
  header : ∀ t h, tx = some t → dfileDecodeFileHeader w = some h → h.transId = t.transId ∧
    h.nodeNumber = UInt16.ofNat t.files.length ∧
    ∀ e ∈ h.entries, e ∈ t.files.map DCFile.headerEntry
  data : ∀ d, dfileDecodeData w = some d → ∃ t, tx = some t ∧ t.phase ≠ .idle ∧
    SentBlock content blockSize t d

/-- A file that is being sent. -/
structure SourceFile (content : Bytes → Bytes) (f : DCFile) : Prop where
  id_ne : f.fileId ≠ 0
  name_text : (0 : UInt8) ∉ f.name
  size_le : f.size ≤ dfileMaxFileSize
  file : ∃ path, f.fd = some path ∧ f.size = (content path).length

structure DcSource (content : Bytes → Bytes) (c : DFileConn) : Prop where
  set : ∀ t, c.tx = some t → c.negotiated = true
  ids : ∀ t, c.tx = some t → (t.files.map fun f => f.fileId).Nodup
  files : ∀ t, c.tx = some t → ∀ f ∈ t.files, SourceFile content f
  pieces : ∀ w ∈ c.out, SourcePiece content c.blockSize c.tx w

/-! ## Whole frames -/

section
variable {type other : DFileFrameType} {w : Bytes}

/-- A piece of a frame has a payload only if it is the frame. -/
theorem whole_of_framePayload {flag : UInt8} {transId : UInt16} {p : Bytes}
    {x : DFileFrameHeader × Bytes} (hp : Carried p) (hpre : w <+: frame type flag transId p)
    (h : framePayload w other = some x) : w = frame type flag transId p := by
  obtain ⟨more, hmore⟩ := hpre
  obtain ⟨hlen, -⟩ := framePayload_length h
  obtain ⟨hunpack, -⟩ := framePayload_some h
  -- the header gives the length of the whole frame
  have hlong : dfileFrameHeaderLen ≤ w.length := by rw [hlen]; exact Nat.le_add_right _ _
  have hwhole := dfileFrameHeaderUnpack_append hlong more
  rw [hmore, dfileFrameHeaderUnpack_single _ _ _ hp, hunpack] at hwhole
  have hlength : w.length = (frame type flag transId p).length := by
    rw [hlen, ← DFileUnpack.ok.inj hwhole, frame_length, hp.toNat]
  have hnil : more.length = 0 := by
    have hsum := congrArg List.length hmore
    rw [List.length_append] at hsum
    omega
  rw [← hmore, List.length_eq_zero_iff.mp hnil, List.append_nil]

theorem PieceOf.no_payload (h : PieceOf type w) (hne : type ≠ other) :
    framePayload w other = none := by
  rcases hp : framePayload w other with _ | ⟨hd, p⟩
  · rfl
  · refine absurd (h.type_eq ?_) hne
    rw [framePayload_bytes hp]
    rfl

theorem PieceOf.no_setting (h : PieceOf type w) (hne : type ≠ .setting) :
    dfileDecodeSetting w = none := by
  rw [dfileDecodeSetting, h.no_payload hne]
  rfl

theorem PieceOf.no_header (h : PieceOf type w) (hne : type ≠ .fileHeader) :
    dfileDecodeFileHeader w = none := by
  rw [dfileDecodeFileHeader, h.no_payload hne]
  rfl

/-- The entries that are decoded are among those that were encoded. A name may be empty,
which the decoder refuses. -/
theorem decodeEntries_taken {cap : ℕ} (es : List DFileHeaderEntry) :
    ∀ {fuel : ℕ} {entries res : List DFileHeaderEntry},
      (∀ e ∈ es, e.fileId ≠ 0 ∧ e.name.length < dfileMaxFileNameLen ∧ (0 : UInt8) ∉ e.name) →
      decodeEntries cap fuel entries (es.flatMap DFileHeaderEntry.bytes) = some res →
      ∀ e ∈ res, e ∈ entries ∨ e ∈ es := by
  induction es with
  | nil =>
      intro fuel entries res _ h e he
      have hres : entries = res := by
        cases fuel <;> exact Option.some.inj h
      exact Or.inl (hres ▸ he)
  | cons x es ih =>
      intro fuel entries res hes h e he
      cases fuel with
      | zero => exact Or.inl (Option.some.inj h ▸ he)
      | succ fuel =>
          obtain ⟨hid, hshort, htext⟩ := hes x List.mem_cons_self
          rw [List.flatMap_cons] at h
          rcases Nat.eq_zero_or_pos x.name.length with hnil | hpos
          · -- an entry without a name
            have hlen : (x.bytes ++ es.flatMap DFileHeaderEntry.bytes).length =
                12 + (es.flatMap DFileHeaderEntry.bytes).length := by
              rw [List.length_append, x.bytes_length, hnil]
            have hword : (u16At (x.bytes ++ es.flatMap DFileHeaderEntry.bytes) 10).toNat = 0 := by
              have hat : u16At (x.bytes ++ es.flatMap DFileHeaderEntry.bytes) 10 =
                  UInt16.ofNat x.name.length := by
                rw [x.bytes_append, ← List.append_assoc]
                exact u16At_append _ _ _ (by simp)
              rw [hat, hnil]
              rfl
            rw [decodeEntries, if_neg (by omega), if_neg (by omega)] at h
            simp only [x.id_at, if_neg hid, hword, true_or, if_true] at h
            cases h
          · rw [decodeEntries_entry ⟨hid, hpos, Nat.le_of_lt hshort⟩] at h
            split at h
            · cases h
            · have hcut : x.cut = x := by
                rw [DFileHeaderEntry.cut, cString_of_no_nul htext]
              rw [hcut] at h
              rcases ih (fun e he => hes e (List.mem_cons_of_mem x he)) h e he with hold | hnew
              · rw [List.mem_append, List.mem_singleton] at hold
                rcases hold with hold | rfl
                · exact Or.inl hold
                · exact Or.inr List.mem_cons_self
              · exact Or.inr (List.mem_cons_of_mem x hnew)

/-- A header frame lists some of the entries. -/
theorem dfileDecodeFileHeader_taken {transId node : UInt16} {ents : List DFileHeaderEntry}
    {start count written cap : ℕ} {f : Bytes} {h : DFileHeaderFrame} (hcap : cap ≤ dfileFrameMaxLen)
    (hents : ∀ e ∈ ents, e.fileId ≠ 0 ∧ (0 : UInt8) ∉ e.name)
    (hf : dfileEncodeFileHeader cap transId node ents start count = some (f, written))
    (hpre : w <+: f) (hw : dfileDecodeFileHeader w = some h) :
    h.transId = transId ∧ h.nodeNumber = node ∧ ∀ e ∈ h.entries, e ∈ ents := by
  obtain ⟨hframe, hcarried, -⟩ := dfileEncodeFileHeader_frame hcap hf
  obtain ⟨hd, q, hq, -⟩ := framePayload_of_bind hw
  rw [hframe] at hpre
  have hwhole := whole_of_framePayload hcarried hpre hq
  have hlong : ∀ es : Bytes, ¬ (putU16 node ++ es).length < 2 := by
    intro es
    rw [List.length_append, putU16_length]
    omega
  simp only [hwhole, dfileDecodeFileHeader, framePayload_frame hcarried, Option.bind_some,
    if_neg (hlong _), u16At_zero] at hw
  obtain ⟨res, hres, rfl⟩ := Option.map_eq_some_iff.mp hw
  rw [List.drop_left' (putU16_length node)] at hres
  refine ⟨rfl, rfl, fun e he => ?_⟩
  have htaken : ∀ e ∈ (ents.drop start).take written, e ∈ ents := fun e he =>
    List.mem_of_mem_drop (List.mem_of_mem_take he)
  have hmem := decodeEntries_taken _ (fun e he => ⟨(hents e (htaken e he)).1,
    dfileEncodeFileHeader_short hf e he, (hents e (htaken e he)).2⟩) hres e he
  exact htaken e (hmem.resolve_left List.not_mem_nil)

end

/-! ## One write -/

section
variable {content : Bytes → Bytes} {blockSize : ℕ} {tx : Option DCTrans} {t : DCTrans} {w : Bytes}

/-- A piece of a frame that says nothing about the files. -/
theorem SourcePiece.other {type : DFileFrameType} (h : PieceOf type w)
    (htype : type ≠ .setting ∧ type ≠ .fileHeader ∧ type ≠ .fileData) :
    SourcePiece content blockSize tx w where
  setting s hs := by
    rw [h.no_setting htype.1] at hs
    cases hs
  header t x _ hx := by
    rw [h.no_header htype.2.1] at hx
    cases hx
  data d hd := by
    rw [h.no_data htype.2.2] at hd
    cases hd

/-- A setting names no block size, so the peer takes the default. -/
theorem SourcePiece.localSetting {cap : ℕ} {f : Bytes}
    (hf : dfileEncodeSetting cap dcLocalSetting = some f) (hw : w <+: f) :
    SourcePiece content blockSize tx w := by
  obtain ⟨hframe, hcarried⟩ := dfileEncodeSetting_frame hf
  have hpiece : PieceOf .setting w := ⟨f, ⟨_, _, _, hframe, hcarried⟩, hw⟩
  constructor
  · intro s hs
    obtain ⟨hd, q, hq, -⟩ := framePayload_of_bind hs
    have hwhole : w = f := hframe ▸ whole_of_framePayload hcarried (hframe ▸ hw) hq
    have hback : (dfileDecodeSetting f).map Message.setting =
        some (.setting { dcLocalSetting with
          productVersion := dfilePadVersion dcLocalSetting.productVersion }) :=
      Message.decode_encode (m := .setting dcLocalSetting) trivial hf
    rw [← hwhole, hs] at hback
    cases hback
    rfl
  · intro t x _ hx
    rw [hpiece.no_header (by decide)] at hx
    cases hx
  · intro d hd
    rw [hpiece.no_data (by decide)] at hd
    cases hd

/-- A header lists files of the transfer. -/
theorem SourcePiece.list {start count written cap : ℕ} {f : Bytes} (htx : tx = some t)
    (hcap : cap ≤ dfileFrameMaxLen)
    (hents : ∀ f ∈ t.files, f.fileId ≠ 0 ∧ (0 : UInt8) ∉ f.name)
    (hf : dfileEncodeFileHeader cap t.transId (UInt16.ofNat t.files.length)
      (t.files.map DCFile.headerEntry) start count = some (f, written)) (hw : w <+: f) :
    SourcePiece content blockSize tx w := by
  obtain ⟨hframe, hcarried, -⟩ := dfileEncodeFileHeader_frame hcap hf
  have hpiece : PieceOf .fileHeader w := ⟨f, ⟨_, _, _, hframe, hcarried⟩, hw⟩
  constructor
  · intro s hs
    rw [hpiece.no_setting (by decide)] at hs
    cases hs
  · intro u h hu hdecode
    obtain rfl : t = u := Option.some.inj (htx.symm.trans hu)
    refine dfileDecodeFileHeader_taken hcap ?_ hf hw hdecode
    intro e he
    obtain ⟨file, hfile, rfl⟩ := List.mem_map.mp he
    exact hents file hfile
  · intro d hd
    rw [hpiece.no_data (by decide)] at hd
    cases hd

/-- A data frame holds a block. -/
theorem SourcePiece.block {env : DcEnv} {cap seq : ℕ} {flag : UInt8} {file : DCFile}
    {block f : Bytes} (hfiles : FilesAre content env) (htx : tx = some t)
    (hphase : t.phase ≠ .idle) (hfile : file ∈ t.files) (hfd : ∃ path, file.fd = some path)
    (hread : dcReadBlock env blockSize file seq = some block)
    (hf : dfileEncodeData cap t.transId flag file.fileId (UInt32.ofNat seq) block = some f)
    (hw : w <+: f) : SourcePiece content blockSize tx w := by
  obtain ⟨hframe, hcarried⟩ := dfileEncodeData_frame hf
  have hpiece : PieceOf .fileData w := ⟨f, ⟨_, _, _, hframe, hcarried⟩, hw⟩
  constructor
  · intro s hs
    rw [hpiece.no_setting (by decide)] at hs
    cases hs
  · intro u h _ hdecode
    rw [hpiece.no_header (by decide)] at hdecode
    cases hdecode
  · intro d hd
    obtain ⟨hd', q, hq, -⟩ := framePayload_of_bind hd
    have hwhole : w = f := hframe ▸ whole_of_framePayload hcarried (hframe ▸ hw) hq
    rw [hwhole, dfileDecodeData_encode hf] at hd
    cases hd
    obtain ⟨path, hpath⟩ := hfd
    obtain ⟨hpread, hlen⟩ := Option.filter_eq_some_iff.mp hread
    rw [hpath] at hpread
    exact ⟨t, htx, hphase, rfl, file, hfile, rfl, path, seq, hpath, rfl, of_decide_eq_true hlen,
      hfiles.read hpread⟩

end

/-! ## The transfer goes on -/

/-- What of a file the peer is told, and where it comes from. -/
def DCFile.source (f : DCFile) : (UInt16 × ℕ × Bytes) × Option Bytes := (f.listed, f.fd)

/-- The transfers send the same files under the same number. -/
structure SameSource (t t' : DCTrans) : Prop where
  transId : t'.transId = t.transId
  files : t'.files.map DCFile.source = t.files.map DCFile.source
  started : t.phase ≠ .idle → t'.phase ≠ .idle

section
variable {content : Bytes → Bytes} {blockSize : ℕ} {tx tx' : Option DCTrans} {t t' : DCTrans}

theorem SameSource.refl (t : DCTrans) : SameSource t t := ⟨rfl, rfl, id⟩

theorem sameSource_rel (o : Option DCTrans) : Option.Rel SameSource o o := by
  cases o with
  | none => exact .none
  | some t => exact .some (.refl t)

theorem SameSource.length (h : SameSource t t') : t'.files.length = t.files.length := by
  have hlen := congrArg List.length h.files
  rwa [List.length_map, List.length_map] at hlen

theorem SameSource.map {α : Type} (h : SameSource t t') (π : (UInt16 × ℕ × Bytes) × Option Bytes → α) :
    (t'.files.map fun f => π f.source) = t.files.map fun f => π f.source := by
  have hmap := congrArg (List.map π) h.files
  rwa [List.map_map, List.map_map] at hmap

theorem SameSource.entries (h : SameSource t t') :
    t'.files.map DCFile.headerEntry = t.files.map DCFile.headerEntry :=
  h.map fun s => DFileHeaderEntry.mk s.1.1 (UInt64.ofNat s.1.2.1) s.1.2.2

/-- A file of the transfer before is there after it. -/
theorem SameSource.file (h : SameSource t t') {f : DCFile} (hf : f ∈ t.files) :
    ∃ f' ∈ t'.files, f'.source = f.source :=
  mem_of_map_eq h.files.symm hf

theorem SentBlock.congr {d : DFileData} (h : SentBlock content blockSize t d)
    (hsame : SameSource t t') : SentBlock content blockSize t' d := by
  obtain ⟨hid, f, hf, hfile, path, seq, hpath, hseq, hlen, hread⟩ := h
  obtain ⟨f', hf', hsource⟩ := hsame.file hf
  have hlisted : f'.listed = f.listed := congrArg Prod.fst hsource
  have hfd : f'.fd = f.fd := congrArg Prod.snd hsource
  have hsize : f'.size = f.size := congrArg (fun x => x.2.1) hlisted
  have hfileId : f'.fileId = f.fileId := congrArg Prod.fst hlisted
  exact ⟨hid.trans hsame.transId.symm, f', hf', hfile.trans hfileId.symm, path, seq,
    hfd.trans hpath, hseq, hsize ▸ hlen, hread⟩

theorem SourcePiece.congr {w : Bytes} (h : SourcePiece content blockSize tx w)
    (hrel : Option.Rel SameSource tx tx') : SourcePiece content blockSize tx' w where
  setting := h.setting
  header t' x ht' hx := by
    obtain ⟨t, ht, hsame⟩ := rel_some_right hrel ht'
    rw [hsame.transId, hsame.length, hsame.entries]
    exact h.header t x ht hx
  data d hd := by
    obtain ⟨t, ht, hphase, hblock⟩ := h.data d hd
    obtain ⟨t', ht', hsame⟩ := rel_some_left hrel ht
    exact ⟨t', ht', hsame.started hphase, hblock.congr hsame⟩

/-- Without a transfer a block size says nothing. -/
theorem SourcePiece.unsent {blockSize' : ℕ} {w : Bytes}
    (h : SourcePiece content blockSize none w) : SourcePiece content blockSize' none w where
  setting := h.setting
  header _ _ ht := by cases ht
  data d hd := by
    obtain ⟨t, ht, -⟩ := h.data d hd
    cases ht

theorem SourceFile.congr {f f' : DCFile} (h : SourceFile content f) (hsame : f'.source = f.source) :
    SourceFile content f' := by
  have hlisted : f'.listed = f.listed := congrArg Prod.fst hsame
  have hfd : f'.fd = f.fd := congrArg Prod.snd hsame
  have hid : f'.fileId = f.fileId := congrArg Prod.fst hlisted
  have hsize : f'.size = f.size := congrArg (fun x => x.2.1) hlisted
  have hname : f'.name = f.name := congrArg (fun x => x.2.2) hlisted
  exact ⟨hid ▸ h.id_ne, hname ▸ h.name_text, hsize ▸ h.size_le, by rw [hfd, hsize]; exact h.file⟩

/-- The entry that is exchanged sends the same file. -/
theorem sameSource_exchanged {pre post : List DCFile} {file file' : DCFile}
    (hfiles : t.files = pre ++ file :: post) (hfiles' : t'.files = pre ++ file' :: post)
    (hsource : file'.source = file.source) (hid : t'.transId = t.transId)
    (hphase : t'.phase = t.phase) : SameSource t t' where
  transId := hid
  files := by rw [hfiles, hfiles', List.map_append, List.map_append, List.map_cons, List.map_cons,
    hsource]
  started := by
    rw [hphase]
    exact id

theorem foldl_ackEntry_map {α : Type} (π : DCFile → α)
    (hπ : ∀ lastSeq f, π (ackFile lastSeq f) = π f) (es : List DFileAckEntry) :
    ∀ files : List DCFile, (es.foldl ackEntry files).map π = files.map π := by
  induction es with
  | nil => intro files; rfl
  | cons e es ih =>
      intro files
      refine (ih _).trans ?_
      unfold ackEntry
      split
      · rfl
      · exact updateFile_map π (hπ e.lastSeq.toNat) files

theorem ackFile_source (lastSeq : ℕ) (f : DCFile) : (ackFile lastSeq f).source = f.source := by
  unfold ackFile
  split <;> rfl

theorem txCtrlUpdate_source (env : DcEnv) (type : DFileFrameType) (ids : List UInt16) (t : DCTrans) :
    (txCtrlUpdate env type ids t).files.map DCFile.source = t.files.map DCFile.source := by
  have hconfirm : (confirmFiles ids t.files).map DCFile.source = t.files.map DCFile.source :=
    confirmFiles_map DCFile.source (fun _ => rfl) ids t.files
  simp only [txCtrlUpdate]
  split <;> split <;> first | exact hconfirm | rfl

end

/-! ## One move -/

/-- What a move hands to the socket. -/
inductive DcHands (env : DcEnv) (late : Prop) (c : DFileConn) (f : Bytes) : Prop
  | setting {cap : ℕ} : dfileEncodeSetting cap dcLocalSetting = some f → DcHands env late c f
  | list {t : DCTrans} {start count written : ℕ} :
      c.tx = some t →
      dfileEncodeFileHeader (dfileFrameMaxSize + 16) t.transId (UInt16.ofNat t.files.length)
        (t.files.map DCFile.headerEntry) start count = some (f, written) →
      DcHands env late c f
  | block {t : DCTrans} {file : DCFile} {seq : ℕ} {flag : UInt8} {block : Bytes} :
      c.tx = some t → t.phase = .txSending ∨ t.phase = .txWaitDone → file ∈ t.files →
      dcReadBlock env c.blockSize file seq = some block →
      dfileEncodeData (dfileFrameMaxSize + 16) t.transId flag file.fileId (UInt32.ofNat seq)
        block = some f →
      DcHands env late c f
  | done {t : DCTrans} :
      c.rx = some t →
      t.phase = .rxWaitData ∨ late ∨ (env.send c.out.length).takes = false →
      rxComplete t = true →
      dfileEncodeIdlist dcIdlistCap .fileTransferDone 0 t.transId
        (t.files.map fun f => f.fileId) = some f →
      DcHands env late c f
  | other {type : DFileFrameType} :
      IsFrameOf type f →
      type ≠ .setting ∧ type ≠ .fileHeader ∧ type ≠ .fileData ∧ type ≠ .fileTransferDone →
      DcHands env late c f

section
variable {content : Bytes → Bytes} {sha256Hex : Bytes → Bytes} {env : DcEnv} {late : Prop}
  {fr : Option Bytes} {c c' : DFileConn} {t : DCTrans} {f : Bytes}

theorem DcSends.hands (hbase : DcBase c) (hs : DcSends env late c f) : DcHands env late c f := by
  cases hs with
  | rst hf =>
      obtain ⟨hframe, hcarried, -⟩ := dfileEncodeRst_frame hf
      exact .other ⟨_, _, _, hframe, hcarried⟩ (by decide)
  | header htx _ _ hf => exact .list htx hf
  | @confirm t type f hrx _ hnode htype hf =>
      have hne : (t.hdr.map fun e => e.fileId) ≠ [] := by
        rw [Ne, List.map_eq_nil_iff]
        rintro hnil
        rw [hnil, List.length_nil, Nat.le_zero] at hnode
        exact (hbase.rx t hrx).node (UInt16.toNat_inj.mp hnode)
      obtain ⟨hframe, hcarried, -⟩ := dfileEncodeIdlist_frame hne hf
      refine .other ⟨_, _, _, hframe, hcarried⟩ ?_
      rcases htype with rfl | rfl <;> decide
  | data htx hphase hfile hread hf => exact .block htx hphase hfile hread hf
  | @doneack t f htx _ _ _ _ _ hf =>
      have hne : (t.files.map fun f => f.fileId) ≠ [] := by
        rw [Ne, List.map_eq_nil_iff]
        exact (hbase.tx t htx).files
      obtain ⟨hframe, hcarried, -⟩ := dfileEncodeIdlist_frame hne hf
      exact .other ⟨_, _, _, hframe, hcarried⟩ (by decide)
  | done hrx hphase _ hcomplete _ hf => exact .done hrx hphase hcomplete hf

/-- **A move hands one frame to the socket, or none.** -/
theorem DcMove.hands (hbase : DcBase c) (hm : DcMove sha256Hex env late fr c c') :
    c'.out = c.out ∨ ∃ f, DcHands env late c f ∧ c'.out = c.out ++ (dcWrite env c f).1 := by
  cases hm with
  | send hs => exact Or.inr ⟨_, hs.hands hbase, rfl⟩
  | setting _ hf hsent =>
      refine Or.inr ⟨_, .setting hf, ?_⟩
      rw [(dcWrite_sent hsent).2]
  | settingCut _ _ hf => exact Or.inr ⟨_, .setting hf, rfl⟩
  | fail isSender reason sendRst =>
      rcases transFail_spec env isSender reason sendRst c with hsame |
        ⟨t, w, crash, -, -, hw, -, heq⟩
      · exact Or.inl (by rw [hsame])
      · have hout : (transFail env isSender reason sendRst c).out = c.out ++ w := by rw [heq]
        rcases hw with rfl | ⟨f, hframe, rfl, -⟩
        · exact Or.inl (hout.trans (List.append_nil _))
        · exact Or.inr ⟨f, .other hframe (by decide), hout⟩
  | newBlock ht hphase hfs _ hread hf =>
      exact Or.inr ⟨_, .block ht hphase (by rw [hfs]; simp) hread hf, rfl⟩
  | retran ht hphase hfs _ hread hf =>
      exact Or.inr ⟨_, .block ht hphase (by rw [hfs]; simp) hread hf, rfl⟩
  | finish ht hfirst hdone hfail hreceived hacked hf =>
      exact Or.inr ⟨_, (DcSends.doneack ht hfirst hdone hfail hreceived hacked hf).hands hbase, rfl⟩
  | waitData hrx hphase hnode _ hf =>
      have hs : DcSends env late c _ := .confirm hrx hphase hnode (Or.inr rfl) hf
      exact Or.inr ⟨_, hs.hands hbase, rfl⟩
  | flush hrx hphase _ hf =>
      obtain ⟨pad, hframe, hcarried, -⟩ := dfileEncodeAck_frame hf
      exact Or.inr ⟨_, .other ⟨_, _, _, hframe, hcarried⟩ (by decide), rfl⟩
  | done hrx hphase _ hcomplete _ hf =>
      exact Or.inr ⟨_, .done hrx (hphase.imp_right Or.inl) hcomplete hf, rfl⟩
  | _ => exact Or.inl rfl

/-- What is written of a frame, if the files are those of `content`. -/
theorem DcHands.source {w : Bytes} (hfiles : FilesAre content env) (h : DcSource content c)
    (hs : DcHands env late c f) (hw : w ∈ (dcWrite env c f).1) :
    SourcePiece content c.blockSize c.tx w := by
  have hpre := dcWrite_front hw
  cases hs with
  | setting hf => exact .localSetting hf hpre
  | list htx hf =>
      exact .list htx (by decide)
        (fun f hf => ⟨(h.files _ htx f hf).id_ne, (h.files _ htx f hf).name_text⟩) hf hpre
  | block htx hphase hfile hread hf =>
      obtain ⟨path, hpath, -⟩ := (h.files _ htx _ hfile).file
      exact .block hfiles htx (idle_ne_of_active hphase) hfile ⟨path, hpath⟩ hread hf hpre
  | @done t hrx _ hcomplete hf =>
      have hne : (t.files.map fun f => f.fileId) ≠ [] := by
        rw [Ne, List.map_eq_nil_iff]
        exact (rxComplete_iff.mp hcomplete).1
      obtain ⟨hframe, hcarried, -⟩ := dfileEncodeIdlist_frame hne hf
      exact .other ⟨f, ⟨_, _, _, hframe, hcarried⟩, hpre⟩ (by decide)
  | other hframe htype => exact .other ⟨f, hframe, hpre⟩ ⟨htype.1, htype.2.1, htype.2.2.1⟩

/-- A move starts a transfer, gives one up, or goes on with it. -/
theorem DcMove.sameSource (hm : DcMove sha256Hex env late fr c c')
    (hshut : ∀ p, env.openRead p = false) :
    Option.Rel SameSource c.tx c'.tx ∨
      ∃ t, c.tx = some t ∧ t.phase = .idle ∧ c' = { c with tx := none } := by
  have hgoes : ∀ {t t' : DCTrans}, c.tx = some t → c'.tx = some t' → SameSource t t' →
      Option.Rel SameSource c.tx c'.tx ∨
        ∃ t, c.tx = some t ∧ t.phase = .idle ∧ c' = { c with tx := none } := by
    intro t t' ht ht' hsame
    rw [ht, ht']
    exact Or.inl (.some hsame)
  cases hm with
  | fail isSender reason sendRst =>
      rcases transFail_spec env isSender reason sendRst c with hsame |
        ⟨t, w, crash, ht, -, -, -, heq⟩
      · rw [hsame]
        exact Or.inl (sameSource_rel _)
      · rw [heq]
        cases isSender with
        | false => exact Or.inl (sameSource_rel _)
        | true =>
            left
            have htx : c.tx = some t := ht
            rw [htx]
            exact .some ⟨rfl, rfl, fun _ => DCPhase.noConfusion⟩
  | startTx _ _ hne _ hopen => exact absurd hopen (txOpenFiles_shut hshut hne)
  | dropTx ht hphase => exact Or.inr ⟨_, ht, hphase, rfl⟩
  | armed ht => exact hgoes ht rfl ⟨rfl, rfl, fun _ => DCPhase.noConfusion⟩
  | retry _ _ ht => exact hgoes ht rfl ⟨rfl, rfl, id⟩
  | @ctrl t frame type l _ ht =>
      refine hgoes ht rfl ⟨(txCtrlUpdate_of env type l.ids t).transId,
        txCtrlUpdate_source env type l.ids t, fun hstarted => ?_⟩
      rcases @txCtrlUpdate_phase env type l.ids t with hsame | hsend
      · rw [hsame]
        exact hstarted
      · rw [hsend]
        exact DCPhase.noConfusion
  | newBlock ht _ hfs => exact hgoes ht rfl (sameSource_exchanged hfs rfl rfl rfl rfl)
  | retran ht _ hfs => exact hgoes ht rfl (sameSource_exchanged hfs rfl rfl rfl rfl)
  | allSent ht => exact hgoes ht rfl ⟨rfl, rfl, fun _ => DCPhase.noConfusion⟩
  | ack _ ht =>
      exact hgoes ht rfl ⟨rfl, foldl_ackEntry_map DCFile.source ackFile_source _ _, id⟩
  | doneReceived _ ht =>
      refine hgoes ht rfl ⟨rfl, rfl, fun hstarted => ?_⟩
      simp only
      split
      · exact DCPhase.noConfusion
      · exact hstarted
  | finish ht => exact hgoes ht rfl ⟨rfl, rfl, fun _ => DCPhase.noConfusion⟩
  | _ => exact Or.inl (sameSource_rel _)

/-- The transfer goes on, with more writes. -/
theorem DcSource.next {ws : List Bytes} (h : DcSource content c)
    (hset : c.negotiated = true → c'.blockSize = c.blockSize ∧ c'.negotiated = true)
    (hout : c'.out = c.out ++ ws) (hrel : Option.Rel SameSource c.tx c'.tx)
    (hws : ∀ w ∈ ws, SourcePiece content c.blockSize c.tx w) : DcSource content c' where
  set t' ht' := by
    obtain ⟨t, ht, -⟩ := rel_some_right hrel ht'
    exact (hset (h.set t ht)).2
  ids t' ht' := by
    obtain ⟨t, ht, hsame⟩ := rel_some_right hrel ht'
    have hids : (t'.files.map fun f => f.fileId) = t.files.map fun f => f.fileId :=
      hsame.map fun s => s.1.1
    rw [hids]
    exact h.ids t ht
  files t' ht' f hf := by
    obtain ⟨t, ht, hsame⟩ := rel_some_right hrel ht'
    obtain ⟨f₀, hf₀, hsource⟩ := mem_of_map_eq hsame.files hf
    exact (h.files t ht f₀ hf₀).congr hsource.symm
  pieces w hw := by
    have hold : SourcePiece content c.blockSize c.tx w := by
      rw [hout, List.mem_append] at hw
      exact hw.elim (h.pieces w) (hws w)
    have hnext := hold.congr hrel
    rcases htx : c.tx with _ | t
    · have htx' : c'.tx = none := by
        rcases hsome : c'.tx with _ | u
        · rfl
        · rw [htx, hsome] at hrel
          cases hrel
      rw [htx'] at hnext ⊢
      exact hnext.unsent
    · rw [(hset (h.set t htx)).1]
      exact hnext

/-- A move that writes nothing. -/
theorem DcSource.silent (h : DcSource content c)
    (hset : c.negotiated = true → c'.blockSize = c.blockSize ∧ c'.negotiated = true)
    (hout : c'.out = c.out) (hrel : Option.Rel SameSource c.tx c'.tx) : DcSource content c' :=
  h.next hset (hout.trans (List.append_nil _).symm) hrel fun _ hw => absurd hw List.not_mem_nil

/-- A transfer that has sent no block is given up. -/
theorem DcSource.drop (h : DcSource content c) (ht : c.tx = some t) (hphase : t.phase = .idle) :
    DcSource content { c with tx := none } where
  set := by rintro u ⟨⟩
  ids := by rintro u ⟨⟩
  files := by rintro u ⟨⟩
  pieces w hw := by
    have hold := h.pieces w hw
    refine ⟨hold.setting, (by rintro u x ⟨⟩), fun d hd => ?_⟩
    obtain ⟨u, hu, hstarted, -⟩ := hold.data d hd
    obtain rfl : t = u := Option.some.inj (ht.symm.trans hu)
    exact absurd hphase hstarted

/-- **One move**, if it starts no transfer. -/
theorem DcMove.source (hshut : ∀ p, env.openRead p = false) (hfiles : FilesAre content env)
    (hbase : DcBase c) (h : DcSource content c) (hm : DcMove sha256Hex env late fr c c') :
    DcSource content c' := by
  rcases hm.sameSource hshut with hrel | ⟨t, ht, hphase, rfl⟩
  · rcases hm.hands hbase with hout | ⟨f, hhands, hout⟩
    · exact h.silent hm.blockSize_kept hout hrel
    · exact h.next hm.blockSize_kept hout hrel fun w hw => hhands.source hfiles h hw
  · exact h.drop ht hphase

end

/-! ## Starting a transfer -/

section
variable {content : Bytes → Bytes} {env : DcEnv} {c : DFileConn} {t : DCTrans}
  {items : List DFileSendItem} {files : List DCFile}

/-- A file as it is opened for an item. -/
theorem txOpenFile_source {blockSize i : ℕ} {item : DFileSendItem} {f : DCFile}
    (hfiles : FilesAre content env) (hid : f.fileId ≠ 0)
    (h : txOpenFile env blockSize i item = .ok f) : SourceFile content f := by
  obtain ⟨-, hname, hsize⟩ := txOpenFile_listed h
  obtain ⟨-, -, -, -, -, -, -, hstat⟩ := txOpenFile_spec h
  have hfd : f.fd = some item.path := by
    unfold txOpenFile at h
    split at h
    · cases h
    split at h
    · cases h
    split at h
    · cases h
    split at h
    · cases h
    split at h
    · cases h
    · cases h
      rfl
  exact ⟨hid, hname ▸ cString_no_nul _, hsize, item.path, hfd, hfiles.size hstat⟩

/-- No file has number zero. -/
theorem txOpenFiles_id_ne {blockSize : ℕ} (hmax : items.length ≤ dfileMaxFileNum)
    (h : txOpenFiles env blockSize 0 items = .ok files) : ∀ f ∈ files, f.fileId ≠ 0 := by
  intro f hf hzero
  have hid : f.fileId ∈ files.map fun f => f.fileId := List.mem_map_of_mem hf
  rw [txOpenFiles_ids items h, List.mem_map] at hid
  obtain ⟨a, ha, hid⟩ := hid
  rw [List.mem_range'_1] at ha
  rw [dfileMaxFileNum] at hmax
  have hword := congrArg UInt16.toNat hid
  rw [hzero, UInt16.toNat_ofNat', Nat.mod_eq_of_lt (by omega)] at hword
  have hnat : (0 : UInt16).toNat = 0 := rfl
  omega

/-- **The transfer that `send_files` starts.** -/
theorem DcSource.start (hfiles : FilesAre content env) (hbase : DcBase c) (h : DcSource content c)
    (hready : c.state = .ready) (htx : c.tx = none) (hmax : items.length ≤ dfileMaxFileNum)
    (hopen : txOpenFiles env c.blockSize 0 items = .ok files)
    (hnew : ∀ w ∈ c.out, dfileDecodeFileHeader w = none) (nextTransId : UInt16)
    (ht : t.files = files) :
    DcSource content { c with nextTransId := nextTransId, tx := some t } where
  set _ _ := hbase.ready hready
  ids := by
    rintro u ⟨⟩
    rw [ht, txOpenFiles_ids items hopen]
    exact nodup_ids hmax
  files := by
    rintro u ⟨⟩ f hf
    rw [ht] at hf
    obtain ⟨j, item, -, hj⟩ := txOpenFiles_mem items hopen f hf
    exact txOpenFile_source hfiles (txOpenFiles_id_ne hmax hopen f hf) hj
  pieces w hw := by
    have hold := h.pieces w hw
    refine ⟨hold.setting, fun u x _ hx => ?_, fun d hd => ?_⟩
    · rw [hnew w hw] at hx
      cases hx
    · obtain ⟨u, hu, -⟩ := hold.data d hd
      rw [htx] at hu
      cases hu

/-- The header loop lists the files of the transfer. -/
theorem txSendHeaderFrom_source (fuel : ℕ) : ∀ (start : ℕ) {c : DFileConn}, c.tx = some t →
    DcSource content c → DcSource content
      (txSendHeaderFrom env t.transId (t.files.map DCFile.headerEntry) fuel start c).1 := by
  induction fuel with
  | zero => exact fun _ _ _ h => h
  | succ fuel ih =>
      intro start c htx h
      unfold txSendHeaderFrom
      split
      swap
      · exact h
      split
      · exact h
      rename_i f written hf
      rw [List.length_map] at hf
      have hsent : DcSource content (dcSend env c f).1 :=
        h.next (fun hset => ⟨rfl, hset⟩) rfl (sameSource_rel _) fun w hw =>
          .list htx (by decide)
            (fun f hf => ⟨(h.files t htx f hf).id_ne, (h.files t htx f hf).name_text⟩) hf
            (dcWrite_front hw)
      rcases hr : dcSend env c f with ⟨c₁, ok⟩
      rw [hr] at hsent
      cases ok
      · exact hsent
      · have htx₁ : c₁.tx = some t := by
          have hsame := dcSend_tx env c f
          rw [hr] at hsame
          exact hsame.trans htx
        exact ih (start + written) htx₁ hsent

theorem sendFilesImpl_source (hfiles : FilesAre content env) (hbase : DcBase c)
    (h : DcSource content c) (hnew : c.tx = none → ∀ w ∈ c.out, dfileDecodeFileHeader w = none) :
    DcSource content (sendFilesImpl env items c).1 := by
  have hcount : ∀ nextTransId crash,
      DcSource content { c with nextTransId := nextTransId, crash := crash } := fun _ _ =>
    h.silent (fun hset => ⟨rfl, hset⟩) rfl (sameSource_rel _)
  unfold sendFilesImpl
  split
  · exact h
  rename_i hready
  split
  · exact h
  rename_i hfree
  split
  · exact h
  rename_i hbounds
  have htx : c.tx = none := by simpa using hfree
  simp only
  split
  · exact hcount _ _
  · exact hcount _ _
  · rename_i files hopen
    set t := { transNew true c.nextTransId env.now with files := files } with ht
    set c₁ := { c with nextTransId := c.nextTransId + 1, tx := some t } with hc₁
    have hstart : DcSource content c₁ :=
      h.start hfiles hbase (not_not.mp hready) htx (by omega) hopen (hnew htx) _ rfl
    have hheader : DcSource content (txSendHeader env t c₁).1 :=
      txSendHeaderFrom_source _ 0 rfl hstart
    obtain ⟨-, htx₁⟩ : DcMoves id env True none c₁ (txSendHeader env t c₁).1 ∧ _ :=
      txSendHeader_moves rfl (Or.inl rfl)
    rcases hr : txSendHeader env t c₁ with ⟨c₂, ok⟩
    rw [hr] at hheader htx₁
    cases ok
    · simp only [DFileConn.andThen]
      split
      · exact hheader
      · exact hheader.drop htx₁ rfl
    · refine hheader.silent (fun hset => ⟨rfl, hset⟩) rfl ?_
      rw [htx₁]
      exact .some ⟨rfl, rfl, fun _ => DCPhase.noConfusion⟩

end

/-! ## Runs -/

/-- The files are not changed, and no transfer is started after one whose list broke off. -/
structure DcSourceOk (content : Bytes → Bytes) (c : DFileConn) (e : DcEv) : Prop where
  files : FilesAre content e.env
  once : ∀ env items, e = .sendFiles env items → c.tx = none →
    ∀ w ∈ c.out, dfileDecodeFileHeader w = none

section
variable {content : Bytes → Bytes} {sha256Hex : Bytes → Bytes} {c c' : DFileConn}

theorem FilesAre.shut {env : DcEnv} (h : FilesAre content env) : FilesAre content env.shut :=
  ⟨h.size, h.read⟩

theorem dcAlloc_source (now : UInt64) (recvDir : Option Bytes) :
    DcSource content (dcAlloc now recvDir) where
  set := by rintro t ⟨⟩
  ids := by rintro t ⟨⟩
  files := by rintro t ⟨⟩
  pieces _ hw := by cases hw

theorem DFileConn.step_source {e : DcEv} (h : (DcBase c ∧ DcSource content c) ∧ c.Sound)
    (hok : DcSourceOk content c e) (hs : c.step sha256Hex e = some c') :
    (DcBase c' ∧ DcSource content c') ∧ c'.Sound := by
  have hrest : (∀ env items, e ≠ .sendFiles env items) →
      (DcBase c' ∧ DcSource content c') ∧ c'.Sound := by
    intro hother
    refine DFileConn.step_keeps (fun c => DcBase c ∧ DcSource content c) True
      (fun env => (∀ p, env.openRead p = false) ∧ FilesAre content env) ?_ h.1 h.2 ?_
      (fun _ _ _ => trivial) ((DFileConn.step_shut sha256Hex c e).trans hs)
    · intro env fr c₁ c₂ henv hc hm
      exact ⟨hm.base hc.1, hm.source henv.1 henv.2 hc.1 hc.2⟩
    · have hfiles := hok.files
      cases e with
      | sendFiles env items => exact absurd rfl (hother env items)
      | _ => exact ⟨fun _ => rfl, hfiles.shut⟩
  cases e with
  | sendFiles env items =>
      have hsound' : True ∧ c'.Sound :=
        DFileConn.step_keeps (fun _ => True) True (fun _ => True) (fun _ _ _ => trivial) trivial
          h.2 trivial (fun _ _ _ => trivial) hs
      refine ⟨?_, hsound'.2⟩
      unfold DFileConn.step at hs
      split at hs
      · cases hs
        have hmoves : DcMoves sha256Hex env True none c (sendFilesImpl env items c).1 :=
          sendFilesImpl_moves items c
        exact ⟨hmoves.base h.1.1,
          sendFilesImpl_source hok.files h.1.1 h.1.2 (hok.once env items rfl)⟩
      · cases hs
  | _ => exact hrest fun env items he => by cases he

/-- **What a sender writes.** -/
theorem DFileConn.run_source {now : UInt64} {recvDir : Option Bytes} {es : List DcEv}
    (hok : Meets (DFileConn.step sha256Hex) (DcSourceOk content) (dcAlloc now recvDir) es)
    (hrun : run (DFileConn.step sha256Hex) (dcAlloc now recvDir) es = some c) :
    DcBase c ∧ DcSource content c :=
  (run_inv (fun c => (DcBase c ∧ DcSource content c) ∧ c.Sound) (DcSourceOk content)
    (fun _ _ _ h hok hs => DFileConn.step_source h hok hs)
    ⟨⟨dcAlloc_base now recvDir, dcAlloc_source now recvDir⟩, dcAlloc_sound now recvDir⟩ hok hrun).1

end

end HwPhoneLink.DFile
