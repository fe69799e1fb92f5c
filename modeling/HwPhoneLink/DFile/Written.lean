import HwPhoneLink.DFile.Destinations

/-!
# What a receiver writes

Every block of a destination file comes from a data frame for it, and the blocks are
written one after the other from the front. `Heard` says which frames have come in; the
receiver's list, its block size and its blocks are all taken from those.
-/

namespace HwPhoneLink.DFile

open BigEndian Path Framing Transitions HwPhoneLink.Testfile

/-- A data frame with these bytes for the block has come in. -/
def HeardBlock (Heard : Bytes → Prop) (transId fileId : UInt16) (seq : ℕ) (p : Bytes) : Prop :=
  ∃ w d, Heard w ∧ dfileDecodeData w = some d ∧ d.transId = transId ∧ d.fileId = fileId ∧
    d.blockSeq.toNat = seq ∧ d.payload = p

/-- The blocks `0, …, expectedSeq - 1` have been written, in this order. -/
structure FileWritten (Heard : Bytes → Prop) (blockSize : ℕ) (transId : UInt16) (f : DCFile) :
    Prop where
  size : f.size < 2 ^ 64
  total : f.totalBlocks = dcTotalBlocks f.size blockSize
  next : f.expectedSeq ≤ f.totalBlocks
  count : f.writes.length = f.expectedSeq
  block : ∀ seq off p, f.writes[seq]? = some (off, p) →
    off = seq * blockSize ∧ p.length = dcBlockLen f.size blockSize seq ∧
      HeardBlock Heard transId f.fileId seq p
  sha : f.sha = (f.writes.map Prod.snd).flatten
  complete : f.writeComplete = true ↔ f.expectedSeq = f.totalBlocks

/-- What a receiver has is from the frames that have come in. -/
structure RxWritten (Heard : Bytes → Prop) (c : DFileConn) : Prop where
  unset : c.negotiated = false → c.blockSize = 0
  setting : c.negotiated = true → ∃ w s, Heard w ∧ dfileDecodeSetting w = some s ∧
    c.blockSize = dcBlockSize s
  hdr : ∀ t, c.rx = some t → ∀ e ∈ t.hdr, ∃ w h, Heard w ∧ dfileDecodeFileHeader w = some h ∧
    h.transId = t.transId ∧ h.nodeNumber = t.nodeNumber ∧ e ∈ h.entries
  ids : ∀ t, c.rx = some t → (t.hdr.map fun e => e.fileId).Nodup
  opened : ∀ t, c.rx = some t → t.files ≠ [] → c.negotiated = true
  entries : ∀ t, c.rx = some t → t.files.map DCFile.headerEntry <+: t.hdr
  files : ∀ t, c.rx = some t → ∀ f ∈ t.files, FileWritten Heard c.blockSize t.transId f

section
variable {Heard Heard' : Bytes → Prop} {blockSize : ℕ} {transId : UInt16} {f : DCFile}

theorem HeardBlock.mono {fileId : UInt16} {seq : ℕ} {p : Bytes} (hmono : ∀ w, Heard w → Heard' w)
    (h : HeardBlock Heard transId fileId seq p) : HeardBlock Heard' transId fileId seq p := by
  obtain ⟨w, d, hw, hd⟩ := h
  exact ⟨w, d, hmono w hw, hd⟩

/-! ## One file -/

/-- The digest does not matter. -/
theorem FileWritten.undigested :
    FileWritten Heard blockSize transId f.undigested ↔ FileWritten Heard blockSize transId f :=
  ⟨fun h => ⟨h.size, h.total, h.next, h.count, h.block, h.sha, h.complete⟩,
    fun h => ⟨h.size, h.total, h.next, h.count, h.block, h.sha, h.complete⟩⟩

/-- **A destination that has just been opened.** -/
theorem RxFresh.fileWritten {e : DFileHeaderEntry} (h : RxFresh blockSize e f) :
    FileWritten Heard blockSize transId f where
  size := by
    rw [h.size]
    exact e.fileSize.toNat_lt
  total := h.total
  next := by rw [h.expectedSeq]; exact Nat.zero_le _
  count := by rw [h.writes, h.expectedSeq]; rfl
  block seq off p hw := by
    rw [h.writes] at hw
    cases hw
  sha := by rw [h.sha, h.writes]; rfl
  complete := by
    rw [h.writeComplete, h.expectedSeq, decide_eq_true_iff]
    exact eq_comm

/-- **The next block.** -/
theorem FileWritten.write {p : Bytes} (h : FileWritten Heard blockSize transId f)
    (hmore : f.expectedSeq < f.totalBlocks)
    (hlen : p.length = dcBlockLen f.size blockSize f.expectedSeq)
    (hheard : HeardBlock Heard transId f.fileId f.expectedSeq p) :
    FileWritten Heard blockSize transId (rxWriteBlock blockSize p f) where
  size := h.size
  total := h.total
  next := hmore
  count := by
    show (f.writes ++ [(f.expectedSeq * blockSize, p)]).length = f.expectedSeq + 1
    rw [List.length_append, h.count, List.length_singleton]
  block := by
    intro seq off q hw
    have hw' : (f.writes ++ [(f.expectedSeq * blockSize, p)])[seq]? = some (off, q) := hw
    rw [List.getElem?_append, h.count] at hw'
    split at hw'
    · exact h.block seq off q hw'
    · rename_i hle
      rw [List.getElem?_singleton] at hw'
      split at hw'
      · rename_i hzero
        cases hw'
        obtain rfl : seq = f.expectedSeq := by omega
        exact ⟨rfl, hlen, hheard⟩
      · cases hw'
  sha := by
    show f.sha ++ p = ((f.writes ++ [(f.expectedSeq * blockSize, p)]).map Prod.snd).flatten
    rw [h.sha, List.map_append, List.flatten_append, List.map_singleton, List.flatten_singleton]
  complete := by
    show (f.writeComplete || decide (f.expectedSeq + 1 ≥ f.totalBlocks)) = true ↔
      f.expectedSeq + 1 = f.totalBlocks
    rw [Bool.or_eq_true, h.complete, decide_eq_true_iff]
    omega

end

/-! ## One move -/

section
variable {Heard : Bytes → Prop} {sha256Hex : Bytes → Bytes} {env : DcEnv} {late : Prop}
  {fr : Option Bytes} {c c' : DFileConn}

/-- The entries that are added have been heard, and no number is there twice. -/
theorem rxAddEntries_ids (node : ℕ) (es : List DFileHeaderEntry) :
    ∀ {hdr : List DFileHeaderEntry}, (hdr.map fun e => e.fileId).Nodup →
      ((rxAddEntries node hdr es).1.map fun e => e.fileId).Nodup := by
  induction es with
  | nil => exact id
  | cons e es ih =>
      intro hdr h
      rw [rxAddEntries]
      split
      · exact ih h
      rename_i hnew
      split
      · exact h
      · refine ih ?_
        rw [List.map_append, List.map_singleton, ← List.concat_eq_append]
        refine h.concat fun hmem => hnew ?_
        obtain ⟨x, hx, hid⟩ := List.mem_map.mp hmem
        exact List.any_eq_true.mpr ⟨x, hx, decide_eq_true hid⟩

/-- The receiver goes on with the same list; digests may be taken. -/
theorem RxWritten.same (h : RxWritten Heard c) (hset : c'.negotiated = c.negotiated)
    (hsize : c'.blockSize = c.blockSize)
    (hrx : ∀ t', c'.rx = some t' → ∃ t, c.rx = some t ∧ t'.transId = t.transId ∧
      t'.nodeNumber = t.nodeNumber ∧ t'.hdr = t.hdr ∧
      t'.files.map DCFile.undigested = t.files.map DCFile.undigested) : RxWritten Heard c' := by
  have hentries : ∀ files : List DCFile,
      files.map DCFile.headerEntry = (files.map DCFile.undigested).map DCFile.headerEntry := by
    intro files
    rw [List.map_map]
    rfl
  constructor
  · rw [hset, hsize]
    exact h.unset
  · rw [hset, hsize]
    exact h.setting
  · intro t' ht' e he
    obtain ⟨t, ht, hid, hnode, hhdr, -⟩ := hrx t' ht'
    rw [hid, hnode]
    exact h.hdr t ht e (hhdr ▸ he)
  · intro t' ht'
    obtain ⟨t, ht, -, -, hhdr, -⟩ := hrx t' ht'
    rw [hhdr]
    exact h.ids t ht
  · intro t' ht' hne
    obtain ⟨t, ht, -, -, -, hfiles⟩ := hrx t' ht'
    rw [hset]
    refine h.opened t ht fun hnil => hne ?_
    rwa [hnil, List.map_nil, List.map_eq_nil_iff] at hfiles
  · intro t' ht'
    obtain ⟨t, ht, -, -, hhdr, hfiles⟩ := hrx t' ht'
    rw [hhdr, hentries, hfiles, ← hentries]
    exact h.entries t ht
  · intro t' ht' f hf
    obtain ⟨t, ht, hid, -, -, hfiles⟩ := hrx t' ht'
    rw [hsize, hid]
    have hmem : f.undigested ∈ t.files.map DCFile.undigested :=
      hfiles ▸ List.mem_map_of_mem hf
    obtain ⟨f₀, hf₀, heq⟩ := List.mem_map.mp hmem
    rw [← FileWritten.undigested, ← heq, FileWritten.undigested]
    exact h.files t ht f₀ hf₀

/-- The receiver is left alone. -/
theorem RxWritten.idle (h : RxWritten Heard c) (hset : c'.negotiated = c.negotiated)
    (hsize : c'.blockSize = c.blockSize) (hrx : c'.rx = c.rx) : RxWritten Heard c' :=
  h.same hset hsize fun t ht => ⟨t, hrx ▸ ht, rfl, rfl, rfl, rfl⟩

/-- The transfer enters another phase. -/
theorem RxWritten.enters {t : DCTrans} (h : RxWritten Heard c) (ht : c.rx = some t)
    (hset : c'.negotiated = c.negotiated) (hsize : c'.blockSize = c.blockSize)
    {phase : DCPhase} {ackPending doneSent : Bool}
    (hrx : c'.rx = some { t with
      phase := phase, ackPending := ackPending, doneSent := doneSent }) : RxWritten Heard c' := by
  refine h.same hset hsize fun t' ht' => ⟨t, ht, ?_⟩
  rw [hrx] at ht'
  cases ht'
  exact ⟨rfl, rfl, rfl, rfl⟩

theorem RxWritten.transFail (h : RxWritten Heard c) (isSender : Bool) (reason : String)
    (sendRst : Bool) : RxWritten Heard (transFail env isSender reason sendRst c) := by
  rcases transFail_spec env isSender reason sendRst c with hsame |
    ⟨t, w, crash, ht, -, -, -, heq⟩
  · rw [hsame]
    exact h
  · rw [heq]
    cases isSender with
    | true => exact h.idle rfl rfl rfl
    | false => exact h.enters (t := t) ht rfl rfl rfl

/-- The blocks of the peer's setting. -/
theorem RxWritten.negotiate {frame : Bytes} {s : DFileSetting} (h : RxWritten Heard c)
    (hheard : Heard frame) (hunset : c.negotiated = false)
    (hs : dfileDecodeSetting frame = some s) (hblock : c'.blockSize = dcBlockSize s)
    (hset : c'.negotiated = true) (hrx : c'.rx = c.rx) : RxWritten Heard c' := by
  have hnone : ∀ t, c.rx = some t → t.files = [] := by
    intro t ht
    by_contra hne
    have hcontra := h.opened t ht hne
    rw [hunset] at hcontra
    cases hcontra
  constructor
  · intro hno
    rw [hset] at hno
    cases hno
  · exact fun _ => ⟨frame, s, hheard, hs, hblock⟩
  · exact fun t ht => h.hdr t (hrx ▸ ht)
  · exact fun t ht => h.ids t (hrx ▸ ht)
  · exact fun _ _ _ => hset
  · exact fun t ht => h.entries t (hrx ▸ ht)
  · intro t ht f hf
    rw [hnone t (hrx ▸ ht)] at hf
    cases hf

/-- **A header frame** adds its entries. -/
theorem RxWritten.header {t : DCTrans} {frame : Bytes} {x : DFileHeaderFrame}
    (h : RxWritten Heard c) (hheard : Heard frame) (hx : dfileDecodeFileHeader frame = some x)
    (hfrom : (c.rx = none ∧
        t = { transNew false x.transId env.now with nodeNumber := x.nodeNumber }) ∨
      (c.rx = some t ∧ t.phase ≠ .failed ∧ t.phase ≠ .rxDone ∧ t.transId = x.transId ∧
        t.nodeNumber = x.nodeNumber))
    (hset : c'.negotiated = c.negotiated) (hsize : c'.blockSize = c.blockSize)
    (hrx : c'.rx = some { t with
      hdr := (rxAddEntries x.nodeNumber.toNat t.hdr x.entries).1 }) : RxWritten Heard c' := by
  have hid : t.transId = x.transId := by
    rcases hfrom with ⟨-, rfl⟩ | ⟨-, -, -, hid, -⟩
    · rfl
    · exact hid
  have hnode : t.nodeNumber = x.nodeNumber := by
    rcases hfrom with ⟨-, rfl⟩ | ⟨-, -, -, -, hnode⟩
    · rfl
    · exact hnode
  -- what holds of the transfer before, or of a new one
  have hhdr : ∀ e ∈ t.hdr, ∃ w h, Heard w ∧ dfileDecodeFileHeader w = some h ∧
      h.transId = t.transId ∧ h.nodeNumber = t.nodeNumber ∧ e ∈ h.entries := by
    rcases hfrom with ⟨-, rfl⟩ | ⟨ht, -⟩
    · intro e he
      cases he
    · exact h.hdr t ht
  have hids : (t.hdr.map fun e => e.fileId).Nodup := by
    rcases hfrom with ⟨-, rfl⟩ | ⟨ht, -⟩
    · exact List.nodup_nil
    · exact h.ids t ht
  have hopened : t.files ≠ [] → c.negotiated = true := by
    rcases hfrom with ⟨-, rfl⟩ | ⟨ht, -⟩
    · exact fun hne => absurd rfl hne
    · exact h.opened t ht
  have hentries : t.files.map DCFile.headerEntry <+: t.hdr := by
    rcases hfrom with ⟨-, rfl⟩ | ⟨ht, -⟩
    · exact List.nil_prefix
    · exact h.entries t ht
  have hfiles : ∀ f ∈ t.files, FileWritten Heard c.blockSize t.transId f := by
    rcases hfrom with ⟨-, rfl⟩ | ⟨ht, -⟩
    · intro f hf
      cases hf
    · exact h.files t ht
  constructor
  · rw [hset, hsize]
    exact h.unset
  · rw [hset, hsize]
    exact h.setting
  · intro t' ht' e he
    rw [hrx] at ht'
    cases ht'
    rcases rxAddEntries_mem _ _ e he with hold | hnew
    · exact hhdr e hold
    · exact ⟨frame, x, hheard, hx, hid.symm, hnode.symm, hnew⟩
  · intro t' ht'
    rw [hrx] at ht'
    cases ht'
    exact rxAddEntries_ids _ _ hids
  · intro t' ht' hne
    rw [hrx] at ht'
    cases ht'
    rw [hset]
    exact hopened hne
  · intro t' ht'
    rw [hrx] at ht'
    cases ht'
    exact hentries.trans (rxAddEntries_grows _ _ _)
  · intro t' ht' f hf
    rw [hrx] at ht'
    cases ht'
    rw [hsize]
    exact hfiles f hf

/-- **The destinations are opened.** -/
theorem RxWritten.opens {t : DCTrans} {dir : Bytes} (h : RxWritten Heard c) (ht : c.rx = some t)
    (hnone : t.files = []) (hset : c'.negotiated = c.negotiated)
    (hsize : c'.blockSize = c.blockSize)
    (hrx : c'.rx = some { t with
      files := (rxOpenFiles env dir c.blockSize c.opened t.files t.hdr).2.1 }) :
    RxWritten Heard c' := by
  obtain ⟨new, hnew, -, -, -, hfresh⟩ := rxOpenFiles_spec env dir c.blockSize t.hdr c.opened t.files
  have hentries := rxOpenFiles_entries env dir c.blockSize t.hdr c.opened t.files
  rw [hnone, List.nil_append] at hnew
  rw [hnone, List.map_nil, List.nil_append] at hentries
  rw [hnone, hnew] at hrx
  rw [hnew] at hentries
  constructor
  · rw [hset, hsize]
    exact h.unset
  · rw [hset, hsize]
    exact h.setting
  · intro t' ht'
    rw [hrx] at ht'
    cases ht'
    exact h.hdr t ht
  · intro t' ht'
    rw [hrx] at ht'
    cases ht'
    exact h.ids t ht
  · intro t' ht' hne
    rw [hrx] at ht'
    cases ht'
    obtain ⟨f, hf⟩ := List.exists_mem_of_ne_nil new hne
    obtain ⟨e, -, hf⟩ := hfresh f hf
    by_contra hno
    rw [hset, Bool.not_eq_true] at hno
    exact hf.block (h.unset hno)
  · intro t' ht'
    rw [hrx] at ht'
    cases ht'
    exact hentries
  · intro t' ht' f hf
    rw [hrx] at ht'
    cases ht'
    obtain ⟨e, -, hf⟩ := hfresh f hf
    rw [hsize]
    exact hf.fileWritten

/-- **A data frame** writes the next block of its file. -/
theorem RxWritten.write {t : DCTrans} {frame : Bytes} {d : DFileData} {file : DCFile}
    (h : RxWritten Heard c) (hheard : Heard frame) (hd : dfileDecodeData frame = some d)
    (ht : c.rx = some t) (hid : d.transId = t.transId)
    (hfile : findFile t.files d.fileId = some file) (hseq : d.blockSeq.toNat = file.expectedSeq)
    (hmore : file.expectedSeq < file.totalBlocks)
    (hlen : d.payload.length = dcBlockLen file.size c.blockSize file.expectedSeq)
    (hset : c'.negotiated = c.negotiated) (hsize : c'.blockSize = c.blockSize)
    (hrx : c'.rx = some { t with
      files := updateFile d.fileId (rxWriteBlock c.blockSize d.payload) t.files
      ackPending := true }) : RxWritten Heard c' := by
  obtain ⟨pre, post, hsplit, hupdate⟩ :=
    updateFile_split (rxWriteBlock c.blockSize d.payload) hfile
  have hfileId : file.fileId = d.fileId := by
    have hfound := List.find?_some hfile
    exact of_decide_eq_true hfound
  constructor
  · rw [hset, hsize]
    exact h.unset
  · rw [hset, hsize]
    exact h.setting
  · intro t' ht'
    rw [hrx] at ht'
    cases ht'
    exact h.hdr t ht
  · intro t' ht'
    rw [hrx] at ht'
    cases ht'
    exact h.ids t ht
  · intro t' ht' _
    rw [hset]
    exact h.opened t ht (by rw [hsplit]; simp)
  · intro t' ht'
    rw [hrx] at ht'
    cases ht'
    have hsame : (updateFile d.fileId (rxWriteBlock c.blockSize d.payload) t.files).map
        DCFile.headerEntry = t.files.map DCFile.headerEntry :=
      updateFile_map (g := rxWriteBlock c.blockSize d.payload) DCFile.headerEntry
        (fun _ => rfl) t.files
    exact hsame.symm ▸ h.entries t ht
  · intro t' ht' f hf
    rw [hrx] at ht'
    cases ht'
    have hall := h.files t ht
    rw [hsize]
    have hmem : f ∈ pre ++ rxWriteBlock c.blockSize d.payload file :: post := hupdate ▸ hf
    rw [hsplit] at hall
    refine forall_exchanged hall ?_ f hmem
    exact (hall file (by simp)).write hmore hlen
      ⟨frame, d, hheard, hd, hid, hfileId.symm, hseq, rfl⟩

/-- **One move.** -/
theorem DcMove.rxWritten (hfr : ∀ frame, fr = some frame → Heard frame) (h : RxWritten Heard c)
    (hm : DcMove sha256Hex env late fr c c') : RxWritten Heard c' := by
  cases hm with
  | fail isSender reason sendRst => exact h.transFail isSender reason sendRst
  | negotiate hf _ hunset hs => exact h.negotiate (hfr _ hf) hunset hs rfl rfl rfl
  | header hf hx _ hfrom => exact h.header (hfr _ hf) hx hfrom rfl rfl rfl
  | opened _ _ ht _ _ hnone => exact h.opens ht hnone rfl rfl rfl
  | waitData ht => exact h.enters ht rfl rfl rfl
  | write hf hd ht _ hid hfile hseq hmore hlen =>
      exact h.write (hfr _ hf) hd ht hid hfile hseq hmore hlen rfl rfl rfl
  | flushNone ht => exact h.enters ht rfl rfl rfl
  | flush ht => exact h.enters ht rfl rfl rfl
  | @digest t ht =>
      refine h.same rfl rfl fun t' ht' => ⟨t, ht, ?_⟩
      cases ht'
      exact ⟨rfl, rfl, rfl, rxCheckFiles_map sha256Hex DCFile.undigested (fun _ _ => rfl) t.files⟩
  | done ht => exact h.enters ht rfl rfl rfl
  | doneack _ ht => exact h.enters ht rfl rfl rfl
  | _ => exact h.idle rfl rfl rfl

theorem DcMoves.rxWritten (hfr : ∀ frame, fr = some frame → Heard frame) (h : RxWritten Heard c)
    (hm : DcMoves sha256Hex env late fr c c') : RxWritten Heard c' := by
  induction hm with
  | refl => exact h
  | tail _ hlast ih => exact hlast.rxWritten hfr ih

/-! ## Runs -/

theorem dcAlloc_rxWritten (now : UInt64) (recvDir : Option Bytes) :
    RxWritten Heard (dcAlloc now recvDir) where
  unset _ := rfl
  setting h := by cases h
  hdr _ ht := by cases ht
  ids _ ht := by cases ht
  opened _ ht := by cases ht
  entries _ ht := by cases ht
  files _ ht := by cases ht

/-- Every frame that is handled has been heard; a header that is cut off is not a frame. -/
def DcHears (Heard : Bytes → Prop) (c : DFileConn) (e : DcEv) : Prop :=
  ∀ d ∈ e.dispatches c, Heard d.2.2

theorem DFileConn.step_rxWritten {e : DcEv} (h : RxWritten Heard c ∧ c.Sound)
    (hok : DcHears Heard c e) (hs : c.step sha256Hex e = some c') :
    RxWritten Heard c' ∧ c'.Sound := by
  refine DFileConn.step_keeps_where (RxWritten Heard) True (fun _ => True)
    (fun _ _ frame => Heard frame) ?_ ?_ h.1 h.2 trivial hok (fun _ _ _ => trivial) hs
  · intro env c c' _ hc hm
    exact hm.rxWritten (fun _ hf => by cases hf) hc
  · intro env c frame _ hc hidle hopen hheard
    have hmoves : DcMoves sha256Hex env True (some frame) c (handleFrame env frame c) :=
      handleFrame_moves hidle (DFileConn.stopped_eq_false hopen).2
    refine hmoves.rxWritten ?_ hc
    rintro f ⟨⟩
    exact hheard

theorem DFileConn.run_rxWritten {now : UInt64} {recvDir : Option Bytes} {es : List DcEv}
    (hrun : run (DFileConn.step sha256Hex) (dcAlloc now recvDir) es = some c)
    (hok : Meets (DFileConn.step sha256Hex) (DcHears Heard) (dcAlloc now recvDir) es) :
    RxWritten Heard c :=
  (run_inv (fun c => RxWritten Heard c ∧ c.Sound) (DcHears Heard)
    (fun _ _ _ h hok hs => DFileConn.step_rxWritten h hok hs)
    ⟨dcAlloc_rxWritten now recvDir, dcAlloc_sound now recvDir⟩ hok hrun).1

end

end HwPhoneLink.DFile
