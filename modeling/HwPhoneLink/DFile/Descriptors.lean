import HwPhoneLink.DFile.Slots
import HwPhoneLink.DFile.Header
import HwPhoneLink.Lib.Descriptors

/-!
# The descriptors of a DFile connection

`send_files_impl` and `rx_open_file` open, `handle_data` writes and closes a file that is
complete, `dcfile_free` closes what is left. A connection is run here with its descriptors
and the calls on them; the rest of it is `DFileConn.step`.
-/

namespace HwPhoneLink.DFile

open BigEndian Path Framing Transitions Descriptors HwPhoneLink.Testfile

/-- What the system adds to a call: the file behind a path, the number an open gives after
so many calls, and how much of a block a failing `pwrite` writes. -/
structure Os (ι : Type*) where
  file : Bytes → ι
  next : ℕ → List ℕ → ℕ
  next_free : ∀ n used, next n used ∉ used
  short : ℕ → ℕ

/-- The descriptor of a `DCFile`; `none` is -1. -/
structure DcFd where
  fileId : UInt16
  path : Bytes
  fd : Option ℕ
deriving DecidableEq, Repr

/-- The kernel, and the calls that led to it. -/
structure Fds (ι : Type*) where
  kernel : Kernel ι
  calls : List (Call ι)

/-- A connection with the descriptors of its files. `torn` is set by `dc_teardown`; the
record of the connection is kept then, to tell what it was. -/
structure FdConn (ι : Type*) where
  conn : DFileConn
  tx : List DcFd
  rx : List DcFd
  fds : Fds ι
  torn : Bool

/-- The numbers that a list of files holds. -/
def heldBy (files : List DcFd) : List ℕ := files.filterMap DcFd.fd

def FdConn.held {ι : Type*} (s : FdConn ι) : List ℕ := heldBy s.tx ++ heldBy s.rx

section
variable {ι : Type*} [DecidableEq ι] (os : Os ι)

def Fds.call (d : Fds ι) (c : Call ι) : Fds ι := ⟨d.kernel.exec c, d.calls ++ [c]⟩

/-- An `open` that succeeds. -/
def Fds.openFile (d : Fds ι) (path : Bytes) (truncate : Bool) : ℕ × Fds ι :=
  let n := os.next d.calls.length d.kernel.numbers
  (n, d.call (.opened n (os.file path) truncate))

/-- `dcfile_free`, as far as the descriptor goes. -/
def dcfileFree (d : Fds ι) (f : DcFd) : Fds ι :=
  match f.fd with
  | none => d
  | some n => d.call (.closed n)

def transFree (d : Fds ι) (files : List DcFd) : Fds ι := files.foldl dcfileFree d

/-! ## Sending -/

/-- The item loop: the files of the transfer when the loop ends. -/
def txOpenFds (env : DcEnv) (blockSize : ℕ) :
    ℕ → List DcFd → List DFileSendItem → Fds ι → List DcFd × Fds ι
  | _, files, [], d => (files, d)
  | i, files, item :: items, d =>
      let f : DcFd := ⟨UInt16.ofNat (i + 1), item.path, none⟩
      if !env.openRead item.path then (files ++ [f], d)
      else
        let r := d.openFile os item.path false
        let files := files ++ [{ f with fd := some r.1 }]
        match txOpenFile env blockSize i item with
        | .ok _ => txOpenFds env blockSize (i + 1) files items r.2
        | _ => (files, r.2)

def FdConn.sendFiles (env : DcEnv) (items : List DFileSendItem) (s : FdConn ι) : FdConn ι :=
  let c := (sendFilesImpl env items s.conn).1
  if s.conn.state ≠ .ready ∨ s.conn.tx.isSome ∨ items.length = 0 ∨
      items.length > dfileMaxFileNum then
    { s with conn := c }
  else
    let r := txOpenFds os env s.conn.blockSize 0 [] items s.fds
    -- an error frees the transfer; a dead process frees nothing
    if c.tx.isNone && c.crash.isNone then { s with conn := c, fds := transFree r.2 r.1 }
    else { s with conn := c, tx := r.1, fds := r.2 }

/-! ## Receiving -/

/-- `rx_open_file` after `opened` opens. -/
def rxOpenFd (env : DcEnv) (dir : Bytes) (blockSize opened : ℕ) (he : DFileHeaderEntry)
    (d : Fds ι) : Fds ι × Option DcFd :=
  let dst := join dir he.name
  if he.fileSize.toNat > dfileMaxFileSize then (d, none)
  else if !env.openWrite opened dst then (d, none)
  else
    let r := d.openFile os dst true
    let f : DcFd := ⟨he.fileId, dst, some r.1⟩
    -- `fail:` closes the descriptor, then `dcfile_free` does
    if !env.ftruncate opened dst then (dcfileFree (r.2.call (.closed r.1)) f, none)
    else
      let d := r.2.call (.resized r.1 he.fileSize.toNat)
      if blockSize = 0 then (d, none) else (d, some f)

def rxOpenFds (env : DcEnv) (dir : Bytes) (blockSize : ℕ) :
    ℕ → List DcFd → List DFileHeaderEntry → Fds ι → List DcFd × Fds ι
  | _, files, [], d => (files, d)
  | n, files, he :: hes, d =>
      match rxOpenFd os env dir blockSize n he d with
      | (d, none) => (files, d)
      | (d, some f) => rxOpenFds env dir blockSize (n + 1) (files ++ [f]) hes d

/-- The transfer that a header is for, made if there is none. -/
def rxHeaderTrans (env : DcEnv) (h : DFileHeaderFrame) (c : DFileConn) : DCTrans :=
  c.rx.getD { transNew false h.transId env.now with nodeNumber := h.nodeNumber }

/-- The transfer whose list of entries a header frame completes, and the directory of its
files. -/
def rxHeaderTarget (env : DcEnv) (frame : Bytes) (c : DFileConn) : Option (DCTrans × Bytes) :=
  match dfileDecodeFileHeader frame with
  | none => none
  | some h =>
      let t := rxHeaderTrans env h c
      let r := rxAddEntries h.nodeNumber.toNat t.hdr h.entries
      if h.nodeNumber ≠ 0 ∧ t.phase = .idle ∧ t.transId = h.transId ∧
          t.nodeNumber = h.nodeNumber ∧ r.2 = true ∧ h.nodeNumber.toNat ≤ r.1.length then
        c.recvDir.map fun dir => ({ t with hdr := r.1 }, dir)
      else none

/-- The block that a data frame brings, with its transfer and its file. -/
def rxDataTarget (frame : Bytes) (c : DFileConn) : Option (DFileData × DCTrans × DCFile) :=
  match dfileDecodeData frame, c.rx with
  | some d, some t =>
      if t.phase = .rxWaitData ∧ d.transId = t.transId then
        (findFile t.files d.fileId).bind fun f =>
          if d.blockSeq.toNat < f.totalBlocks ∧ d.blockSeq.toNat = f.expectedSeq ∧
              d.payload.length = dcBlockLen f.size c.blockSize d.blockSeq.toNat then
            some (d, t, f)
          else none
      else none
  | _, _ => none

def findFd (files : List DcFd) (fileId : UInt16) : Option DcFd :=
  files.find? fun f => f.fileId = fileId

/-- `f->fd = -1` for the file found. -/
def closeFd (fileId : UInt16) : List DcFd → List DcFd
  | [] => []
  | f :: fs => if f.fileId = fileId then { f with fd := none } :: fs else f :: closeFd fileId fs

def FdConn.handleFileHeader (env : DcEnv) (frame : Bytes) (s : FdConn ι) : FdConn ι :=
  let c := DFile.handleFileHeader env frame s.conn
  match rxHeaderTarget env frame s.conn with
  | none => { s with conn := c }
  | some (t, dir) =>
      let r := rxOpenFds os env dir s.conn.blockSize s.conn.opened.length s.rx t.hdr s.fds
      { s with conn := c, rx := r.1, fds := r.2 }

def FdConn.handleData (env : DcEnv) (frame : Bytes) (s : FdConn ι) : FdConn ι :=
  let c := DFile.handleData env frame s.conn
  match rxDataTarget frame s.conn with
  | none => { s with conn := c }
  | some (d, _, f) =>
      match (findFd s.rx d.fileId).bind DcFd.fd with
      | none => { s with conn := c }
      | some n =>
          let offset := d.blockSeq.toNat * s.conn.blockSize
          if !env.pwrite (f.fd.getD []) offset d.payload then
            let part := d.payload.take (min (os.short s.fds.calls.length) (d.payload.length - 1))
            { s with conn := c, fds := s.fds.call (.wrote n offset part) }
          else
            let fds := s.fds.call (.wrote n offset d.payload)
            if d.blockSeq.toNat + 1 ≥ f.totalBlocks then
              { s with conn := c, rx := closeFd d.fileId s.rx, fds := fds.call (.closed n) }
            else { s with conn := c, fds := fds }

/-! ## Dispatch and events -/

def FdConn.handleFrame (env : DcEnv) (frame : Bytes) (s : FdConn ι) : FdConn ι :=
  match dfileFrameHeaderUnpack frame with
  | .ok h =>
      match DFileFrameType.ofCode h.type with
      | some .fileHeader => s.handleFileHeader os env frame
      | some .fileData => s.handleData os env frame
      | _ => { s with conn := DFile.handleFrame env frame s.conn }
  | _ => { s with conn := DFile.handleFrame env frame s.conn }

/-- `dcHandle` with the descriptors. -/
def FdConn.handle (env : DcEnv) (s : FdConn ι) (buf : Bytes) : FdConn ι × Bool :=
  match dfileFrameHeaderUnpack buf with
  | .ok h =>
      let s := s.handleFrame os env (buf.take (dfileFrameHeaderLen + h.length.toNat))
      (s, !s.conn.stopped)
  | _ => ({ s with conn := shutdownCommon env "corrupt frame header" s.conn }, false)

/-- `dcRead` with the descriptors. -/
def FdConn.read (env : DcEnv) (chunk : Bytes) (s : FdConn ι) : FdConn ι :=
  let r := feed dcCut (FdConn.handle os env) (fun s => s.conn.stopped) (s, s.conn.rxbuf) chunk
  { r.1 with conn := { r.1.conn with rxbuf := r.2 } }

inductive FdEv : Type where
  | event (e : DcEv)
  /-- `dc_teardown`, after the loop. -/
  | teardown

variable (sha256Hex : Bytes → Bytes)

def FdConn.onEvent (s : FdConn ι) : DcEv → FdConn ι
  | .read env chunk => s.read os env chunk
  | .sendFiles env items => s.sendFiles os env items
  | e => { s with conn := s.conn.onEvent sha256Hex e }

def FdConn.step (s : FdConn ι) : FdEv → Option (FdConn ι)
  | .event e =>
      if !s.conn.stopped && e.enabled s.conn then some (s.onEvent os sha256Hex e) else none
  | .teardown =>
      if s.conn.state = .closing ∧ s.conn.crash = none ∧ s.torn = false then
        some { s with
          tx := [], rx := [], fds := transFree (transFree s.fds s.tx) s.rx, torn := true }
      else none

end

/-- A new connection, on what is on the disk. -/
def fdAlloc {ι : Type*} (now : UInt64) (recvDir : Option Bytes) (disk : ι → Bytes) : FdConn ι where
  conn := dcAlloc now recvDir
  tx := []
  rx := []
  fds := ⟨⟨[], disk⟩, []⟩
  torn := false

/-! ## The connection below -/

section
variable {ι : Type*} [DecidableEq ι] {os : Os ι} {env : DcEnv} {sha256Hex : Bytes → Bytes}

@[simp] theorem FdConn.sendFiles_conn (items : List DFileSendItem) (s : FdConn ι) :
    (s.sendFiles os env items).conn = (sendFilesImpl env items s.conn).1 := by
  unfold FdConn.sendFiles
  split
  · rfl
  · simp only
    split <;> rfl

@[simp] theorem FdConn.handleFileHeader_conn (frame : Bytes) (s : FdConn ι) :
    (s.handleFileHeader os env frame).conn = DFile.handleFileHeader env frame s.conn := by
  unfold FdConn.handleFileHeader
  split <;> rfl

@[simp] theorem FdConn.handleData_conn (frame : Bytes) (s : FdConn ι) :
    (s.handleData os env frame).conn = DFile.handleData env frame s.conn := by
  unfold FdConn.handleData
  split
  · rfl
  split
  · rfl
  · simp only
    split
    · rfl
    · split <;> rfl

@[simp] theorem FdConn.handleFrame_conn (frame : Bytes) (s : FdConn ι) :
    (s.handleFrame os env frame).conn = DFile.handleFrame env frame s.conn := by
  unfold FdConn.handleFrame
  split
  · rename_i h hunpack
    split
    · rename_i htype
      simp only [FdConn.handleFileHeader_conn, DFile.handleFrame, hunpack, htype]
    · rename_i htype
      simp only [FdConn.handleData_conn, DFile.handleFrame, hunpack, htype]
    · rfl
  · rfl

theorem FdConn.handle_conn (s : FdConn ι) (buf : Bytes) :
    dcHandle env s.conn buf = ((s.handle os env buf).1.conn, (s.handle os env buf).2) := by
  rw [FdConn.handle, dcHandle]
  cases dfileFrameHeaderUnpack buf with
  | ok h => simp only [FdConn.handleFrame_conn]
  | incomplete => rfl
  | invalid => rfl

theorem FdConn.read_conn (chunk : Bytes) (s : FdConn ι) :
    (s.read os env chunk).conn = dcRead env chunk s.conn := by
  unfold FdConn.read dcRead feed
  rw [drain_map FdConn.conn (fun _ => rfl) FdConn.handle_conn]

/-- The frames that a read dispatches, with the whole state they meet. -/
theorem FdConn.read_dispatched (chunk : Bytes) (s : FdConn ι) :
    dcDispatched env chunk s.conn =
      (feedDispatched dcCut (FdConn.handle os env) (fun s => s.conn.stopped)
        (s, s.conn.rxbuf) chunk).map fun d => (d.1.conn, d.2) :=
  dispatched_map FdConn.conn (fun _ => rfl) FdConn.handle_conn _

/-- **The engine is below.** An event with descriptors is that event of the connection. -/
theorem FdConn.step_conn {s s' : FdConn ι} {e : DcEv}
    (h : s.step os sha256Hex (.event e) = some s') : s.conn.step sha256Hex e = some s'.conn := by
  rw [FdConn.step] at h
  rw [DFileConn.step]
  split at h
  · rename_i henabled
    cases h
    rw [if_pos henabled]
    cases e with
    | read env chunk => exact congrArg some (FdConn.read_conn chunk s).symm
    | sendFiles env items => exact congrArg some (FdConn.sendFiles_conn items s).symm
    | _ => rfl
  · cases h

end

/-! ## The files that are received -/

/-- A file up to its digest. -/
def DCFile.undigested (f : DCFile) : DCFile := { f with digested := none }

def DFileConn.rxFiles (c : DFileConn) : List DCFile :=
  (c.rx.elim [] DCTrans.files).map DCFile.undigested

section
variable {sha256Hex : Bytes → Bytes} {env : DcEnv} {late : Prop} {fr : Option Bytes}
  {c c' : DFileConn}

theorem DFileConn.rxFiles_of {t : DCTrans} (h : c.rx = some t) :
    c.rxFiles = t.files.map DCFile.undigested := by
  rw [DFileConn.rxFiles, h]
  rfl

theorem transFail_rxFiles (isSender : Bool) (reason : String) (sendRst : Bool) (c : DFileConn) :
    (transFail env isSender reason sendRst c).rxFiles = c.rxFiles := by
  rcases transFail_spec env isSender reason sendRst c with hsame | ⟨t, w, crash, ht, -, -, -, heq⟩
  · rw [hsame]
  · rw [heq]
    cases isSender with
    | true => rfl
    | false =>
        have hrx : c.rx = some t := ht
        rw [DFileConn.rxFiles_of hrx]
        rfl

/-- A move that handles no header and no data keeps the files. -/
theorem DcMove.rxFiles (hfr : ∀ frame, fr = some frame →
      dfileDecodeFileHeader frame = none ∧ dfileDecodeData frame = none)
    (hm : DcMove sha256Hex env late fr c c') : c'.rxFiles = c.rxFiles := by
  have hheader : ∀ {frame : Bytes} {h : DFileHeaderFrame}, fr = some frame →
      dfileDecodeFileHeader frame ≠ some h := by
    rintro frame h hf hh
    rw [(hfr frame hf).1] at hh
    cases hh
  have hdata : ∀ {frame : Bytes} {d : DFileData}, fr = some frame →
      dfileDecodeData frame ≠ some d := by
    rintro frame d hf hd
    rw [(hfr frame hf).2] at hd
    cases hd
  have hsame : ∀ {t t' : DCTrans}, c.rx = some t → c'.rx = some t' → t'.files = t.files →
      c'.rxFiles = c.rxFiles := by
    intro t t' ht ht' hfiles
    rw [DFileConn.rxFiles_of ht, DFileConn.rxFiles_of ht', hfiles]
  cases hm with
  | fail isSender reason sendRst => exact transFail_rxFiles isSender reason sendRst c
  | header hf hh => exact absurd hh (hheader hf)
  | opened hf hh => exact absurd hh (hheader hf)
  | write hf hd => exact absurd hd (hdata hf)
  | waitData ht => exact hsame ht rfl rfl
  | flushNone ht => exact hsame ht rfl rfl
  | flush ht => exact hsame ht rfl rfl
  | @digest t ht =>
      rw [DFileConn.rxFiles_of ht]
      exact rxCheckFiles_map sha256Hex DCFile.undigested (fun _ _ => rfl) t.files
  | done ht => exact hsame ht rfl rfl
  | doneack _ ht => exact hsame ht rfl rfl
  | _ => rfl

theorem DcMoves.rxFiles (hfr : ∀ frame, fr = some frame →
      dfileDecodeFileHeader frame = none ∧ dfileDecodeData frame = none)
    (hm : DcMoves sha256Hex env late fr c c') : c'.rxFiles = c.rxFiles := by
  induction hm with
  | refl => rfl
  | tail _ hlast ih => exact (hlast.rxFiles hfr).trans ih

theorem rxFiles_quiet (hm : DcMoves id env True none c c') : c'.rxFiles = c.rxFiles :=
  hm.rxFiles fun _ hf => by cases hf

theorem rxHeaderComplete_rxFiles {t : DCTrans} (hrx : c.rx = some t)
    (hnode : t.nodeNumber.toNat ≤ t.hdr.length) (hidle : t.phase = .idle → t.files = []) :
    (rxHeaderComplete env c).rxFiles =
      if t.phase = .idle then
        c.recvDir.elim [] fun dir =>
          (rxOpenFiles env dir c.blockSize c.opened [] t.hdr).2.1.map DCFile.undigested
      else c.rxFiles := by
  simp only [rxHeaderComplete, hrx]
  by_cases hphase : t.phase = .idle
  · have hfiles := hidle hphase
    rw [if_neg (not_not.mpr hphase), if_pos hphase]
    cases c.recvDir with
    | none =>
        show (transFail env false _ false c).rxFiles = []
        rw [transFail_rxFiles, DFileConn.rxFiles_of hrx, hfiles]
        rfl
    | some dir =>
        obtain ⟨new, hnew, -, hok, -, -⟩ := rxOpenFiles_spec env dir c.blockSize t.hdr c.opened []
        simp only [hfiles, Option.elim_some]
        split
        · rfl
        · rename_i why _
          refine rxFiles_quiet (DFileConn.andThen_moves (dcSendRst_moves _ _ [] _) fun _ => ?_)
          exact transFail_moves false why false _
        · rename_i hres
          have hids := hok hres
          rw [← List.nil_append new, ← hnew] at hids
          let t' := { t with files := (rxOpenFiles env dir c.blockSize c.opened [] t.hdr).2.1 }
          have hconfirm : ∀ {c : DFileConn}, c.rx = some t' →
              DcMoves id env True none c (rxConfirm env t' c) :=
            fun hrx => rxConfirm_moves hrx hphase hnode hids
          exact rxFiles_quiet ((DcMove.fileList (t := t') rfl).moves.trans (hconfirm rfl))
  · rw [if_pos hphase, if_neg hphase]

/-- The transfer that a header frame adds its entries to. -/
theorem rxAddHeader_rxFiles {t : DCTrans} {h : DFileHeaderFrame}
    (hsame : t.nodeNumber = h.nodeNumber) (hfiles : c.rxFiles = t.files.map DCFile.undigested)
    (hidle : t.phase = .idle → t.files = []) :
    (rxAddHeader env h t c).rxFiles =
      if t.phase = .idle ∧ (rxAddEntries h.nodeNumber.toNat t.hdr h.entries).2 = true ∧
          h.nodeNumber.toNat ≤ (rxAddEntries h.nodeNumber.toNat t.hdr h.entries).1.length then
        c.recvDir.elim [] fun dir =>
          (rxOpenFiles env dir c.blockSize c.opened []
            (rxAddEntries h.nodeNumber.toNat t.hdr h.entries).1).2.1.map DCFile.undigested
      else c.rxFiles := by
  simp only [rxAddHeader]
  set r := rxAddEntries h.nodeNumber.toNat t.hdr h.entries
  rcases hfits : r.2 with _ | _
  · rw [if_neg (by simp), if_neg (by simp), hfiles]
    exact rxFiles_quiet (shutdownCommon_moves _ _)
  rw [if_pos rfl]
  by_cases hfull : h.nodeNumber.toNat ≤ r.1.length
  · rw [if_pos hfull]
    refine (rxHeaderComplete_rxFiles (t := { t with hdr := r.1 }) rfl (hsame ▸ hfull) hidle).trans ?_
    simp only [hfull, and_true, hfiles]
    rfl
  · rw [if_neg hfull, if_neg (by simp [hfull]), hfiles]
    rfl

/-- What a header frame does to the files. -/
theorem handleFileHeader_rxFiles {frame : Bytes} (hidle : c.Unopened) :
    (handleFileHeader env frame c).rxFiles =
      match rxHeaderTarget env frame c with
      | none => c.rxFiles
      | some (t, dir) =>
          (rxOpenFiles env dir c.blockSize c.opened [] t.hdr).2.1.map DCFile.undigested := by
  rw [rxHeaderTarget]
  unfold handleFileHeader
  rcases hh : dfileDecodeFileHeader frame with _ | h
  · simp only
    split
    · rfl
    · exact rxFiles_quiet (shutdownCommon_moves _ c)
  simp only
  by_cases hnode : h.nodeNumber = 0
  · simp only [hnode, ne_eq, not_true_eq_false, false_and, if_false, if_true]
    split
    · rfl
    · exact rxFiles_quiet (shutdownCommon_moves _ c)
  set t := rxHeaderTrans env h c with ht
  -- both branches add the entries to a transfer of the frame's number
  have hadd : t.transId = h.transId → t.nodeNumber = h.nodeNumber →
      c.rxFiles = t.files.map DCFile.undigested → (t.phase = .idle → t.files = []) →
      (rxAddHeader env h t c).rxFiles = match
        (if h.nodeNumber ≠ 0 ∧ t.phase = .idle ∧ t.transId = h.transId ∧
            t.nodeNumber = h.nodeNumber ∧
            (rxAddEntries h.nodeNumber.toNat t.hdr h.entries).2 = true ∧
            h.nodeNumber.toNat ≤ (rxAddEntries h.nodeNumber.toNat t.hdr h.entries).1.length then
          c.recvDir.map fun dir =>
            ({ t with hdr := (rxAddEntries h.nodeNumber.toNat t.hdr h.entries).1 }, dir)
        else none) with
      | none => c.rxFiles
      | some (t, dir) =>
          (rxOpenFiles env dir c.blockSize c.opened [] t.hdr).2.1.map DCFile.undigested := by
    intro htrans hsame hfiles hempty
    rw [rxAddHeader_rxFiles hsame hfiles hempty]
    by_cases hfull : t.phase = .idle ∧
        (rxAddEntries h.nodeNumber.toNat t.hdr h.entries).2 = true ∧
        h.nodeNumber.toNat ≤ (rxAddEntries h.nodeNumber.toNat t.hdr h.entries).1.length
    · rw [if_pos hfull, if_pos ⟨hnode, hfull.1, htrans, hsame, hfull.2⟩]
      cases c.recvDir with
      | none =>
          rw [hfiles, hempty hfull.1]
          rfl
      | some dir => rfl
    · rw [if_neg hfull, if_neg fun h => hfull ⟨h.2.1, h.2.2.2.2⟩]
  cases hrx : c.rx with
  | none =>
      have hnew : t = { transNew false h.transId env.now with nodeNumber := h.nodeNumber } := by
        rw [ht, rxHeaderTrans, hrx]
        rfl
      rw [Option.any_none, if_neg Bool.false_ne_true, if_neg hnode]
      show (rxAddHeader env h { transNew false h.transId env.now with nodeNumber := h.nodeNumber }
        c).rxFiles = _
      rw [← hnew]
      apply hadd
      · rw [hnew]
        rfl
      · rw [hnew]
      · rw [hnew, DFileConn.rxFiles, hrx]
        rfl
      · rw [hnew]
        exact fun _ => rfl
  | some u =>
      have hold : t = u := by
        rw [ht, rxHeaderTrans, hrx]
        rfl
      rw [← hold, Option.any_some]
      by_cases hended : t.phase = .failed ∨ t.phase = .rxDone
      · rw [if_pos (decide_eq_true hended), if_neg]
        rintro ⟨-, hphase, -⟩
        rw [hphase] at hended
        simp at hended
      rw [decide_eq_false hended, if_neg Bool.false_ne_true, if_neg hnode]
      show DFileConn.rxFiles (if t.transId ≠ h.transId ∨ t.nodeNumber ≠ h.nodeNumber then _
        else rxAddHeader env h t c) = _
      by_cases hmatch : t.transId ≠ h.transId ∨ t.nodeNumber ≠ h.nodeNumber
      · rw [if_pos hmatch, if_neg]
        · exact rxFiles_quiet (shutdownCommon_moves _ c)
        · rintro ⟨-, -, htrans, hsame, -⟩
          exact hmatch.elim (fun h => h htrans) fun h => h hsame
      · rw [if_neg hmatch]
        rw [not_or, not_not, not_not] at hmatch
        rw [← hold] at hrx
        exact hadd hmatch.1 hmatch.2 (DFileConn.rxFiles_of hrx) (hidle t hrx)

theorem rxHeaderTarget_some {frame : Bytes} {t : DCTrans} {dir : Bytes} (hidle : c.Unopened)
    (h : rxHeaderTarget env frame c = some (t, dir)) : c.rxFiles = [] ∧ c.recvDir = some dir := by
  rw [rxHeaderTarget] at h
  split at h
  · cases h
  simp only at h
  split at h
  · rename_i hcond
    obtain ⟨d, hdir, hd⟩ := Option.map_eq_some_iff.mp h
    cases hd
    refine ⟨?_, hdir⟩
    cases hrx : c.rx with
    | none =>
        rw [DFileConn.rxFiles, hrx]
        rfl
    | some u =>
        rw [rxHeaderTrans, hrx] at hcond
        rw [DFileConn.rxFiles_of hrx, hidle u hrx hcond.2.1]
        rfl
  · cases h

/-- A header whose list divides by the block size zero. -/
theorem rxHeaderTarget_divides {frame : Bytes} {t : DCTrans} {dir : Bytes}
    (h : rxHeaderTarget env frame c = some (t, dir))
    (hres : (rxOpenFiles env dir c.blockSize c.opened [] t.hdr).2.2 = .crashed) :
    DividesByZero env c frame := by
  obtain ⟨-, -, -, -, hcrash, -⟩ := rxOpenFiles_spec env dir c.blockSize t.hdr c.opened []
  have hblock := hcrash hres
  rw [hblock] at hres
  rw [rxHeaderTarget] at h
  split at h
  · cases h
  rename_i x hx
  simp only at h
  split at h
  · rename_i hcond
    obtain ⟨hnode, hphase, htrans, hsame, hfits, hfull⟩ := hcond
    obtain ⟨d, hdir, hd⟩ := Option.map_eq_some_iff.mp h
    cases hd
    set u := rxHeaderTrans env x c with hu
    set r := rxAddEntries x.nodeNumber.toNat u.hdr x.entries with hr
    cases hhdr : r.1 with
    | nil =>
        rw [hhdr, rxOpenFiles] at hres
        cases hres
    | cons he hes =>
        rw [hhdr, rxOpenFiles_zero] at hres
        refine ⟨x, u, he, hes, dir, hx, hnode, ?_, Prod.ext hhdr hfits, hhdr ▸ hfull, hdir, hres.1,
          hres.2.1, hres.2.2, hblock⟩
        rw [rxHeaderTrans] at hu
        cases hrx : c.rx with
        | none =>
            rw [hrx] at hu
            exact Or.inl ⟨rfl, hu⟩
        | some v =>
            rw [hrx] at hu
            exact Or.inr ⟨congrArg some hu.symm, hphase, htrans, hsame⟩
  · cases h

theorem handleFrame_target {frame : Bytes} {t : DCTrans} {dir : Bytes}
    (h : rxHeaderTarget env frame c = some (t, dir)) :
    DFile.handleFrame env frame c = handleFileHeader env frame c := by
  rw [rxHeaderTarget] at h
  split at h
  · cases h
  · rename_i x hx
    exact handleFrame_fileHeader hx

/-! ## Data -/

theorem updateFile_undigested {fileId : UInt16} {g : DCFile → DCFile}
    (hg : ∀ f, (g f).undigested = g f.undigested) (files : List DCFile) :
    (updateFile fileId g files).map DCFile.undigested =
      updateFile fileId g (files.map DCFile.undigested) := by
  induction files with
  | nil => rfl
  | cons f fs ih =>
      have hsame : f.undigested.fileId = f.fileId := rfl
      rw [List.map_cons, updateFile, updateFile, hsame]
      by_cases hid : f.fileId = fileId
      · rw [if_pos hid, if_pos hid, List.map_cons, hg]
      · rw [if_neg hid, if_neg hid, List.map_cons, ih]

/-- What a data frame does to the files. -/
theorem handleData_rxFiles (env : DcEnv) (frame : Bytes) (c : DFileConn) :
    (handleData env frame c).rxFiles =
      match rxDataTarget frame c with
      | none => c.rxFiles
      | some (d, _, f) =>
          if env.pwrite (f.fd.getD []) (d.blockSeq.toNat * c.blockSize) d.payload then
            updateFile d.fileId (rxWriteBlock c.blockSize d.payload) c.rxFiles
          else c.rxFiles := by
  rw [rxDataTarget]
  unfold handleData
  rcases hd : dfileDecodeData frame with _ | d
  · exact rxFiles_quiet (shutdownCommon_moves _ c)
  cases hrx : c.rx with
  | none => exact rxFiles_quiet (dcRstShutdown_moves _ _ _ c)
  | some t =>
      simp only
      by_cases hactive : t.phase = .rxWaitData ∧ d.transId = t.transId
      · rw [if_neg (by simp [hactive.1, hactive.2]), if_pos hactive]
        cases hfind : findFile t.files d.fileId with
        | none => exact rxFiles_quiet (dcRstShutdown_moves _ _ _ c)
        | some f =>
            simp only [rxDataFile, Option.bind_some]
            by_cases hrange : d.blockSeq.toNat ≥ f.totalBlocks
            · rw [if_pos hrange]
              simp only [Nat.not_lt.mpr hrange, false_and, if_false]
              exact rxFiles_quiet (dcRstShutdown_moves _ _ _ c)
            rw [if_neg hrange]
            rcases Nat.lt_trichotomy d.blockSeq.toNat f.expectedSeq with hold | hseq | hgap
            · simp only [hold, hold.ne, false_and, and_false, if_true, if_false]
            · simp only [hseq, Nat.lt_irrefl, gt_iff_lt, if_false, true_and]
              rw [hseq] at hrange
              simp only [Nat.lt_of_not_le hrange, true_and]
              by_cases hlen : d.payload.length = dcBlockLen f.size c.blockSize f.expectedSeq
              · simp only [hlen, ne_eq, not_true_eq_false, if_true, if_false]
                rw [hseq]
                cases env.pwrite (f.fd.getD []) (f.expectedSeq * c.blockSize) d.payload with
                | false => exact rxFiles_quiet (dcRstShutdown_moves _ _ _ c)
                | true =>
                    rw [DFileConn.rxFiles_of hrx]
                    exact updateFile_undigested (g := rxWriteBlock c.blockSize d.payload)
                      (fun _ => rfl) t.files
              · simp only [hlen, ne_eq, not_false_eq_true, if_true, if_false]
                exact rxFiles_quiet (dcRstShutdown_moves _ _ _ c)
            · simp only [Nat.not_lt.mpr hgap.le, hgap.ne', hgap, false_and, and_false, if_true,
                if_false]
              exact rxFiles_quiet (dcRstShutdown_moves _ _ _ c)
      · rw [if_neg hactive, if_pos (by rw [not_and_or] at hactive; exact hactive)]
        exact rxFiles_quiet (dcRstShutdown_moves _ _ _ c)

theorem rxDataTarget_some {frame : Bytes} {d : DFileData} {t : DCTrans} {f : DCFile}
    (h : rxDataTarget frame c = some (d, t, f)) :
    findFile c.rxFiles d.fileId = some f.undigested ∧ d.blockSeq.toNat = f.expectedSeq ∧
      f.expectedSeq < f.totalBlocks ∧
      d.payload.length = dcBlockLen f.size c.blockSize f.expectedSeq := by
  rw [rxDataTarget] at h
  split at h
  · rename_i d' t' hd hrx
    split at h
    · obtain ⟨f', hf', hif⟩ := Option.bind_eq_some_iff.mp h
      split at hif
      · rename_i hblock
        cases hif
        refine ⟨?_, hblock.2.1, hblock.2.1 ▸ hblock.1, hblock.2.1 ▸ hblock.2.2⟩
        rw [DFileConn.rxFiles_of hrx, findFile, List.find?_map]
        exact congrArg (Option.map DCFile.undigested) hf'
      · cases hif
    · cases h
  · cases h

end

/-! ## Invariant rules -/

/-- The frames that an event dispatches, each with the connection it meets. -/
def FdEv.dispatches (c : DFileConn) : FdEv → List (DFileConn × DcEnv × Bytes)
  | .event e => e.dispatches c
  | .teardown => []

/-- A condition on every frame of an event. -/
def FdEv.every {ι : Type*} (test : DcEnv → DFileConn → Bytes → Bool) (s : FdConn ι) (e : FdEv) :
    Bool :=
  (e.dispatches s.conn).all fun d => test d.2.1 d.1 d.2.2

section
variable {ι : Type*} [DecidableEq ι] {os : Os ι} {sha256Hex : Bytes → Bytes}

theorem FdConn.handleFrame_cases (env : DcEnv) (frame : Bytes) (s : FdConn ι) :
    (DFile.handleFrame env frame s.conn = DFile.handleFileHeader env frame s.conn ∧
        s.handleFrame os env frame = s.handleFileHeader os env frame) ∨
      (DFile.handleFrame env frame s.conn = DFile.handleData env frame s.conn ∧
        s.handleFrame os env frame = s.handleData os env frame) ∨
      (dfileDecodeFileHeader frame = none ∧ dfileDecodeData frame = none ∧
        s.handleFrame os env frame = { s with conn := DFile.handleFrame env frame s.conn }) := by
  rw [FdConn.handleFrame]
  cases hunpack : dfileFrameHeaderUnpack frame with
  | incomplete =>
      refine Or.inr (Or.inr ⟨?_, ?_, rfl⟩)
      · simp [dfileDecodeFileHeader, framePayload, hunpack]
      · simp [dfileDecodeData, framePayload, hunpack]
  | invalid =>
      refine Or.inr (Or.inr ⟨?_, ?_, rfl⟩)
      · simp [dfileDecodeFileHeader, framePayload, hunpack]
      · simp [dfileDecodeData, framePayload, hunpack]
  | ok head =>
      simp only
      split
      · rename_i hheader
        refine Or.inl ⟨?_, rfl⟩
        rw [DFile.handleFrame, hunpack]
        simp only [hheader]
      · rename_i hdata
        refine Or.inr (Or.inl ⟨?_, rfl⟩)
        rw [DFile.handleFrame, hunpack]
        simp only [hdata]
      · rename_i hheader hdata
        refine Or.inr (Or.inr ⟨dfileDecodeFileHeader_eq_none hunpack hheader, ?_, rfl⟩)
        have hne : head.type ≠ DFileFrameType.fileData.code := by
          intro hcode
          apply hdata
          rw [hcode]
          rfl
        simp [dfileDecodeData, framePayload, hunpack, hne]

/-- **Invariant rule for events.** What the moves without a frame, the dispatch of a frame,
`send_files` and the teardown keep, every step keeps. -/
theorem FdConn.step_keeps {Inv : FdConn ι → Prop} (okFrame : DcEnv → DFileConn → Bytes → Prop)
    (hmoves : ∀ {env : DcEnv} {s : FdConn ι} {c' : DFileConn}, Inv s → s.conn.stopped = false →
      DcMoves sha256Hex env.shut True none s.conn c' → Inv { s with conn := c' })
    (hbuffer : ∀ {s : FdConn ι} (buf : Bytes), Inv s →
      Inv { s with conn := { s.conn with rxbuf := buf } })
    (hframe : ∀ {env : DcEnv} {s : FdConn ι} {frame : Bytes}, Inv s → s.conn.stopped = false →
      okFrame env s.conn frame → Inv (s.handleFrame os env frame))
    (hsend : ∀ {env : DcEnv} {s : FdConn ι} (items : List DFileSendItem), Inv s →
      s.conn.stopped = false → Inv (s.sendFiles os env items))
    (hteardown : ∀ {s : FdConn ι}, Inv s → s.conn.state = .closing → s.conn.crash = none →
      Inv { s with tx := [], rx := [], fds := transFree (transFree s.fds s.tx) s.rx, torn := true })
    {s s' : FdConn ι} {e : FdEv} (h : Inv s)
    (hok : ∀ d ∈ e.dispatches s.conn, okFrame d.2.1 d.1 d.2.2)
    (hs : s.step os sha256Hex e = some s') : Inv s' := by
  have hshutdown : ∀ (env : DcEnv) (reason : String) {s : FdConn ι}, Inv s →
      s.conn.stopped = false → Inv { s with conn := shutdownCommon env reason s.conn } := by
    intro env reason s h hopen
    have hm : DcMoves sha256Hex env.shut True none s.conn (shutdownCommon env reason s.conn) :=
      shutdownCommon_moves reason s.conn
    exact hmoves h hopen hm
  have hread : ∀ (env : DcEnv) (chunk : Bytes),
      (∀ d ∈ dcDispatched env chunk s.conn, okFrame env d.1 d.2) → Inv (s.read os env chunk) := by
    intro env chunk hok
    apply hbuffer
    apply feed_keeps_where Inv fun s frame => okFrame env s.conn frame
    · intro s buf k h hopen hk hok
      unfold FdConn.handle
      rcases hunpack : dfileFrameHeaderUnpack buf with head | - | -
      · simp only [dcCut, hunpack] at hk
        split at hk
        · cases hk
        · cases hk
          exact hframe h hopen hok
      · exact hshutdown env _ h hopen
      · exact hshutdown env _ h hopen
    · exact h
    · intro d hd
      rw [FdConn.read_dispatched] at hok
      exact hok (d.1.conn, d.2) (List.mem_map.mpr ⟨d, hd, rfl⟩)
  cases e with
  | event e =>
      rw [FdConn.step] at hs
      split at hs
      · rename_i henabled
        cases hs
        rw [Bool.and_eq_true, Bool.not_eq_true'] at henabled
        have hopen := henabled.1
        cases e with
        | start env =>
            have hm : DcMoves sha256Hex env.shut True none s.conn (dcSendLocalSetting env s.conn) :=
              dcSendLocalSetting_moves s.conn (DFileConn.stopped_eq_false hopen).2
            exact hmoves h hopen hm
        | read env chunk =>
            apply hread
            intro d hd
            exact hok (d.1, env, d.2) (List.mem_map.mpr ⟨d, hd, rfl⟩)
        | eof env => exact hshutdown env _ h hopen
        | socketError env _ => exact hshutdown env _ h hopen
        | tick env =>
            have hm : DcMoves sha256Hex env.shut True none s.conn (onTick sha256Hex env s.conn) := by
              rw [← onTick_shut]
              exact onTick_moves fun _ => trivial
            exact hmoves h hopen hm
        | sendFiles env items => exact hsend items h hopen
        | close env => exact hshutdown env _ h hopen
      · cases hs
  | teardown =>
      rw [FdConn.step] at hs
      split at hs
      · rename_i hclosing
        cases hs
        exact hteardown h hclosing.1 hclosing.2.1
      · cases hs

end

end HwPhoneLink.DFile
