import HwPhoneLink.DFile.Conn

/-!
# The receiving half of a DFile connection

`sha256Hex` stands for GLib's checksum, as in `ft_testfile.c`.
-/

namespace HwPhoneLink.DFile

open BigEndian Path HwPhoneLink.Testfile

/-! ## Acknowledging and completing -/

/-- The entries of an ACK: the first files with data, as many as fit. -/
def rxAckEntries (files : List DCFile) : List DFileAckEntry :=
  ((files.filter fun f => decide (f.expectedSeq > 0)).take dfileMaxAckEntries).map fun f =>
    ⟨f.fileId, UInt32.ofNat (f.expectedSeq - 1), 0, 0⟩

def rxFlushAck (env : DcEnv) (c : DFileConn) : DFileConn :=
  match c.rx with
  | none => c
  | some t =>
      let c := { c with rx := some { t with ackPending := false } }
      let ents := rxAckEntries t.files
      if ents.length = 0 then c
      else
        match dfileEncodeAck (dfileFrameHeaderLen + 12 + 37 * dfileMaxAckEntries) false t.transId 0
            ents with
        | none => transFail env false "ACK send failed" false c
        | some frame =>
            match dcSend env c frame with
            | (c, true) => c
            | (c, false) => c.andThen (transFail env false "ACK send failed" false)

/-- `g_ascii_tolower` -/
def asciiToLower (b : UInt8) : UInt8 := if 65 ≤ b ∧ b ≤ 90 then b + 32 else b

/-- `g_ascii_strcasecmp` finds no difference. -/
def asciiCaseEq (a b : Bytes) : Bool := a.map asciiToLower == b.map asciiToLower

/-- The loop of `rx_send_done`: the files with their digests taken, the message,
and whether every digest that a name gives agrees. -/
def rxCheckFiles (sha256Hex : Bytes → Bytes) :
    String → List DCFile → List DCFile × String × Bool
  | msg, [] => ([], msg, true)
  | msg, f :: fs =>
      let hex := sha256Hex f.sha
      let f' := { f with digested := some f.sha }
      match f.expectedSha with
      | some want =>
          if asciiCaseEq hex want then
            let r := rxCheckFiles sha256Hex
              (msg ++ " " ++ text f.name ++ " sha256=" ++ text hex ++ " OK") fs
            (f' :: r.1, r.2)
          else
            (f' :: fs, msg ++ " " ++ text f.name ++ ": SHA256 MISMATCH (got " ++ text hex ++
              ", want " ++ text want ++ ")", false)
      | none =>
          let r := rxCheckFiles sha256Hex
            (msg ++ " " ++ text f.name ++ " sha256=" ++ text hex ++ " (unverified)") fs
          (f' :: r.1, r.2)

def rxSendDone (sha256Hex : Bytes → Bytes) (env : DcEnv) (c : DFileConn) : DFileConn :=
  match c.rx with
  | none => c
  | some t =>
      if t.doneSent then c
      else
        let r := rxCheckFiles sha256Hex "received:" t.files
        let t := { t with files := r.1, resultMsg := some r.2.1 }
        let c := { c with rx := some t }
        if r.2.2 then
          match dcSendIdlist env .fileTransferDone t.transId (t.files.map fun f => f.fileId) c with
          | (c, false) => c.andThen (transFail env false "DONE send failed" false)
          | (c, true) => { c with rx := some { t with doneSent := true, phase := .rxWaitDoneack } }
        else
          (dcSendRst env t.transId dfileRstInternalError [] c).andThen
            (transFail env false "sha256 mismatch" false)

def handleDoneack (env : DcEnv) (frame : Bytes) (c : DFileConn) : DFileConn :=
  match c.rx with
  | none => c
  | some t =>
      if t.phase ≠ .rxWaitDoneack then c
      else
        match dfileDecodeIdlist frame .fileTransferDoneAck with
        | none => shutdownCommon env "bad DONE_ACK frame" c
        | some l =>
            if l.transId ≠ t.transId then shutdownCommon env "DONE_ACK transfer mismatch" c
            else
              ({ c with rx := some { t with phase := .rxDone } }).emit
                (.result false true (t.resultMsg.getD "received"))

/-! ## Headers -/

/-- The destination file, and the paths opened so far. -/
def rxOpenFile (env : DcEnv) (dir : Bytes) (blockSize : ℕ) (opened : List Bytes)
    (he : DFileHeaderEntry) : List Bytes × DcOpened DCFile :=
  let size := he.fileSize.toNat
  let dst := join dir he.name
  if size > dfileMaxFileSize then (opened, .failed "file size exceeds 512GB limit")
  else if !env.openWrite opened.length dst then
    (opened ++ [dst], .failed ("cannot create " ++ text dst ++ ": " ++ env.strerror))
  else if !env.ftruncate opened.length dst then
    (opened ++ [dst], .failed ("cannot pre-size " ++ text dst ++ ": " ++ env.strerror))
  else if blockSize = 0 then (opened ++ [dst], .crashed)
  else
    (opened ++ [dst], .ok
      { fileId := he.fileId, size := size, name := he.name, fd := some dst
        totalBlocks := dcTotalBlocks size blockSize
        nextSeq := 0, retrans := [], lastAcked := some 0, ackedAll := false, confirmed := false
        expectedSeq := 0, writeComplete := decide (dcTotalBlocks size blockSize = 0), sha := []
        expectedSha := ftTestfileNameSha he.name, writes := [], digested := none })

/-- The loop over the header entries: the paths opened, the files added to the
transfer, and how it ended. -/
def rxOpenFiles (env : DcEnv) (dir : Bytes) (blockSize : ℕ) :
    List Bytes → List DCFile → List DFileHeaderEntry → List Bytes × List DCFile × DcOpened Unit
  | opened, files, [] => (opened, files, .ok ())
  | opened, files, he :: hes =>
      match rxOpenFile env dir blockSize opened he with
      | (opened, .failed why) => (opened, files, .failed why)
      | (opened, .crashed) => (opened, files, .crashed)
      | (opened, .ok f) => rxOpenFiles env dir blockSize opened (files ++ [f]) hes

/-- Confirm and request, then the transfer waits for data. -/
def rxConfirm (env : DcEnv) (t : DCTrans) (c : DFileConn) : DFileConn :=
  let ids := t.hdr.map fun e => e.fileId
  let r1 := dcSendIdlist env .fileHeaderConfirm t.transId ids c
  r1.1.andThen fun c =>
    let r2 := if r1.2 then dcSendIdlist env .fileTransferReq t.transId ids c else (c, false)
    if r2.2 then { r2.1 with rx := some { t with phase := .rxWaitData } }
    else r2.1.andThen (transFail env false "confirm/req send failed" false)

def rxHeaderComplete (env : DcEnv) (c : DFileConn) : DFileConn :=
  match c.rx with
  | none => c
  | some t =>
      if t.phase ≠ .idle then c
      else
        match c.recvDir with
        | none => transFail env false "no receive directory set" false c
        | some dir =>
            let r := rxOpenFiles env dir c.blockSize c.opened t.files t.hdr
            let t := { t with files := r.2.1 }
            let c := { c with opened := r.1, rx := some t }
            match r.2.2 with
            | .crashed => { c with crash := some .divideByZero }
            | .failed why =>
                (dcSendRst env t.transId dfileRstNoEnoughStorage [] c).andThen
                  (transFail env false why false)
            | .ok _ => rxConfirm env t (c.emit (.fileList t.hdr))

/-- The accumulation loop; `none` when the entries overflow `node`. -/
def rxAddEntries (node : ℕ) (hdr : List DFileHeaderEntry) :
    List DFileHeaderEntry → List DFileHeaderEntry × Bool
  | [] => (hdr, true)
  | e :: es =>
      if hdr.any fun h => h.fileId = e.fileId then rxAddEntries node hdr es
      else if hdr.length + 1 > node then (hdr, false)
      else rxAddEntries node (hdr ++ [e]) es

/-- A complete frame with entries for the transfer `t`. -/
def rxAddHeader (env : DcEnv) (h : DFileHeaderFrame) (t : DCTrans) (c : DFileConn) : DFileConn :=
  let r := rxAddEntries h.nodeNumber.toNat t.hdr h.entries
  let c := { c with rx := some { t with hdr := r.1 } }
  if r.2 then
    if r.1.length ≥ h.nodeNumber.toNat then rxHeaderComplete env c else c
  else shutdownCommon env "FILE_HEADER entries overflow nodeNumber" c

def handleFileHeader (env : DcEnv) (frame : Bytes) (c : DFileConn) : DFileConn :=
  if c.rx.any fun t => t.phase = .failed ∨ t.phase = .rxDone then c
  else
    match dfileDecodeFileHeader frame with
    | none => shutdownCommon env "bad FILE_HEADER frame" c
    | some h =>
        if h.nodeNumber = 0 then shutdownCommon env "FILE_HEADER with nodeNumber 0" c
        else
          match c.rx with
          | none =>
              rxAddHeader env h
                { transNew false h.transId env.now with nodeNumber := h.nodeNumber } c
          | some t =>
              if t.transId ≠ h.transId ∨ t.nodeNumber ≠ h.nodeNumber then
                shutdownCommon env "FILE_HEADER transfer/node mismatch" c
              else rxAddHeader env h t c

/-! ## Data -/

/-- The write of block `expectedSeq`. -/
def rxWriteBlock (blockSize : ℕ) (payload : Bytes) (f : DCFile) : DCFile :=
  { f with
    sha := f.sha ++ payload
    expectedSeq := f.expectedSeq + 1
    writeComplete := f.writeComplete || decide (f.expectedSeq + 1 ≥ f.totalBlocks)
    fd := if f.expectedSeq + 1 ≥ f.totalBlocks then none else f.fd
    writes := f.writes ++ [(f.expectedSeq * blockSize, payload)] }

/-- A data frame for the file `f` of the transfer `t`. -/
def rxDataFile (env : DcEnv) (d : DFileData) (t : DCTrans) (f : DCFile) (c : DFileConn) :
    DFileConn :=
  let seq := d.blockSeq.toNat
  if seq ≥ f.totalBlocks then
    dcRstShutdown env t.transId dfileRstInternalError "FILE_DATA sequence out of range" c
  else if seq < f.expectedSeq then c
  else if seq > f.expectedSeq then
    dcRstShutdown env t.transId dfileRstInternalError "FILE_DATA gap (unexpected over TCP)" c
  else if d.payload.length ≠ dcBlockLen f.size c.blockSize seq then
    dcRstShutdown env t.transId dfileRstInternalError "FILE_DATA payload size mismatch" c
  else if !env.pwrite (f.fd.getD []) (seq * c.blockSize) d.payload then
    dcRstShutdown env t.transId dfileRstFileWriteError ("write error: " ++ env.strerror) c
  else
    { c with rx := some { t with
        files := updateFile d.fileId (rxWriteBlock c.blockSize d.payload) t.files
        ackPending := true } }

def handleData (env : DcEnv) (frame : Bytes) (c : DFileConn) : DFileConn :=
  match dfileDecodeData frame with
  | none => shutdownCommon env "bad FILE_DATA frame" c
  | some d =>
      let inactive :=
        dcRstShutdown env d.transId dfileRstInternalError "FILE_DATA with no active receive" c
      match c.rx with
      | none => inactive
      | some t =>
          if t.phase ≠ .rxWaitData ∨ d.transId ≠ t.transId then inactive
          else
            match findFile t.files d.fileId with
            | none =>
                dcRstShutdown env t.transId dfileRstInternalError "FILE_DATA unknown file id" c
            | some f => rxDataFile env d t f c

end HwPhoneLink.DFile
