import HwPhoneLink.DFile.Conn

/-!
# The sending half of a DFile connection
-/

namespace HwPhoneLink.DFile

open BigEndian Path HwPhoneLink.Testfile

/-! ## Starting a transfer -/

def txAllSent (t : DCTrans) : Bool :=
  t.files.all fun f => !(decide (f.nextSeq < f.totalBlocks) || decide (f.retrans.length > 0))

def txAllAcked (t : DCTrans) : Bool := t.files.all fun f => f.ackedAll

def DCFile.headerEntry (f : DCFile) : DFileHeaderEntry :=
  ⟨f.fileId, UInt64.ofNat f.size, f.name⟩

/-- The header loop from entry `start` on; `fuel` is the number of entries
left. -/
def txSendHeaderFrom (env : DcEnv) (transId : UInt16) (ents : List DFileHeaderEntry) :
    ℕ → ℕ → DFileConn → DFileConn × Bool
  | 0, _, c => (c, true)
  | fuel + 1, start, c =>
      if start < ents.length then
        match dfileEncodeFileHeader (dfileFrameMaxSize + 16) transId
            (UInt16.ofNat ents.length) ents start (ents.length - start) with
        | none => (c, false)
        | some (frame, written) =>
            match dcSend env c frame with
            | (c, false) => (c, false)
            | (c, true) => txSendHeaderFrom env transId ents fuel (start + written) c
      else (c, true)

def txSendHeader (env : DcEnv) (t : DCTrans) (c : DFileConn) : DFileConn × Bool :=
  txSendHeaderFrom env t.transId (t.files.map DCFile.headerEntry) t.files.length 0 c

/-- One item; `name` NULL is `none`. -/
structure DFileSendItem where
  path : Bytes
  name : Option Bytes
  size : ℕ
deriving DecidableEq, Repr

/-- One round of the item loop. -/
def txOpenFile (env : DcEnv) (blockSize i : ℕ) (item : DFileSendItem) : DcOpened DCFile :=
  if !env.openRead item.path then
    .failed ("cannot open " ++ text item.path ++ ": " ++ env.strerror)
  else
    match env.fstat item.path with
    | none => .failed ("fstat failed for " ++ text item.path)
    | some size =>
        if item.size ≠ 0 ∧ item.size ≠ size then .failed ("size mismatch for " ++ text item.path)
        else if size > dfileMaxFileSize then .failed (text item.path ++ " exceeds 512GB limit")
        else if blockSize = 0 then .crashed
        else
          .ok
            { fileId := UInt16.ofNat (i + 1), size := size
              name := cString (item.name.getD (ascii "unnamed"))
              fd := some item.path, totalBlocks := dcTotalBlocks size blockSize
              nextSeq := 0, retrans := [], lastAcked := none
              ackedAll := decide (dcTotalBlocks size blockSize = 0), confirmed := false
              expectedSeq := 0, writeComplete := false, sha := [], expectedSha := none
              writes := [], digested := none }

def txOpenFiles (env : DcEnv) (blockSize : ℕ) :
    ℕ → List DFileSendItem → DcOpened (List DCFile)
  | _, [] => .ok []
  | i, item :: items =>
      match txOpenFile env blockSize i item with
      | .failed why => .failed why
      | .crashed => .crashed
      | .ok f =>
          match txOpenFiles env blockSize (i + 1) items with
          | .failed why => .failed why
          | .crashed => .crashed
          | .ok fs => .ok (f :: fs)

/-- The connection and the error text, `none` on success. -/
def sendFilesImpl (env : DcEnv) (items : List DFileSendItem) (c : DFileConn) :
    DFileConn × Option String :=
  if c.state ≠ .ready then (c, some "connection not negotiated yet")
  else if c.tx.isSome then (c, some "a send transfer is already active")
  else if items.length = 0 ∨ items.length > dfileMaxFileNum then
    (c, some "file count out of range")
  else
    let t := transNew true c.nextTransId env.now
    let c := { c with nextTransId := c.nextTransId + 1 }
    match txOpenFiles env c.blockSize 0 items with
    | .failed why => (c, some why)
    | .crashed => ({ c with crash := some .divideByZero }, none)
    | .ok files =>
        let t := { t with files := files }
        match txSendHeader env t { c with tx := some t } with
        | (c, false) =>
            (c.andThen fun c => { c with tx := none }, some "file header send failed")
        | (c, true) => ({ c with tx := some { t with phase := .txWaitConfirmReq } }, none)

/-! ## Pump -/

/-- What `tx_pump` carries from block to block. `failure` is the reason, and
whether a reset goes with it. -/
structure TxPump where
  conn : DFileConn
  budget : ℕ
  lastRetranMs : UInt64
  failure : Option (String × Bool)

/-- Read block `seq` of a file; `none` unless all of it could be read. -/
def dcReadBlock (env : DcEnv) (blockSize : ℕ) (f : DCFile) (seq : ℕ) : Option Bytes :=
  let want := dcBlockLen f.size blockSize seq
  (env.pread (f.fd.getD []) (seq * blockSize) want).filter fun block => block.length = want

/-- Read, encode and send one block. -/
def txSendBlock (env : DcEnv) (transId : UInt16) (flag : UInt8) (readError : String)
    (sendError : String) (f : DCFile) (seq : ℕ) (p : TxPump) : TxPump :=
  match dcReadBlock env p.conn.blockSize f seq with
  | none => { p with failure := some (readError, true) }
  | some block =>
      match dfileEncodeData (dfileFrameMaxSize + 16) transId flag f.fileId (UInt32.ofNat seq)
          block with
      | none => { p with failure := some (sendError, false) }
      | some frame =>
          match dcSend env p.conn frame with
          | (c, false) => { p with conn := c, failure := some (sendError, false) }
          | (c, true) => { p with conn := c, budget := p.budget - 1 }

/-- The flags of block `nextSeq`. -/
def txBlockFlag (f : DCFile) : UInt8 :=
  (if f.nextSeq ≠ 0 then dfileFlagDataContinue else 0) |||
    (if f.nextSeq + 1 = f.totalBlocks then dfileFlagDataEnd else 0)

/-- The loop over new blocks; every round takes one off the budget. -/
def txPumpNew (env : DcEnv) (transId : UInt16) : ℕ → TxPump → DCFile → TxPump × DCFile
  | 0, p, f => (p, f)
  | fuel + 1, p, f =>
      if f.nextSeq < f.totalBlocks ∧ p.budget > 0 then
        let p := txSendBlock env transId (txBlockFlag f) ("read error: " ++ env.strerror)
          "data send failed" f f.nextSeq p
        if p.failure.isSome then (p, f)
        else
          txPumpNew env transId fuel p
            { f with retrans := f.retrans ++ [f.nextSeq], nextSeq := f.nextSeq + 1 }
      else (p, f)

/-- One retransmission: the oldest pending block. -/
def txPumpRetran (env : DcEnv) (transId : UInt16) (p : TxPump) (f : DCFile) : TxPump × DCFile :=
  match f.retrans with
  | [] => (p, f)
  | seq :: retrans =>
      if p.budget > 0 ∧
          (p.lastRetranMs = 0 ∨ env.now - p.lastRetranMs ≥ dcRetranIntervalMs) then
        let p := txSendBlock env transId (dfileFlagDataRetran ||| dfileFlagDataContinue)
          "retransmit read error" "retransmit send failed" f seq p
        if p.failure.isSome then (p, f)
        else ({ p with lastRetranMs := env.now }, { f with retrans := retrans })
      else (p, f)

/-- One round of the file loop. -/
def txPumpFile (env : DcEnv) (transId : UInt16) (p : TxPump) (f : DCFile) : TxPump × DCFile :=
  if f.nextSeq ≥ f.totalBlocks ∧ f.retrans.length = 0 then (p, f)
  else
    let r := txPumpNew env transId p.budget p f
    if r.1.failure.isSome then r else txPumpRetran env transId r.1 r.2

/-- The file loop; it stops at a failure and when the budget is used up. -/
def txPumpFiles (env : DcEnv) (transId : UInt16) (p : TxPump) :
    List DCFile → TxPump × List DCFile
  | [] => (p, [])
  | f :: fs =>
      if p.failure.isSome ∨ p.budget = 0 then (p, f :: fs)
      else
        let r := txPumpFile env transId p f
        let rs := txPumpFiles env transId r.1 fs
        (rs.1, r.2 :: rs.2)

def txPump (env : DcEnv) (c : DFileConn) : DFileConn :=
  match c.tx with
  | none => c
  | some t =>
      let r := txPumpFiles env t.transId ⟨c, dcSendBudget, t.lastRetranMs, none⟩ t.files
      let c := { r.1.conn with
        tx := some { t with files := r.2, lastRetranMs := r.1.lastRetranMs } }
      match r.1.failure with
      | none => c
      | some (why, sendRst) => c.andThen (transFail env true why sendRst)

/-! ## Control frames -/

def txFinishMsg (t : DCTrans) : String :=
  "sent " ++ toString t.files.length ++ " file(s), " ++
    toString ((t.files.map fun f => f.size).sum % 2 ^ 64) ++ " bytes (all acked, done+ack)"

def txFinish (env : DcEnv) (c : DFileConn) : DFileConn :=
  match c.tx with
  | none => c
  | some t =>
      if t.doneackSent = true ∨ t.phase = .txDone ∨ t.phase = .failed then c
      else
        match dcSendIdlist env .fileTransferDoneAck t.transId (t.files.map fun f => f.fileId) c with
        | (c, false) => c.andThen (transFail env true "DONE_ACK send failed" false)
        | (c, true) =>
            ({ c with tx := some { t with doneackSent := true, phase := .txDone } }).emit
              (.result true true (txFinishMsg t))

/-- What an id list of the type confirm or request does to the transfer. -/
def txCtrlUpdate (env : DcEnv) (type : DFileFrameType) (ids : List UInt16) (t : DCTrans) :
    DCTrans :=
  let t :=
    if type = .fileHeaderConfirm then
      let files := ids.foldl
        (fun files id => updateFile id (fun f => { f with confirmed := true }) files) t.files
      { t with files := files, allConfirmed := files.all fun f => f.confirmed }
    else { t with reqReceived := true }
  let t := { t with lastCtrlMs := env.now }
  if t.allConfirmed && t.reqReceived then { t with phase := .txSending } else t

def handleTxCtrl (env : DcEnv) (type : DFileFrameType) (frame : Bytes) (c : DFileConn) :
    DFileConn :=
  match c.tx with
  | none => c
  | some t =>
      if t.phase ≠ .txWaitConfirmReq then c
      else
        match dfileDecodeIdlist frame type with
        | none => shutdownCommon env "bad id-list frame" c
        | some l =>
            if l.transId ≠ t.transId then shutdownCommon env "id-list transfer mismatch" c
            else { c with tx := some (txCtrlUpdate env type l.ids t) }

/-- What an ACK entry does to its file. -/
def ackFile (lastSeq : ℕ) (f : DCFile) : DCFile :=
  if f.lastAcked.all fun l => decide (lastSeq > l) then
    { f with
      lastAcked := some lastSeq
      retrans := f.retrans.dropWhile fun seq => decide (seq ≤ lastSeq)
      ackedAll := f.ackedAll || decide (f.totalBlocks = 0 ∨ lastSeq + 1 ≥ f.totalBlocks) }
  else f

def ackEntry (files : List DCFile) (e : DFileAckEntry) : List DCFile :=
  if e.lastSeq.toNat = 2 ^ 32 - 1 then files
  else updateFile e.fileId (ackFile e.lastSeq.toNat) files

def handleAck (env : DcEnv) (frame : Bytes) (c : DFileConn) : DFileConn :=
  match c.tx with
  | none => c
  | some t =>
      if t.phase ≠ .txSending ∧ t.phase ≠ .txWaitDone then c
      else
        match dfileDecodeAck frame with
        | none => shutdownCommon env "bad FILE_DATA_ACK frame" c
        | some a =>
            if a.transId ≠ t.transId then shutdownCommon env "ACK transfer mismatch" c
            else
              let t := { t with files := a.entries.foldl ackEntry t.files }
              let c := { c with tx := some t }
              if t.doneReceived && txAllAcked t then txFinish env c else c

def handleDone (env : DcEnv) (frame : Bytes) (c : DFileConn) : DFileConn :=
  match c.tx with
  | none => c
  | some t =>
      if t.phase = .failed ∨ t.phase = .txDone then c
      else
        match dfileDecodeIdlist frame .fileTransferDone with
        | none => shutdownCommon env "bad FILE_TRANSFER_DONE frame" c
        | some l =>
            if l.transId ≠ t.transId then shutdownCommon env "DONE transfer mismatch" c
            else
              let t := { t with
                doneReceived := true
                phase := if t.phase = .txSending then .txWaitDone else t.phase }
              let c := { c with tx := some t }
              if txAllAcked t then txFinish env c else c

end HwPhoneLink.DFile
