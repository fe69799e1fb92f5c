import HwPhoneLink.DFile.Transmit
import HwPhoneLink.DFile.Receive

/-!
# Dispatch, tick and I/O of a DFile connection

`DFileConn.step` is one event on the engine thread. A dead process and a closed
connection have no events: their sources are gone.
-/

namespace HwPhoneLink.DFile

open BigEndian Path Framing HwPhoneLink.Testfile

/-! ## Setting and reset -/

def dcLocalSetting : DFileSetting where
  mtu := UInt16.ofNat dfileDefaultFrameSize
  connType := 1
  dfileVersion := dfileVersion
  abmCapability := 0
  capability := 0
  dataFrameSize := 0
  capsCheck := 0
  productVersion := ascii "hwphonelink 0.1.0"
  isSupport160m := 0
  isSupportMtp := 0
  mtpPort := 0
  headerEnc := 0
  mtpCapability := 0
  cipherCapability := 0

def dcSendLocalSetting (env : DcEnv) (c : DFileConn) : DFileConn :=
  if c.localSettingSent then c
  else
    match dfileEncodeSetting (dfileFrameHeaderLen + dfileSettingPayloadLen) dcLocalSetting with
    | none => shutdownCommon env "setting send failed: encode error" c
    | some frame =>
        match dcSendRaw env c frame with
        | (c, .sent) => { c with localSettingSent := true }
        | (c, .interrupted) =>
            shutdownCommon env "setting send failed: poll interrupted during send" c
        | (c, .error message) => shutdownCommon env ("setting send failed: " ++ message) c

/-- The block size a peer's setting selects. -/
def dcBlockSize (s : DFileSetting) : ℕ :=
  let maxBlock := dfileFrameMaxSize - dfileFrameHeaderLen - 6
  if s.dataFrameSize.toNat ≥ dfileMinMtuSize ∧ s.dataFrameSize.toNat ≤ maxBlock then
    s.dataFrameSize.toNat
  else dfileDefaultFrameSize

def handleSetting (env : DcEnv) (frame : Bytes) (c : DFileConn) : DFileConn :=
  if c.negotiated then c
  else
    match dfileDecodeSetting frame with
    | none => shutdownCommon env "bad SETTING frame" c
    | some s =>
        if s.mtu = 0 then
          dcRstShutdown env 0 dfileRstWithoutSetting "peer SETTING has mtu 0" c
        else
          ({ c with blockSize := dcBlockSize s, negotiated := true, state := .ready }).emit
            .negotiated

def handleRst (env : DcEnv) (frame : Bytes) (c : DFileConn) : DFileConn :=
  match dfileDecodeRst frame with
  | none => shutdownCommon env "bad RST frame" c
  | some r =>
      let why := "RST code " ++ toString r.code.toNat ++ " (" ++ rstCodeStr r.code ++ ")"
      if c.tx.any fun t => t.transId = r.transId then transFail env true why false c
      else if c.rx.any fun t => t.transId = r.transId then transFail env false why false c
      else c

/-! ## Dispatch -/

def handleFrame (env : DcEnv) (frame : Bytes) (c : DFileConn) : DFileConn :=
  match dfileFrameHeaderUnpack frame with
  | .ok h =>
      match DFileFrameType.ofCode h.type with
      | some .setting => handleSetting env frame c
      | some .fileHeader => handleFileHeader env frame c
      | some .fileHeaderConfirm => handleTxCtrl env .fileHeaderConfirm frame c
      | some .fileTransferReq => handleTxCtrl env .fileTransferReq frame c
      | some .fileData => handleData env frame c
      | some .fileDataAck => handleAck env frame c
      | some .fileTransferDone => handleDone env frame c
      | some .fileTransferDoneAck => handleDoneack env frame c
      | some .rst => handleRst env frame c
      | none => c
  | _ => shutdownCommon env "corrupt frame header" c

/-! ## Tick -/

section
variable (sha256Hex : Bytes → Bytes)

/-- The transfer timeout of one direction. -/
def dcTimeout (env : DcEnv) (isSender : Bool) (c : DFileConn) : DFileConn :=
  match c.trans isSender with
  | none => c
  | some t =>
      if t.phase ≠ (if isSender then DCPhase.txDone else DCPhase.rxDone) ∧ t.phase ≠ .failed ∧
          env.now - t.t0Ms > dcTransferTimeoutMs then
        transFail env isSender "transfer timeout" true c
      else c

/-- The receiver's part: pending ACKs, then the check for completion. -/
def rxTick (env : DcEnv) (c : DFileConn) : DFileConn :=
  match c.rx with
  | none => c
  | some t =>
      if t.phase ≠ .rxWaitData then c
      else
        (if t.ackPending then rxFlushAck env c else c).whileOpen fun c =>
          if c.rx.any fun t =>
              !t.doneSent && decide (t.files.length > 0) && t.files.all fun f => f.writeComplete
          then rxSendDone sha256Hex env c
          else c

/-- After the pump: all sent, and the finish condition. -/
def txAfterPump (env : DcEnv) (c : DFileConn) : DFileConn :=
  match c.tx with
  | none => c
  | some t =>
      let t := if t.phase = .txSending ∧ txAllSent t then { t with phase := .txWaitDone } else t
      let c := { c with tx := some t }
      if t.doneReceived && txAllAcked t then txFinish env c else c

/-- The sender's part. -/
def txTick (env : DcEnv) (c : DFileConn) : DFileConn :=
  if c.tx.any fun t => t.phase = .txSending ∨ t.phase = .txWaitDone then
    (txPump env c).whileOpen (txAfterPump env)
  else c

/-- The header again, while confirm and request are missing. -/
def txRetryHeader (env : DcEnv) (c : DFileConn) : DFileConn :=
  match c.tx with
  | none => c
  | some t =>
      if t.phase = .txWaitConfirmReq ∧ env.now - t.lastCtrlMs > dcCtrlRetryIntervalMs then
        let t := { t with ctrlRetries := t.ctrlRetries + 1 }
        let c := { c with tx := some t }
        if t.ctrlRetries > dcCtrlMaxRetries then
          transFail env true "header confirm timeout" true c
        else
          match txSendHeader env t c with
          | (c, true) => { c with tx := some { t with lastCtrlMs := env.now } }
          | (c, false) => c.andThen (transFail env true "header retransmit failed" false)
      else c

def onTick (env : DcEnv) (c : DFileConn) : DFileConn :=
  if !c.negotiated ∧ env.now - c.tConnectMs > dcNegotiateTimeoutMs then
    shutdownCommon env "setting negotiation timeout" c
  else
    let c := (dcTimeout env true c).andThen (dcTimeout env false)
    let c := c.whileOpen (rxTick sha256Hex env)
    let c := c.whileOpen (txTick env)
    c.whileOpen (txRetryHeader env)

end

/-! ## I/O -/

/-- The length of the front frame. A corrupt header is cut off at once. -/
def dcCut (buf : Bytes) : Option ℕ :=
  match dfileFrameHeaderUnpack buf with
  | .incomplete => none
  | .invalid => some 0
  | .ok h =>
      let total := dfileFrameHeaderLen + h.length.toNat
      if buf.length < total then none else some total

def dcHandle (env : DcEnv) (c : DFileConn) (buf : Bytes) : DFileConn × Bool :=
  match dfileFrameHeaderUnpack buf with
  | .ok h =>
      let c := handleFrame env (buf.take (dfileFrameHeaderLen + h.length.toNat)) c
      (c, !c.stopped)
  | _ => (shutdownCommon env "corrupt frame header" c, false)

/-- One read of `dc_drain`, and the frames it completes. -/
def dcRead (env : DcEnv) (chunk : Bytes) (c : DFileConn) : DFileConn :=
  let r := feed dcCut (dcHandle env) DFileConn.stopped (c, c.rxbuf) chunk
  { r.1 with rxbuf := r.2 }

/-- The frames a read dispatches, each with the connection it meets. -/
def dcDispatched (env : DcEnv) (chunk : Bytes) (c : DFileConn) : List (DFileConn × Bytes) :=
  feedDispatched dcCut (dcHandle env) DFileConn.stopped (c, c.rxbuf) chunk

/-! ## Events -/

inductive DcEv : Type where
  /-- The engine thread starts. -/
  | start (env : DcEnv)
  | read (env : DcEnv) (chunk : Bytes)
  /-- The read returns zero. -/
  | eof (env : DcEnv)
  | socketError (env : DcEnv) (message : String)
  | tick (env : DcEnv)
  | sendFiles (env : DcEnv) (items : List DFileSendItem)
  | close (env : DcEnv)

def DcEv.env : DcEv → DcEnv
  | .start env | .read env _ | .eof env | .socketError env _ | .tick env | .sendFiles env _
  | .close env => env

/-- What an event does once the loop runs. -/
def DFileConn.onEvent (sha256Hex : Bytes → Bytes) (c : DFileConn) : DcEv → DFileConn
  | .start env => dcSendLocalSetting env c
  | .read env chunk => dcRead env chunk c
  | .eof env => shutdownCommon env "peer closed connection" c
  | .socketError env message => shutdownCommon env ("socket error: " ++ message) c
  | .tick env => onTick sha256Hex env c
  | .sendFiles env items => (sendFilesImpl env items c).1
  | .close env => closeImpl env c

/-- The thread sends its setting before the loop runs; a close may come first. -/
def DcEv.enabled (e : DcEv) (c : DFileConn) : Bool :=
  match e with
  | .start _ => !c.localSettingSent
  | .close _ => true
  | _ => c.localSettingSent

def DFileConn.step (sha256Hex : Bytes → Bytes) (c : DFileConn) (e : DcEv) : Option DFileConn :=
  if !c.stopped && e.enabled c then some (c.onEvent sha256Hex e) else none

section
variable (sha256Hex : Bytes → Bytes)

/-- The frames that an event dispatches, each with the connection it meets. -/
def DcEv.dispatches (c : DFileConn) : DcEv → List (DFileConn × DcEnv × Bytes)
  | .read env chunk => (dcDispatched env chunk c).map fun d => (d.1, env, d.2)
  | _ => []

/-- The frames that are dispatched along a run. -/
def DFileConn.dispatches : DFileConn → List DcEv → List (DFileConn × DcEnv × Bytes)
  | _, [] => []
  | c, e :: es =>
      match c.step sha256Hex e with
      | none => []
      | some c' => e.dispatches c ++ DFileConn.dispatches c' es

end

end HwPhoneLink.DFile
