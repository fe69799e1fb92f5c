import HwPhoneLink.DFile.Frame
import HwPhoneLink.Testfile.Verify

/-!
# A DFile connection

`dfile_conn.c`: the engine behind one TCP connection, with at most one transfer
in each direction. The records have the fields of the source; what a call reads
from its surroundings (clock, socket results, file calls) is a `DcEnv`.

Histories: `out` holds the bytes each `dc_send` got accepted, `events` the
callbacks, each with the number of sends before it, `opened` the paths that were opened for writing, `writes` the
`pwrite` calls on a file's descriptor and `digested` what its checksum was
taken of. `crash` is set where the process dies.
-/

namespace HwPhoneLink.DFile

open BigEndian Path HwPhoneLink.Testfile

def dcNegotiateTimeoutMs : UInt64 := 5000
def dcTransferTimeoutMs : UInt64 := 30000
def dcCtrlRetryIntervalMs : UInt64 := 3000
def dcCtrlMaxRetries : ℕ := 3
def dcRetranIntervalMs : UInt64 := 500
def dcSendBudget : ℕ := 64

inductive DCState : Type where
  | negotiating | ready | closing
deriving DecidableEq, Repr

inductive DCPhase : Type where
  | idle | txWaitConfirmReq | txSending | txWaitDone | txDone
  | rxWaitData | rxWaitDoneack | rxDone | failed
deriving DecidableEq, Repr

/-- `fd` is the path behind the descriptor. `lastAcked` is `none` for
`G_MAXUINT32`. `sha` is what has been fed to the checksum. -/
structure DCFile where
  fileId : UInt16
  size : ℕ
  name : Bytes
  fd : Option Bytes
  totalBlocks : ℕ
  -- sender
  nextSeq : ℕ
  retrans : List ℕ
  lastAcked : Option ℕ
  ackedAll : Bool
  confirmed : Bool
  -- receiver
  expectedSeq : ℕ
  writeComplete : Bool
  sha : Bytes
  expectedSha : Option Bytes
  -- histories
  writes : List (ℕ × Bytes)
  digested : Option Bytes
deriving DecidableEq, Repr

structure DCTrans where
  isSender : Bool
  transId : UInt16
  phase : DCPhase
  files : List DCFile
  nodeNumber : UInt16
  hdr : List DFileHeaderEntry
  t0Ms : UInt64
  lastCtrlMs : UInt64
  ctrlRetries : ℕ
  lastRetranMs : UInt64
  reqReceived : Bool
  allConfirmed : Bool
  doneReceived : Bool
  doneackSent : Bool
  ackPending : Bool
  doneSent : Bool
  resultMsg : Option String
deriving DecidableEq, Repr

/-- One callback. -/
inductive DcEvent : Type where
  | negotiated
  | fileList (hdr : List DFileHeaderEntry)
  | result (isSender ok : Bool) (message : String)
  | closed
deriving DecidableEq, Repr

inductive DcCrash : Type where
  | divideByZero
  | nullStore
deriving DecidableEq, Repr

structure DFileConn where
  state : DCState
  rxbuf : Bytes
  tConnectMs : UInt64
  localSettingSent : Bool
  negotiated : Bool
  blockSize : ℕ
  tx : Option DCTrans
  rx : Option DCTrans
  nextTransId : UInt16
  recvDir : Option Bytes
  -- histories
  out : List Bytes
  events : List (ℕ × DcEvent)
  opened : List Bytes
  closeReason : Option String
  crash : Option DcCrash
deriving DecidableEq, Repr

/-- `dc_alloc` -/
def dcAlloc (now : UInt64) (recvDir : Option Bytes) : DFileConn where
  state := .negotiating
  rxbuf := []
  tConnectMs := now
  localSettingSent := false
  negotiated := false
  blockSize := 0
  tx := none
  rx := none
  nextTransId := 1
  recvDir := recvDir
  out := []
  events := []
  opened := []
  closeReason := none
  crash := none

/-- What the socket answers to the calls of one `dc_send`, in turn. -/
inductive DcSocket : Type where
  /-- `g_socket_send` takes `n + 1` bytes, or all that is left. -/
  | accept (n : ℕ) (next : DcSocket)
  /-- `G_IO_ERROR_WOULD_BLOCK`, and the poll says writable. -/
  | wouldBlock (next : DcSocket)
  /-- `G_IO_ERROR_WOULD_BLOCK`, and the poll is interrupted. -/
  | interrupted
  /-- Any other error. -/
  | error (message : String)

/-- The surroundings of one event. `send` is by the number of `dc_send` calls
before, `openWrite` and `ftruncate` by the number of opens before. -/
structure DcEnv where
  now : UInt64
  send : ℕ → DcSocket
  strerror : String
  openRead : Bytes → Bool
  fstat : Bytes → Option ℕ
  pread : Bytes → ℕ → ℕ → Option Bytes
  openWrite : ℕ → Bytes → Bool
  ftruncate : ℕ → Bytes → Bool
  pwrite : Bytes → ℕ → Bytes → Bool

/-! ## Helpers -/

inductive DcSendResult : Type where
  | sent
  | interrupted
  | error (message : String)
deriving DecidableEq, Repr

/-- The loop of `dc_send`: the bytes the socket takes, and how it ends. -/
def dcSendLoop : DcSocket → Bytes → Bytes × DcSendResult
  | _, [] => ([], .sent)
  | .accept n next, b :: bs =>
      let r := dcSendLoop next (bs.drop n)
      (b :: bs.take n ++ r.1, r.2)
  | .wouldBlock next, b :: bs => dcSendLoop next (b :: bs)
  | .interrupted, _ :: _ => ([], .interrupted)
  | .error message, _ :: _ => ([], .error message)

/-- The process is dead, or the socket has been shut down. -/
def DFileConn.stopped (c : DFileConn) : Bool := c.crash.isSome || decide (c.state = .closing)

/-- What one `dc_send` writes, and how it ends. Nothing calls it once the
connection has stopped. -/
def dcWrite (env : DcEnv) (c : DFileConn) (frame : Bytes) : List Bytes × DcSendResult :=
  if c.stopped then ([], .interrupted)
  else
    let r := dcSendLoop (env.send c.out.length) frame
    ([r.1], r.2)

/-- One `dc_send`, up to the error pointer. -/
def dcSendRaw (env : DcEnv) (c : DFileConn) (frame : Bytes) : DFileConn × DcSendResult :=
  let r := dcWrite env c frame
  ({ c with out := c.out ++ r.1 }, r.2)

/-- `dc_send` with a NULL error pointer, which it stores through after a hard
error. -/
def dcSend (env : DcEnv) (c : DFileConn) (frame : Bytes) : DFileConn × Bool :=
  let r := dcSendRaw env c frame
  let crash :=
    match r.2 with
    | .error _ => some .nullStore
    | _ => r.1.crash
  ({ r.1 with crash := crash }, decide (r.2 = .sent))

/-! Sending changes `out` and `crash` only. -/

section
variable (env : DcEnv) (c : DFileConn) (f : Bytes)

@[simp] theorem dcSend_state : (dcSend env c f).1.state = c.state := rfl
@[simp] theorem dcSend_rxbuf : (dcSend env c f).1.rxbuf = c.rxbuf := rfl
@[simp] theorem dcSend_tConnectMs : (dcSend env c f).1.tConnectMs = c.tConnectMs := rfl
@[simp] theorem dcSend_localSettingSent : (dcSend env c f).1.localSettingSent = c.localSettingSent := rfl
@[simp] theorem dcSend_negotiated : (dcSend env c f).1.negotiated = c.negotiated := rfl
@[simp] theorem dcSend_blockSize : (dcSend env c f).1.blockSize = c.blockSize := rfl
@[simp] theorem dcSend_tx : (dcSend env c f).1.tx = c.tx := rfl
@[simp] theorem dcSend_rx : (dcSend env c f).1.rx = c.rx := rfl
@[simp] theorem dcSend_nextTransId : (dcSend env c f).1.nextTransId = c.nextTransId := rfl
@[simp] theorem dcSend_recvDir : (dcSend env c f).1.recvDir = c.recvDir := rfl
@[simp] theorem dcSend_events : (dcSend env c f).1.events = c.events := rfl
@[simp] theorem dcSend_opened : (dcSend env c f).1.opened = c.opened := rfl
@[simp] theorem dcSend_closeReason : (dcSend env c f).1.closeReason = c.closeReason := rfl

@[simp] theorem dcSend_out : (dcSend env c f).1.out = c.out ++ (dcWrite env c f).1 := rfl

end

/-- What the loop writes is the front of the frame, all of it when it says so. -/
theorem dcSendLoop_writes (s : DcSocket) : ∀ f : Bytes,
    (dcSendLoop s f).1 <+: f ∧ ((dcSendLoop s f).2 = .sent → (dcSendLoop s f).1 = f) := by
  induction s with
  | accept n next ih =>
      intro f
      cases f with
      | nil => exact ⟨List.prefix_refl _, fun _ => rfl⟩
      | cons b bs =>
          obtain ⟨hpre, hsent⟩ := ih (bs.drop n)
          constructor
          · have h := (List.prefix_append_right_inj (b :: bs.take n)).mpr hpre
            have hwhole : b :: bs.take n ++ bs.drop n = b :: bs := by simp
            rw [hwhole] at h
            exact h
          · intro h
            rw [dcSendLoop, hsent h, List.cons_append, List.take_append_drop]
  | wouldBlock next ih =>
      intro f
      cases f with
      | nil => exact ⟨List.prefix_refl _, fun _ => rfl⟩
      | cons b bs => exact ih (b :: bs)
  | interrupted =>
      intro f
      cases f with
      | nil => exact ⟨List.prefix_refl _, fun _ => rfl⟩
      | cons b bs => exact ⟨List.nil_prefix, fun h => by cases h⟩
  | error message =>
      intro f
      cases f with
      | nil => exact ⟨List.prefix_refl _, fun _ => rfl⟩
      | cons b bs => exact ⟨List.nil_prefix, fun h => by cases h⟩

theorem dcWrite_front {env : DcEnv} {c : DFileConn} {f w : Bytes}
    (hw : w ∈ (dcWrite env c f).1) : w <+: f := by
  unfold dcWrite at hw
  split at hw
  · cases hw
  · rw [List.mem_singleton] at hw
    rw [hw]
    exact (dcSendLoop_writes _ f).1

/-- A successful write is of the whole frame, on a connection that goes on. -/
theorem dcWrite_sent {env : DcEnv} {c : DFileConn} {f : Bytes} (h : (dcWrite env c f).2 = .sent) :
    c.stopped = false ∧ dcWrite env c f = ([f], .sent) := by
  unfold dcWrite at h ⊢
  by_cases hstop : c.stopped = true
  · rw [if_pos hstop] at h
    cases h
  · rw [if_neg hstop] at h ⊢
    rw [Bool.not_eq_true] at hstop
    exact ⟨hstop, Prod.ext (congrArg (fun w => [w]) ((dcSendLoop_writes _ f).2 h)) h⟩

/-- A successful `dc_send` writes the whole frame, and the process lives. -/
theorem dcSend_sent {env : DcEnv} {c : DFileConn} {f : Bytes} (h : (dcSend env c f).2 = true) :
    c.stopped = false ∧ (dcSend env c f).1 = { c with out := c.out ++ [f] } := by
  obtain ⟨hstop, hwrite⟩ := dcWrite_sent (of_decide_eq_true h)
  exact ⟨hstop, by simp only [dcSend, dcSendRaw, hwrite]⟩

/-- What follows in a C function, unless the process is dead. -/
def DFileConn.andThen (c : DFileConn) (k : DFileConn → DFileConn) : DFileConn :=
  if c.crash.isSome then c else k c

/-- What follows after a check for a closing connection. -/
def DFileConn.whileOpen (c : DFileConn) (k : DFileConn → DFileConn) : DFileConn :=
  if c.crash.isSome ∨ c.state = .closing then c else k c

def rstCodeStr (code : UInt16) : String :=
  match code.toNat with
  | 200 => "no error"
  | 201 => "without setting"
  | 202 => "file write error"
  | 203 => "file read error"
  | 204 => "not enough storage"
  | 209 => "internal error"
  | 210 => "cancel"
  | _ => "unknown rst code"

def dcSendRst (env : DcEnv) (transId code : UInt16) (ids : List UInt16) (c : DFileConn) :
    DFileConn :=
  match dfileEncodeRst (dfileFrameHeaderLen + 2 + 2 * dfileMaxFileNum) transId code ids with
  | none => c
  | some frame => (dcSend env c frame).1

def findFile (files : List DCFile) (fileId : UInt16) : Option DCFile :=
  files.find? fun f => f.fileId = fileId

/-- `find_file` followed by an update of the file found. -/
def updateFile (fileId : UInt16) (g : DCFile → DCFile) : List DCFile → List DCFile
  | [] => []
  | f :: fs => if f.fileId = fileId then g f :: fs else f :: updateFile fileId g fs

def transNew (isSender : Bool) (transId : UInt16) (now : UInt64) : DCTrans where
  isSender := isSender
  transId := transId
  phase := .idle
  files := []
  nodeNumber := 0
  hdr := []
  t0Ms := now
  lastCtrlMs := now
  ctrlRetries := 0
  lastRetranMs := 0
  reqReceived := false
  allConfirmed := false
  doneReceived := false
  doneackSent := false
  ackPending := false
  doneSent := false
  resultMsg := none

/-- The transfer of one direction. -/
def DFileConn.trans (c : DFileConn) (isSender : Bool) : Option DCTrans :=
  if isSender then c.tx else c.rx

def DFileConn.setTrans (c : DFileConn) (isSender : Bool) (t : DCTrans) : DFileConn :=
  if isSender then { c with tx := some t } else { c with rx := some t }

def DFileConn.emit (c : DFileConn) (e : DcEvent) : DFileConn :=
  { c with events := c.events ++ [(c.out.length, e)] }

/-- The phases that a transfer ends in. -/
def DCPhase.terminal : DCPhase → Bool
  | .failed | .txDone | .rxDone => true
  | _ => false

def transFail (env : DcEnv) (isSender : Bool) (reason : String) (sendRst : Bool) (c : DFileConn) :
    DFileConn :=
  match c.trans isSender with
  | none => c
  | some t =>
      if t.phase.terminal then c
      else
        let c := c.setTrans isSender { t with phase := .failed }
        let c := if sendRst then dcSendRst env t.transId dfileRstCancel [] c else c
        c.andThen fun c => c.emit (.result isSender false reason)

def shutdownCommon (env : DcEnv) (reason : String) (c : DFileConn) : DFileConn :=
  if c.state = .closing then c
  else
    let c := { c with state := .closing, closeReason := some reason }
    let c := transFail env true reason false c
    let c := transFail env false reason false c
    c.emit .closed

/-- A reset, then the connection closes. -/
def dcRstShutdown (env : DcEnv) (transId code : UInt16) (reason : String) (c : DFileConn) :
    DFileConn :=
  (dcSendRst env transId code [] c).andThen (shutdownCommon env reason)

def closeImpl (env : DcEnv) (c : DFileConn) : DFileConn :=
  shutdownCommon env "closed by application" c

/-! ## Shared by both directions -/

def dcIdlistCap : ℕ := dfileFrameHeaderLen + 2 * dfileMaxFileNum

/-- Encode an id list and send it. -/
def dcSendIdlist (env : DcEnv) (type : DFileFrameType) (transId : UInt16) (ids : List UInt16)
    (c : DFileConn) : DFileConn × Bool :=
  match dfileEncodeIdlist dcIdlistCap type 0 transId ids with
  | none => (c, false)
  | some frame => dcSend env c frame

/-- How opening ends. -/
inductive DcOpened (α : Type) : Type where
  | ok (a : α)
  | failed (why : String)
  | crashed

/-- The quotient that `send_files_impl` and `rx_open_file` compute. -/
def dcTotalBlocks (size blockSize : ℕ) : ℕ := (size + blockSize - 1) / blockSize % 2 ^ 32

/-- How much of a file block `seq` holds. -/
def dcBlockLen (size blockSize seq : ℕ) : ℕ := min (size - seq * blockSize) blockSize

end HwPhoneLink.DFile
