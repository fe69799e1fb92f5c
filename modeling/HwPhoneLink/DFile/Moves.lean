import HwPhoneLink.DFile.Engine
import Mathlib.Logic.Relation

/-!
# What a DFile connection can do

Every event of a connection is a sequence of moves: one frame handed to the
socket, one transfer started, advanced or failed, the connection closed. An
invariant is checked move by move (`DcMove`), and the functions of the source
are taken apart into moves once.

A move is indexed by the frame that is being dispatched, if there is one.
-/

namespace HwPhoneLink.DFile

open BigEndian Path Framing Relation HwPhoneLink.Testfile

/-- Every destination file has been written. -/
def rxComplete (t : DCTrans) : Bool :=
  decide (t.files.length > 0) && t.files.all fun f => f.writeComplete

/-- The socket takes something before it interrupts or fails. -/
def DcSocket.takes : DcSocket → Bool
  | .accept _ _ => true
  | .wouldBlock next => next.takes
  | .interrupted | .error _ => false

theorem dcSendLoop_takes (s : DcSocket) : ∀ {f : Bytes}, f ≠ [] → s.takes = false →
    (dcSendLoop s f).1 = [] ∧ (dcSendLoop s f).2 ≠ .sent := by
  induction s with
  | accept n next => intro f _ h; cases h
  | wouldBlock next ih =>
      intro f hf h
      cases f with
      | nil => exact absurd rfl hf
      | cons b bs => exact ih (List.cons_ne_nil b bs) h
  | interrupted =>
      intro f hf _
      cases f with
      | nil => exact absurd rfl hf
      | cons b bs => exact ⟨rfl, by simp [dcSendLoop]⟩
  | error message =>
      intro f hf _
      cases f with
      | nil => exact absurd rfl hf
      | cons b bs => exact ⟨rfl, by simp [dcSendLoop]⟩

/-- The frames that are handed to `dc_send`, and when. -/
inductive DcSends (env : DcEnv) (late : Prop) (c : DFileConn) : Bytes → Prop
  | rst {transId code : UInt16} {ids : List UInt16} {f : Bytes} :
      dfileEncodeRst (dfileFrameHeaderLen + 2 + 2 * dfileMaxFileNum) transId code ids = some f →
      DcSends env late c f
  | header {t : DCTrans} {start written : ℕ} {f : Bytes} :
      c.tx = some t → t.phase = .idle ∨ t.phase = .txWaitConfirmReq →
      start < t.files.length →
      dfileEncodeFileHeader (dfileFrameMaxSize + 16) t.transId (UInt16.ofNat t.files.length)
        (t.files.map DCFile.headerEntry) start (t.files.length - start) = some (f, written) →
      DcSends env late c f
  | confirm {t : DCTrans} {type : DFileFrameType} {f : Bytes} :
      c.rx = some t → t.phase = .idle → t.nodeNumber.toNat ≤ t.hdr.length →
      type = .fileHeaderConfirm ∨ type = .fileTransferReq →
      dfileEncodeIdlist dcIdlistCap type 0 t.transId (t.hdr.map fun e => e.fileId) = some f →
      DcSends env late c f
  | data {t : DCTrans} {file : DCFile} {seq : ℕ} {flag : UInt8} {block f : Bytes} :
      c.tx = some t → t.phase = .txSending ∨ t.phase = .txWaitDone → file ∈ t.files →
      dcReadBlock env c.blockSize file seq = some block →
      dfileEncodeData (dfileFrameMaxSize + 16) t.transId flag file.fileId (UInt32.ofNat seq)
        block = some f →
      DcSends env late c f
  | doneack {t : DCTrans} {f : Bytes} :
      c.tx = some t → t.doneackSent = false → t.phase ≠ .txDone → t.phase ≠ .failed →
      t.doneReceived = true → txAllAcked t = true →
      dfileEncodeIdlist dcIdlistCap .fileTransferDoneAck 0 t.transId
        (t.files.map fun f => f.fileId) = some f →
      DcSends env late c f
  | done {t : DCTrans} {f : Bytes} :
      c.rx = some t →
      t.phase = .rxWaitData ∨ late ∨ (env.send c.out.length).takes = false →
      t.doneSent = false → rxComplete t = true → (∀ g ∈ t.files, g.digested = some g.sha) →
      dfileEncodeIdlist dcIdlistCap .fileTransferDone 0 t.transId
        (t.files.map fun f => f.fileId) = some f →
      DcSends env late c f

inductive DcMove (sha256Hex : Bytes → Bytes) (env : DcEnv) (late : Prop) (fr : Option Bytes) :
    DFileConn → DFileConn → Prop
  | send {c : DFileConn} {f : Bytes} :
      DcSends env late c f → DcMove sha256Hex env late fr c (dcSend env c f).1
  | setting {c : DFileConn} {f : Bytes} :
      c.localSettingSent = false →
      dfileEncodeSetting (dfileFrameHeaderLen + dfileSettingPayloadLen) dcLocalSetting = some f →
      (dcWrite env c f).2 = .sent →
      DcMove sha256Hex env late fr c { c with out := c.out ++ [f], localSettingSent := true }
  | settingCut {c : DFileConn} {f : Bytes} (reason : String) :
      c.localSettingSent = false →
      dfileEncodeSetting (dfileFrameHeaderLen + dfileSettingPayloadLen) dcLocalSetting = some f →
      DcMove sha256Hex env late fr c
        { c with
          out := c.out ++ (dcWrite env c f).1, state := .closing, closeReason := some reason }
  | buffer {c : DFileConn} (buf : Bytes) : DcMove sha256Hex env late fr c { c with rxbuf := buf }
  -- ends
  | fail {c : DFileConn} (isSender : Bool) (reason : String) (sendRst : Bool) :
      DcMove sha256Hex env late fr c (transFail env isSender reason sendRst c)
  | closing {c : DFileConn} (reason : String) :
      c.state ≠ .closing →
      DcMove sha256Hex env late fr c { c with state := .closing, closeReason := some reason }
  | closed {c : DFileConn} :
      c.state = .closing → DcMove sha256Hex env late fr c (c.emit .closed)
  | crash {c : DFileConn} :
      c.blockSize = 0 →
      c.state = .ready ∨ (∃ frame h, fr = some frame ∧ dfileDecodeFileHeader frame = some h) →
      DcMove sha256Hex env late fr c { c with crash := some .divideByZero }
  | negotiate {c : DFileConn} {frame : Bytes} {s : DFileSetting} :
      fr = some frame → c.state ≠ .closing → c.negotiated = false →
      dfileDecodeSetting frame = some s → s.mtu ≠ 0 →
      DcMove sha256Hex env late fr c
        (({ c with blockSize := dcBlockSize s, negotiated := true, state := .ready }).emit
          .negotiated)
  -- sender
  | bump {c : DFileConn} :
      DcMove sha256Hex env late fr c { c with nextTransId := c.nextTransId + 1 }
  | startTx {c : DFileConn} {items : List DFileSendItem} {files : List DCFile} :
      c.state = .ready → c.tx = none → items.length ≠ 0 → items.length ≤ dfileMaxFileNum →
      txOpenFiles env c.blockSize 0 items = .ok files →
      DcMove sha256Hex env late fr c
        { c with
          nextTransId := c.nextTransId + 1
          tx := some { transNew true c.nextTransId env.now with files := files } }
  | dropTx {c : DFileConn} {t : DCTrans} :
      c.tx = some t → t.phase = .idle → DcMove sha256Hex env late fr c { c with tx := none }
  | armed {c : DFileConn} {t : DCTrans} :
      c.tx = some t → t.phase = .idle →
      DcMove sha256Hex env late fr c { c with tx := some { t with phase := .txWaitConfirmReq } }
  | retry {c : DFileConn} {t : DCTrans} (retries : ℕ) (lastCtrlMs : UInt64) :
      c.tx = some t → t.phase = .txWaitConfirmReq →
      DcMove sha256Hex env late fr c
        { c with tx := some { t with ctrlRetries := retries, lastCtrlMs := lastCtrlMs } }
  | ctrl {c : DFileConn} {t : DCTrans} {frame : Bytes} {type : DFileFrameType} {l : DFileIdlist} :
      fr = some frame → c.tx = some t → t.phase = .txWaitConfirmReq →
      type = .fileHeaderConfirm ∨ type = .fileTransferReq →
      dfileDecodeIdlist frame type = some l → l.transId = t.transId →
      DcMove sha256Hex env late fr c { c with tx := some (txCtrlUpdate env type l.ids t) }
  | newBlock {c : DFileConn} {t : DCTrans} {pre post : List DCFile} {file : DCFile}
      {block f : Bytes} :
      c.tx = some t → t.phase = .txSending ∨ t.phase = .txWaitDone →
      t.files = pre ++ file :: post → file.nextSeq < file.totalBlocks →
      dcReadBlock env c.blockSize file file.nextSeq = some block →
      dfileEncodeData (dfileFrameMaxSize + 16) t.transId (txBlockFlag file) file.fileId
        (UInt32.ofNat file.nextSeq) block = some f →
      (dcSend env c f).2 = true →
      DcMove sha256Hex env late fr c
        { (dcSend env c f).1 with
          tx := some { t with
            files := pre ++ { file with
              retrans := file.retrans ++ [file.nextSeq], nextSeq := file.nextSeq + 1 } :: post } }
  | retran {c : DFileConn} {t : DCTrans} {pre post : List DCFile} {file : DCFile} {seq : ℕ}
      {retrans : List ℕ} {block f : Bytes} :
      c.tx = some t → t.phase = .txSending ∨ t.phase = .txWaitDone →
      t.files = pre ++ file :: post → file.retrans = seq :: retrans →
      dcReadBlock env c.blockSize file seq = some block →
      dfileEncodeData (dfileFrameMaxSize + 16) t.transId
        (dfileFlagDataRetran ||| dfileFlagDataContinue) file.fileId (UInt32.ofNat seq)
        block = some f →
      (dcSend env c f).2 = true →
      DcMove sha256Hex env late fr c
        { (dcSend env c f).1 with
          tx := some { t with
            files := pre ++ { file with retrans := retrans } :: post, lastRetranMs := env.now } }
  | allSent {c : DFileConn} {t : DCTrans} :
      c.tx = some t → t.phase = .txSending → txAllSent t = true →
      DcMove sha256Hex env late fr c { c with tx := some { t with phase := .txWaitDone } }
  | ack {c : DFileConn} {t : DCTrans} {frame : Bytes} {a : DFileAck} :
      fr = some frame → c.tx = some t → t.phase = .txSending ∨ t.phase = .txWaitDone →
      dfileDecodeAck frame = some a → a.transId = t.transId →
      DcMove sha256Hex env late fr c
        { c with tx := some { t with files := a.entries.foldl ackEntry t.files } }
  | doneReceived {c : DFileConn} {t : DCTrans} {frame : Bytes} {l : DFileIdlist} :
      fr = some frame → c.tx = some t → t.phase ≠ .failed → t.phase ≠ .txDone →
      dfileDecodeIdlist frame .fileTransferDone = some l → l.transId = t.transId →
      DcMove sha256Hex env late fr c
        { c with tx := some { t with
            doneReceived := true
            phase := if t.phase = .txSending then .txWaitDone else t.phase } }
  | finish {c : DFileConn} {t : DCTrans} {f : Bytes} :
      c.tx = some t → t.doneackSent = false → t.phase ≠ .txDone → t.phase ≠ .failed →
      t.doneReceived = true → txAllAcked t = true →
      dfileEncodeIdlist dcIdlistCap .fileTransferDoneAck 0 t.transId
        (t.files.map fun f => f.fileId) = some f →
      (dcSend env c f).2 = true →
      DcMove sha256Hex env late fr c
        (({ (dcSend env c f).1 with
            tx := some { t with doneackSent := true, phase := .txDone } }).emit
          (.result true true (txFinishMsg t)))
  -- receiver
  | header {c : DFileConn} {t : DCTrans} {frame : Bytes} {h : DFileHeaderFrame} :
      fr = some frame → dfileDecodeFileHeader frame = some h → h.nodeNumber ≠ 0 →
      (c.rx = none ∧
          t = { transNew false h.transId env.now with nodeNumber := h.nodeNumber }) ∨
        (c.rx = some t ∧ t.phase ≠ .failed ∧ t.phase ≠ .rxDone ∧ t.transId = h.transId ∧
          t.nodeNumber = h.nodeNumber) →
      DcMove sha256Hex env late fr c
        { c with rx := some { t with
            hdr := (rxAddEntries h.nodeNumber.toNat t.hdr h.entries).1 } }
  | opened {c : DFileConn} {t : DCTrans} {frame : Bytes} {h : DFileHeaderFrame} {dir : Bytes} :
      fr = some frame → dfileDecodeFileHeader frame = some h → c.rx = some t →
      t.phase = .idle → t.nodeNumber.toNat ≤ t.hdr.length → t.files = [] → c.recvDir = some dir →
      DcMove sha256Hex env late fr c
        { c with
          opened := (rxOpenFiles env dir c.blockSize c.opened t.files t.hdr).1
          rx := some { t with
            files := (rxOpenFiles env dir c.blockSize c.opened t.files t.hdr).2.1 } }
  | fileList {c : DFileConn} {t : DCTrans} :
      c.rx = some t → DcMove sha256Hex env late fr c (c.emit (.fileList t.hdr))
  | waitData {c : DFileConn} {t : DCTrans} {f : Bytes} :
      c.rx = some t → t.phase = .idle → t.nodeNumber.toNat ≤ t.hdr.length →
      (t.files.map fun f => f.fileId) = (t.hdr.map fun e => e.fileId) →
      dfileEncodeIdlist dcIdlistCap .fileTransferReq 0 t.transId
        (t.hdr.map fun e => e.fileId) = some f →
      (dcSend env c f).2 = true →
      DcMove sha256Hex env late fr c
        { (dcSend env c f).1 with rx := some { t with phase := .rxWaitData } }
  | write {c : DFileConn} {t : DCTrans} {frame : Bytes} {d : DFileData} {file : DCFile} :
      fr = some frame → dfileDecodeData frame = some d → c.rx = some t → t.phase = .rxWaitData →
      d.transId = t.transId → findFile t.files d.fileId = some file →
      d.blockSeq.toNat = file.expectedSeq → file.expectedSeq < file.totalBlocks →
      d.payload.length = dcBlockLen file.size c.blockSize file.expectedSeq →
      DcMove sha256Hex env late fr c
        { c with rx := some { t with
            files := updateFile d.fileId (rxWriteBlock c.blockSize d.payload) t.files
            ackPending := true } }
  | flushNone {c : DFileConn} {t : DCTrans} :
      c.rx = some t → t.phase = .rxWaitData → rxAckEntries t.files = [] →
      DcMove sha256Hex env late fr c { c with rx := some { t with ackPending := false } }
  | flush {c : DFileConn} {t : DCTrans} {f : Bytes} :
      c.rx = some t → t.phase = .rxWaitData → rxAckEntries t.files ≠ [] →
      dfileEncodeAck (dfileFrameHeaderLen + 12 + 37 * dfileMaxAckEntries) false t.transId 0
        (rxAckEntries t.files) = some f →
      DcMove sha256Hex env late fr c
        (dcSend env { c with rx := some { t with ackPending := false } } f).1
  | digest {c : DFileConn} {t : DCTrans} :
      c.rx = some t → t.phase = .rxWaitData ∨ t.phase = .failed → t.doneSent = false →
      rxComplete t = true →
      DcMove sha256Hex env late fr c
        { c with rx := some { t with
            files := (rxCheckFiles sha256Hex "received:" t.files).1
            resultMsg := some (rxCheckFiles sha256Hex "received:" t.files).2.1 } }
  | done {c : DFileConn} {t : DCTrans} {f : Bytes} :
      c.rx = some t → t.phase = .rxWaitData ∨ late → t.doneSent = false → rxComplete t = true →
      (∀ g ∈ t.files, g.digested = some g.sha) →
      dfileEncodeIdlist dcIdlistCap .fileTransferDone 0 t.transId
        (t.files.map fun f => f.fileId) = some f →
      (dcSend env c f).2 = true →
      DcMove sha256Hex env late fr c
        { (dcSend env c f).1 with
          rx := some { t with doneSent := true, phase := .rxWaitDoneack } }
  | doneack {c : DFileConn} {t : DCTrans} {frame : Bytes} {l : DFileIdlist} :
      fr = some frame → c.rx = some t → t.phase = .rxWaitDoneack →
      dfileDecodeIdlist frame .fileTransferDoneAck = some l → l.transId = t.transId →
      DcMove sha256Hex env late fr c
        (({ c with rx := some { t with phase := .rxDone } }).emit
          (.result false true (t.resultMsg.getD "received")))

/-- A sequence of moves. -/
abbrev DcMoves (sha256Hex : Bytes → Bytes) (env : DcEnv) (late : Prop) (fr : Option Bytes) :
    DFileConn → DFileConn → Prop :=
  ReflTransGen (DcMove sha256Hex env late fr)

section
variable {sha256Hex : Bytes → Bytes} {env : DcEnv} {late : Prop} {fr : Option Bytes}

theorem DcMove.moves {c c' : DFileConn} (h : DcMove sha256Hex env late fr c c') :
    DcMoves sha256Hex env late fr c c' :=
  ReflTransGen.single h

theorem DFileConn.andThen_moves {c c₁ : DFileConn} {k : DFileConn → DFileConn}
    (h : DcMoves sha256Hex env late fr c c₁)
    (hk : c₁.crash = none → DcMoves sha256Hex env late fr c₁ (k c₁)) :
    DcMoves sha256Hex env late fr c (c₁.andThen k) := by
  unfold DFileConn.andThen
  split
  · exact h
  · rename_i hcrash
    exact h.trans (hk (by simpa using hcrash))

theorem DFileConn.whileOpen_moves {c c₁ : DFileConn} {k : DFileConn → DFileConn}
    (h : DcMoves sha256Hex env late fr c c₁)
    (hk : c₁.stopped = false → DcMoves sha256Hex env late fr c₁ (k c₁)) :
    DcMoves sha256Hex env late fr c (c₁.whileOpen k) := by
  unfold DFileConn.whileOpen
  split
  · exact h
  · rename_i hopen
    rw [not_or, Bool.not_eq_true] at hopen
    exact h.trans (hk (by rw [DFileConn.stopped, hopen.1, decide_eq_false hopen.2]; rfl))

/-! ## Ends -/

theorem transFail_moves (isSender : Bool) (reason : String) (sendRst : Bool) (c : DFileConn) :
    DcMoves sha256Hex env late fr c (transFail env isSender reason sendRst c) :=
  (DcMove.fail isSender reason sendRst).moves

theorem dcSendRst_state (transId code : UInt16) (ids : List UInt16) (c : DFileConn) :
    (dcSendRst env transId code ids c).state = c.state := by
  unfold dcSendRst
  split <;> rfl

theorem transFail_state (isSender : Bool) (reason : String) (sendRst : Bool) (c : DFileConn) :
    (transFail env isSender reason sendRst c).state = c.state := by
  have hset : ∀ t, (c.setTrans isSender t).state = c.state := fun t => by
    unfold DFileConn.setTrans
    split <;> rfl
  unfold transFail
  split
  · rfl
  split
  · rfl
  simp only [DFileConn.andThen, DFileConn.emit]
  split <;> split <;> simp [dcSendRst_state, hset]

theorem DFileConn.stopped_eq_false {c : DFileConn} (h : c.stopped = false) :
    c.crash = none ∧ c.state ≠ .closing := by
  rw [DFileConn.stopped, Bool.or_eq_false_iff, decide_eq_false_iff_not] at h
  exact ⟨by simpa using h.1, h.2⟩

theorem transFail_out (isSender : Bool) (reason : String) (c : DFileConn) :
    (transFail env isSender reason false c).out = c.out := by
  have hset : ∀ t, (c.setTrans isSender t).out = c.out := fun t => by
    unfold DFileConn.setTrans
    split <;> rfl
  unfold transFail
  split
  · rfl
  split
  · rfl
  simp only [DFileConn.andThen, DFileConn.emit, Bool.false_eq_true, if_false]
  split <;> exact hset _

theorem dcSendRst_moves (transId code : UInt16) (ids : List UInt16) (c : DFileConn) :
    DcMoves sha256Hex env late fr c (dcSendRst env transId code ids c) := by
  unfold dcSendRst
  split
  · exact .refl
  · rename_i f hf
    exact (DcMove.send (.rst hf)).moves

/-- The rest of a shutdown, once the state says so. -/
theorem shutdownRest_moves (reason : String) {c : DFileConn} (hstate : c.state = .closing) :
    DcMoves sha256Hex env late fr c
      ((transFail env false reason false (transFail env true reason false c)).emit .closed) := by
  refine (transFail_moves true reason false _).trans ?_
  refine (transFail_moves false reason false _).trans ?_
  exact (DcMove.closed (by rw [transFail_state, transFail_state, hstate])).moves

theorem shutdownCommon_moves (reason : String) (c : DFileConn) :
    DcMoves sha256Hex env late fr c (shutdownCommon env reason c) := by
  unfold shutdownCommon
  split
  · exact .refl
  · rename_i hstate
    exact (DcMove.closing reason hstate).moves.trans (shutdownRest_moves reason rfl)

theorem dcRstShutdown_moves (transId code : UInt16) (reason : String) (c : DFileConn) :
    DcMoves sha256Hex env late fr c (dcRstShutdown env transId code reason c) :=
  DFileConn.andThen_moves (dcSendRst_moves transId code [] c)
    fun _ => shutdownCommon_moves reason _

/-! ## Sender -/

/-- A helper that only hands frames to the socket: one send, or none. -/
theorem dcSendIdlist_cases (env : DcEnv) (type : DFileFrameType) (transId : UInt16)
    (ids : List UInt16) (c : DFileConn) :
    (dfileEncodeIdlist dcIdlistCap type 0 transId ids = none ∧
        dcSendIdlist env type transId ids c = (c, false)) ∨
      ∃ f, dfileEncodeIdlist dcIdlistCap type 0 transId ids = some f ∧
        dcSendIdlist env type transId ids c = dcSend env c f := by
  unfold dcSendIdlist
  split
  · exact Or.inl ⟨by assumption, rfl⟩
  · exact Or.inr ⟨_, by assumption, rfl⟩

theorem txSendHeaderFrom_moves {t : DCTrans} {ents : List DFileHeaderEntry}
    (hents : ents = t.files.map DCFile.headerEntry)
    (hphase : t.phase = .idle ∨ t.phase = .txWaitConfirmReq) (fuel : ℕ) :
    ∀ (start : ℕ) {c : DFileConn}, c.tx = some t →
      DcMoves sha256Hex env late fr c (txSendHeaderFrom env t.transId ents fuel start c).1 ∧
        (txSendHeaderFrom env t.transId ents fuel start c).1.tx = some t := by
  have hlen : ents.length = t.files.length := by rw [hents, List.length_map]
  induction fuel with
  | zero => intro start c htx; exact ⟨.refl, htx⟩
  | succ fuel ih =>
      intro start c htx
      unfold txSendHeaderFrom
      split
      · rename_i hstart
        split
        · exact ⟨.refl, htx⟩
        · rename_i f written hencode
          rw [hlen] at hstart hencode
          rw [hents] at hencode
          have hsend : DcMoves sha256Hex env late fr c (dcSend env c f).1 :=
            (DcMove.send (.header htx hphase hstart hencode)).moves
          rcases hr : dcSend env c f with ⟨c', ok⟩
          rw [hr] at hsend
          have htx' : c'.tx = some t := by
            have h := dcSend_tx env c f
            rw [hr] at h
            exact h.trans htx
          cases ok
          · exact ⟨hsend, htx'⟩
          · obtain ⟨hmoves, hlast⟩ := ih (start + written) htx'
            exact ⟨hsend.trans hmoves, hlast⟩
      · exact ⟨.refl, htx⟩

theorem txSendHeader_moves {t : DCTrans} {c : DFileConn} (htx : c.tx = some t)
    (hphase : t.phase = .idle ∨ t.phase = .txWaitConfirmReq) :
    DcMoves sha256Hex env late fr c (txSendHeader env t c).1 ∧
      (txSendHeader env t c).1.tx = some t :=
  txSendHeaderFrom_moves rfl hphase _ _ htx

/-- Opening crashes only without a block size. -/
theorem txOpenFile_crashed {blockSize i : ℕ} {item : DFileSendItem}
    (h : txOpenFile env blockSize i item = .crashed) : blockSize = 0 := by
  unfold txOpenFile at h
  split at h
  · cases h
  split at h
  · cases h
  split at h
  · cases h
  split at h
  · cases h
  split at h
  · assumption
  · cases h

theorem txOpenFiles_crashed {blockSize : ℕ} (items : List DFileSendItem) :
    ∀ {i : ℕ}, txOpenFiles env blockSize i items = .crashed → blockSize = 0 := by
  induction items with
  | nil => intro i h; cases h
  | cons item items ih =>
      intro i h
      unfold txOpenFiles at h
      split at h
      · cases h
      · rename_i hfile
        exact txOpenFile_crashed hfile
      · split at h
        · cases h
        · rename_i hfiles
          exact ih hfiles
        · cases h

theorem sendFilesImpl_moves (items : List DFileSendItem) (c : DFileConn) :
    DcMoves sha256Hex env late fr c (sendFilesImpl env items c).1 := by
  unfold sendFilesImpl
  split
  · exact .refl
  rename_i hready
  split
  · exact .refl
  rename_i hfree
  split
  · exact .refl
  rename_i hcount
  have htx : c.tx = none := by simpa using hfree
  have hbounds : items.length ≠ 0 ∧ items.length ≤ dfileMaxFileNum := by omega
  simp only
  split
  · exact DcMove.bump.moves
  · rename_i hopen
    refine DcMove.bump.moves.trans (DcMove.crash ?_ (Or.inl ?_)).moves
    · exact txOpenFiles_crashed items hopen
    · exact not_not.mp hready
  · rename_i files hopen
    set t := { transNew true c.nextTransId env.now with files := files } with ht
    set c₁ := { c with nextTransId := c.nextTransId + 1, tx := some t } with hc₁
    have hstart : DcMoves sha256Hex env late fr c c₁ :=
      (DcMove.startTx (not_not.mp hready) htx hbounds.1 hbounds.2 hopen).moves
    have hheader : DcMoves sha256Hex env late fr c₁ (txSendHeader env t c₁).1 ∧ _ :=
      txSendHeader_moves rfl (Or.inl rfl)
    rcases hr : txSendHeader env t c₁ with ⟨c', ok⟩
    rw [hr] at hheader
    cases ok
    · exact DFileConn.andThen_moves (k := fun c => { c with tx := none })
        (hstart.trans hheader.1) fun _ => (DcMove.dropTx hheader.2 rfl).moves
    · exact (hstart.trans hheader.1).trans (DcMove.armed hheader.2 rfl).moves

/-! ## Pump -/

/-- The connection in the middle of a pump, with the files so far. -/
def TxPump.at (p : TxPump) (t : DCTrans) (files : List DCFile) : DFileConn :=
  { p.conn with tx := some { t with files := files, lastRetranMs := p.lastRetranMs } }

variable (env) in
/-- How one block goes out. -/
theorem txSendBlock_cases (transId : UInt16) (flag : UInt8) (readError sendError : String)
    (f : DCFile) (seq : ℕ) (p : TxPump) :
    let p' := txSendBlock env transId flag readError sendError f seq p
    (p'.failure.isSome = true ∧ p' = { p with failure := p'.failure }) ∨
      ∃ block frame, dcReadBlock env p.conn.blockSize f seq = some block ∧
        dfileEncodeData (dfileFrameMaxSize + 16) transId flag f.fileId (UInt32.ofNat seq) block =
          some frame ∧
        (((dcSend env p.conn frame).2 = false ∧ p'.failure.isSome = true ∧
            p' = { p with conn := (dcSend env p.conn frame).1, failure := p'.failure }) ∨
          ((dcSend env p.conn frame).2 = true ∧
            p' = { p with conn := (dcSend env p.conn frame).1, budget := p.budget - 1 })) := by
  simp only [txSendBlock]
  split
  · exact Or.inl ⟨rfl, rfl⟩
  · rename_i block hblock
    split
    · exact Or.inl ⟨rfl, rfl⟩
    · rename_i frame hframe
      refine Or.inr ⟨block, frame, hblock, hframe, ?_⟩
      rcases hr : dcSend env p.conn frame with ⟨c', ok⟩
      cases ok
      · exact Or.inl ⟨rfl, rfl, rfl⟩
      · exact Or.inr ⟨rfl, rfl⟩

/-- One block in a pump: it goes out whole and is counted, or it is cut off. -/
inductive TxPumpMove (env : DcEnv) : DFileConn → DFileConn → Prop
  | newBlock {c : DFileConn} {t : DCTrans} {pre post : List DCFile} {file : DCFile}
      {block f : Bytes} :
      c.tx = some t → t.phase = .txSending ∨ t.phase = .txWaitDone →
      t.files = pre ++ file :: post → file.nextSeq < file.totalBlocks →
      dcReadBlock env c.blockSize file file.nextSeq = some block →
      dfileEncodeData (dfileFrameMaxSize + 16) t.transId (txBlockFlag file) file.fileId
        (UInt32.ofNat file.nextSeq) block = some f →
      (dcSend env c f).2 = true →
      TxPumpMove env c
        { (dcSend env c f).1 with
          tx := some { t with
            files := pre ++ { file with
              retrans := file.retrans ++ [file.nextSeq], nextSeq := file.nextSeq + 1 } :: post } }
  | retran {c : DFileConn} {t : DCTrans} {pre post : List DCFile} {file : DCFile} {seq : ℕ}
      {retrans : List ℕ} {block f : Bytes} :
      c.tx = some t → t.phase = .txSending ∨ t.phase = .txWaitDone →
      t.files = pre ++ file :: post → file.retrans = seq :: retrans →
      dcReadBlock env c.blockSize file seq = some block →
      dfileEncodeData (dfileFrameMaxSize + 16) t.transId
        (dfileFlagDataRetran ||| dfileFlagDataContinue) file.fileId (UInt32.ofNat seq)
        block = some f →
      (dcSend env c f).2 = true →
      TxPumpMove env c
        { (dcSend env c f).1 with
          tx := some { t with
            files := pre ++ { file with retrans := retrans } :: post, lastRetranMs := env.now } }
  | cut {c : DFileConn} {t : DCTrans} {file : DCFile} {seq : ℕ} {flag : UInt8}
      {block f : Bytes} :
      c.tx = some t → t.phase = .txSending ∨ t.phase = .txWaitDone → file ∈ t.files →
      dcReadBlock env c.blockSize file seq = some block →
      dfileEncodeData (dfileFrameMaxSize + 16) t.transId flag file.fileId (UInt32.ofNat seq)
        block = some f →
      (dcSend env c f).2 = false → TxPumpMove env c (dcSend env c f).1

theorem TxPumpMove.move {c c' : DFileConn} (h : TxPumpMove env c c') :
    DcMove sha256Hex env late fr c c' := by
  cases h with
  | newBlock htx hphase hfiles hmore hblock hf hok =>
      exact .newBlock htx hphase hfiles hmore hblock hf hok
  | retran htx hphase hfiles hretrans hblock hf hok =>
      exact .retran htx hphase hfiles hretrans hblock hf hok
  | cut htx hphase hfile hblock hf _ => exact .send (.data htx hphase hfile hblock hf)

section
variable {t : DCTrans} (hphase : t.phase = .txSending ∨ t.phase = .txWaitDone)
include hphase

theorem txPumpNew_moves (pre post : List DCFile) (fuel : ℕ) :
    ∀ (p : TxPump) (f : DCFile), p.failure = none →
      let r := txPumpNew env t.transId fuel p f
      ReflTransGen (TxPumpMove env) (p.at t (pre ++ f :: post)) (r.1.at t (pre ++ r.2 :: post)) := by
  induction fuel with
  | zero => intro p f _; exact .refl
  | succ fuel ih =>
      intro p f hp
      simp only [txPumpNew]
      split
      · rename_i hmore
        have hmem : f ∈ pre ++ f :: post := by simp
        rcases txSendBlock_cases env t.transId (txBlockFlag f)
            ("read error: " ++ env.strerror) "data send failed" f f.nextSeq p with
          ⟨hfail, hsame⟩ | ⟨block, frame, hblock, hframe, ⟨hok, hfail, hsame⟩ | ⟨hok, hsame⟩⟩
        · rw [if_pos hfail, hsame]
          exact .refl
        · rw [if_pos hfail, hsame]
          have hcut : TxPumpMove env (p.at t (pre ++ f :: post)) _ :=
            .cut rfl hphase hmem hblock hframe hok
          exact .single hcut
        · have hlive : (txSendBlock env t.transId (txBlockFlag f) ("read error: " ++ env.strerror)
              "data send failed" f f.nextSeq p).failure = none := by
            rw [hsame]
            exact hp
          rw [if_neg (by rw [hlive]; decide)]
          have hmove : TxPumpMove env (p.at t (pre ++ f :: post)) _ :=
            .newBlock rfl hphase rfl hmore.1 hblock hframe hok
          refine ReflTransGen.head hmove ?_
          have hrest := ih _ { f with
            retrans := f.retrans ++ [f.nextSeq], nextSeq := f.nextSeq + 1 } hlive
          convert hrest using 2
          rw [hsame]
          rfl
      · exact .refl

theorem txPumpRetran_moves (pre post : List DCFile) {p : TxPump} (f : DCFile)
    (hp : p.failure = none) :
    let r := txPumpRetran env t.transId p f
    ReflTransGen (TxPumpMove env) (p.at t (pre ++ f :: post)) (r.1.at t (pre ++ r.2 :: post)) := by
  simp only [txPumpRetran]
  split
  · exact .refl
  rename_i seq retrans hretrans
  split
  · rename_i hpace
    have hmem : f ∈ pre ++ f :: post := by simp
    rcases txSendBlock_cases env t.transId (dfileFlagDataRetran ||| dfileFlagDataContinue)
        "retransmit read error" "retransmit send failed" f seq p with
      ⟨hfail, hsame⟩ | ⟨block, frame, hblock, hframe, ⟨hok, hfail, hsame⟩ | ⟨hok, hsame⟩⟩
    · rw [if_pos hfail, hsame]
      exact .refl
    · rw [if_pos hfail, hsame]
      have hcut : TxPumpMove env (p.at t (pre ++ f :: post)) _ :=
        .cut rfl hphase hmem hblock hframe hok
      exact .single hcut
    · have hlive : (txSendBlock env t.transId (dfileFlagDataRetran ||| dfileFlagDataContinue)
          "retransmit read error" "retransmit send failed" f seq p).failure = none := by
        rw [hsame]
        exact hp
      rw [if_neg (by rw [hlive]; decide), hsame]
      have hmove : TxPumpMove env (p.at t (pre ++ f :: post)) _ :=
        .retran rfl hphase rfl hretrans hblock hframe hok
      exact .single hmove
  · exact .refl

theorem txPumpFile_moves (pre post : List DCFile) {p : TxPump} (f : DCFile)
    (hp : p.failure = none) :
    let r := txPumpFile env t.transId p f
    ReflTransGen (TxPumpMove env) (p.at t (pre ++ f :: post)) (r.1.at t (pre ++ r.2 :: post)) := by
  simp only [txPumpFile]
  split
  · exact .refl
  have hnew : ReflTransGen (TxPumpMove env) (p.at t (pre ++ f :: post)) _ :=
    txPumpNew_moves hphase pre post p.budget p f hp
  split
  · exact hnew
  · rename_i hlive
    rw [Bool.not_eq_true, Option.isSome_eq_false_iff, Option.isNone_iff_eq_none] at hlive
    exact hnew.trans (txPumpRetran_moves hphase pre post _ hlive)

theorem txPumpFiles_moves (fs : List DCFile) : ∀ (p : TxPump) (pre : List DCFile),
    let r := txPumpFiles env t.transId p fs
    ReflTransGen (TxPumpMove env) (p.at t (pre ++ fs)) (r.1.at t (pre ++ r.2)) := by
  induction fs with
  | nil => intro p pre; exact .refl
  | cons f fs ih =>
      intro p pre
      simp only [txPumpFiles]
      split
      · exact .refl
      · rename_i hgo
        rw [not_or] at hgo
        have hp : p.failure = none := by simpa using hgo.1
        have hfile : ReflTransGen (TxPumpMove env) (p.at t (pre ++ f :: fs)) _ :=
          txPumpFile_moves hphase pre fs f hp
        have hrest := ih (txPumpFile env t.transId p f).1 (pre ++ [(txPumpFile env t.transId p f).2])
        simp only [List.append_assoc, List.singleton_append] at hrest
        exact hfile.trans hrest

/-- A pump is a sequence of blocks; a failure ends the transfer. -/
theorem txPump_cases {c : DFileConn} (htx : c.tx = some t) :
    ∃ c₁, ReflTransGen (TxPumpMove env) c c₁ ∧ (txPump env c = c₁ ∨
      ∃ why sendRst, txPump env c = c₁.andThen (transFail env true why sendRst)) := by
  have hat : (⟨c, dcSendBudget, t.lastRetranMs, none⟩ : TxPump).at t t.files = c := by
    unfold TxPump.at
    rw [← htx]
  have hfiles : ReflTransGen (TxPumpMove env) _ _ :=
    txPumpFiles_moves hphase t.files ⟨c, dcSendBudget, t.lastRetranMs, none⟩ []
  rw [List.nil_append, hat] at hfiles
  refine ⟨_, hfiles, ?_⟩
  simp only [txPump, htx]
  split
  · exact Or.inl rfl
  · rename_i why sendRst _
    exact Or.inr ⟨why, sendRst, rfl⟩

theorem txPump_moves {c : DFileConn} (htx : c.tx = some t) :
    DcMoves sha256Hex env late fr c (txPump env c) := by
  obtain ⟨c₁, hblocks, hend⟩ := @txPump_cases env t hphase c htx
  have hmoves : DcMoves sha256Hex env late fr c c₁ := hblocks.lift id fun _ _ h => h.move
  rcases hend with hend | ⟨why, sendRst, hend⟩
  · rw [hend]
    exact hmoves
  · rw [hend]
    exact DFileConn.andThen_moves hmoves fun _ => transFail_moves true why sendRst _

end

/-! ## Control frames -/

theorem txFinish_moves {t : DCTrans} {c : DFileConn} (htx : c.tx = some t)
    (hdone : t.doneReceived = true) (hacked : txAllAcked t = true) :
    DcMoves sha256Hex env late fr c (txFinish env c) := by
  simp only [txFinish, htx]
  split
  · exact .refl
  rename_i hopen
  have hack : t.doneackSent = false := by
    rw [← Bool.not_eq_true]
    exact fun h => hopen (Or.inl h)
  have hnot : t.phase ≠ .txDone := fun h => hopen (Or.inr (Or.inl h))
  have hlive : t.phase ≠ .failed := fun h => hopen (Or.inr (Or.inr h))
  rcases dcSendIdlist_cases env .fileTransferDoneAck t.transId
    (t.files.map fun f => f.fileId) c with ⟨-, hr⟩ | ⟨f, hf, hr⟩
  · rw [hr]
    exact DFileConn.andThen_moves .refl fun _ => transFail_moves true _ false _
  · rw [hr]
    rcases hs : dcSend env c f with ⟨c', ok⟩
    cases ok
    · have hsend : DcMoves sha256Hex env late fr c (dcSend env c f).1 :=
        (DcMove.send (.doneack htx hack hnot hlive hdone hacked hf)).moves
      rw [hs] at hsend
      exact DFileConn.andThen_moves hsend fun _ => transFail_moves true _ false _
    · have hmove : DcMove sha256Hex env late fr c _ :=
        DcMove.finish htx hack hnot hlive hdone hacked hf (by rw [hs])
      rw [hs] at hmove
      exact hmove.moves

theorem handleTxCtrl_moves {type : DFileFrameType} {frame : Bytes}
    (htype : type = .fileHeaderConfirm ∨ type = .fileTransferReq) (c : DFileConn) :
    DcMoves sha256Hex env late (some frame) c (handleTxCtrl env type frame c) := by
  unfold handleTxCtrl
  split
  · exact .refl
  rename_i t htx
  split
  · exact .refl
  rename_i hphase
  split
  · exact shutdownCommon_moves _ c
  rename_i l hl
  split
  · exact shutdownCommon_moves _ c
  rename_i hid
  exact (DcMove.ctrl rfl htx (not_not.mp hphase) htype hl (not_not.mp hid)).moves

theorem handleAck_moves {frame : Bytes} (c : DFileConn) :
    DcMoves sha256Hex env late (some frame) c (handleAck env frame c) := by
  unfold handleAck
  split
  · exact .refl
  rename_i t htx
  split
  · exact .refl
  rename_i hphase
  split
  · exact shutdownCommon_moves _ c
  rename_i a ha
  split
  · exact shutdownCommon_moves _ c
  rename_i hid
  have hactive : t.phase = .txSending ∨ t.phase = .txWaitDone := by
    by_contra h
    rw [not_or] at h
    exact hphase h
  have hmove : DcMoves sha256Hex env late (some frame) c _ :=
    (DcMove.ack rfl htx hactive ha (not_not.mp hid)).moves
  simp only
  split
  · rename_i hfinish
    rw [Bool.and_eq_true] at hfinish
    exact hmove.trans (txFinish_moves rfl hfinish.1 hfinish.2)
  · exact hmove

theorem handleDone_moves {frame : Bytes} (c : DFileConn) :
    DcMoves sha256Hex env late (some frame) c (handleDone env frame c) := by
  unfold handleDone
  split
  · exact .refl
  rename_i t htx
  split
  · exact .refl
  rename_i hopen
  rw [not_or] at hopen
  split
  · exact shutdownCommon_moves _ c
  rename_i l hl
  split
  · exact shutdownCommon_moves _ c
  rename_i hid
  have hmove : DcMoves sha256Hex env late (some frame) c _ :=
    (DcMove.doneReceived rfl htx hopen.1 hopen.2 hl (not_not.mp hid)).moves
  by_cases hacked : txAllAcked t = true
  · exact (if_pos hacked).symm ▸ hmove.trans (txFinish_moves rfl rfl hacked)
  · exact (if_neg hacked).symm ▸ hmove

/-! ## Receiver -/

/-- An ACK of at most 39 entries fits its buffer. -/
theorem dfileEncodeAck_isSome (files : List DCFile) (transId : UInt16) :
    ∃ f, dfileEncodeAck (dfileFrameHeaderLen + 12 + 37 * dfileMaxAckEntries) false transId 0
      (rxAckEntries files) = some f := by
  have hlen : (rxAckEntries files).length ≤ dfileMaxAckEntries := by
    rw [rxAckEntries, List.length_map]
    exact List.length_take_le _ _
  have hcap : ¬ dfileFrameHeaderLen + 12 + 37 * dfileMaxAckEntries <
      dfileFrameHeaderLen + dfileAckLen false (rxAckEntries files).length := by
    simp only [dfileAckLen, Bool.false_eq_true, if_false]
    omega
  simp only [dfileEncodeAck, gt_iff_lt, Nat.not_lt.mpr hlen, hcap, if_false]
  exact ⟨_, rfl⟩

theorem rxFlushAck_moves {t : DCTrans} {c : DFileConn} (hrx : c.rx = some t)
    (hphase : t.phase = .rxWaitData) :
    DcMoves sha256Hex env late fr c (rxFlushAck env c) := by
  simp only [rxFlushAck, hrx]
  split
  · rename_i hnone
    exact (DcMove.flushNone hrx hphase (List.length_eq_zero_iff.mp hnone)).moves
  rename_i hsome
  have hents : rxAckEntries t.files ≠ [] := fun h => hsome (by rw [h]; rfl)
  obtain ⟨f, hf⟩ := dfileEncodeAck_isSome t.files t.transId
  simp only [hf]
  have hmove : DcMoves sha256Hex env late fr c _ := (DcMove.flush hrx hphase hents hf).moves
  rcases hr : dcSend env { c with rx := some { t with ackPending := false } } f with ⟨c', ok⟩
  rw [hr] at hmove
  cases ok
  · exact DFileConn.andThen_moves hmove fun _ => transFail_moves false _ false _
  · exact hmove

/-- A digest that was taken is of what the file had been given. -/
theorem rxCheckFiles_digested (sha256Hex : Bytes → Bytes) (fs : List DCFile) : ∀ {msg : String},
    (rxCheckFiles sha256Hex msg fs).2.2 = true →
      ∀ g ∈ (rxCheckFiles sha256Hex msg fs).1, g.digested = some g.sha := by
  induction fs with
  | nil => intro msg _ g hg; cases hg
  | cons f fs ih =>
      intro msg
      have hcons : ∀ {msg' : String}, (rxCheckFiles sha256Hex msg' fs).2.2 = true →
          ∀ g ∈ { f with digested := some f.sha } :: (rxCheckFiles sha256Hex msg' fs).1,
            g.digested = some g.sha := by
        intro msg' h g hg
        rcases List.mem_cons.mp hg with rfl | hg
        · rfl
        · exact ih h g hg
      simp only [rxCheckFiles]
      split
      · split
        · exact hcons
        · intro h
          cases h
      · exact hcons

/-- Taking digests changes nothing else. -/
theorem rxCheckFiles_map {α : Type} (sha256Hex : Bytes → Bytes) (g : DCFile → α)
    (hg : ∀ f d, g { f with digested := d } = g f) (fs : List DCFile) : ∀ {msg : String},
    (rxCheckFiles sha256Hex msg fs).1.map g = fs.map g := by
  induction fs with
  | nil => intro msg; rfl
  | cons f fs ih =>
      intro msg
      simp only [rxCheckFiles]
      split
      · split
        · rw [List.map_cons, List.map_cons, ih, hg]
        · rw [List.map_cons, List.map_cons, hg]
      · rw [List.map_cons, List.map_cons, ih, hg]

theorem rxComplete_iff {t : DCTrans} :
    rxComplete t = true ↔ t.files ≠ [] ∧ ∀ f ∈ t.files, f.writeComplete = true := by
  rw [rxComplete, Bool.and_eq_true, decide_eq_true_iff, List.all_eq_true, gt_iff_lt,
    List.length_pos_iff]

theorem rxComplete_congr {t t' : DCTrans}
    (h : t'.files.map (fun f => f.writeComplete) = t.files.map fun f => f.writeComplete) :
    rxComplete t' = rxComplete t := by
  have hlen : t'.files.length = t.files.length := by simpa using congrArg List.length h
  have hall : t'.files.all (fun f => f.writeComplete) = t.files.all fun f => f.writeComplete := by
    have := congrArg (fun l : List Bool => l.all id) h
    simpa [List.all_map] using this
  rw [rxComplete, rxComplete, hlen, hall]

/-- A socket that takes nothing sends no frame. -/
theorem dcSend_takes {c : DFileConn} {f : Bytes} (hf : f ≠ [])
    (h : (env.send c.out.length).takes = false) : (dcSend env c f).2 ≠ true := by
  intro hsent
  have hwrite := of_decide_eq_true hsent
  have hlive := (dcWrite_sent hwrite).1
  rw [show (dcSendRaw env c f).2 = (dcWrite env c f).2 from rfl, dcWrite,
    if_neg (by simp [hlive])] at hwrite
  exact (dcSendLoop_takes _ hf h).2 hwrite

theorem rxSendDone_moves {t : DCTrans} {c : DFileConn} (hrx : c.rx = some t)
    (hphase : t.phase = .rxWaitData ∨ t.phase = .failed) (hcomplete : rxComplete t = true)
    (hlate : t.phase = .failed → (rxCheckFiles sha256Hex "received:" t.files).2.2 = true →
      (env.send c.out.length).takes = true → late) :
    DcMoves sha256Hex env late fr c (rxSendDone sha256Hex env c) := by
  simp only [rxSendDone, hrx]
  split
  · exact .refl
  rename_i hsent
  rw [Bool.not_eq_true] at hsent
  set t' := { t with
    files := (rxCheckFiles sha256Hex "received:" t.files).1
    resultMsg := some (rxCheckFiles sha256Hex "received:" t.files).2.1 } with ht'
  have hdigest : DcMoves sha256Hex env late fr c { c with rx := some t' } :=
    (DcMove.digest hrx hphase hsent hcomplete).moves
  have hsent' : t'.doneSent = false := hsent
  have hcomplete' : rxComplete t' = true := by
    rw [rxComplete_congr (rxCheckFiles_map sha256Hex (fun f => f.writeComplete)
      (fun _ _ => rfl) t.files)]
    exact hcomplete
  split
  · rename_i hagree
    have hdigested : ∀ g ∈ t'.files, g.digested = some g.sha :=
      rxCheckFiles_digested sha256Hex t.files hagree
    set c₁ := { c with rx := some t' } with hc₁
    have hallowed : t'.phase = .rxWaitData ∨ late ∨
        (env.send c₁.out.length).takes = false := by
      refine hphase.imp_right fun hfailed => ?_
      rcases htakes : (env.send c.out.length).takes with _ | _
      · exact Or.inr rfl
      · exact Or.inl (hlate hfailed hagree htakes)
    have hne : t'.files.map (fun f => f.fileId) ≠ [] := by
      rw [Ne, List.map_eq_nil_iff]
      exact (rxComplete_iff.mp hcomplete').1
    rcases dcSendIdlist_cases env .fileTransferDone t'.transId
      (t'.files.map fun f => f.fileId) c₁ with ⟨-, hr⟩ | ⟨f, hf, hr⟩
    · rw [hr]
      exact DFileConn.andThen_moves hdigest fun _ => transFail_moves false _ false _
    · rw [hr]
      rcases hs : dcSend env c₁ f with ⟨c', ok⟩
      cases ok
      · have hsend : DcMoves sha256Hex env late fr c₁ _ :=
          (DcMove.send (.done rfl hallowed hsent' hcomplete' hdigested hf)).moves
        rw [hs] at hsend
        exact DFileConn.andThen_moves (hdigest.trans hsend)
          fun _ => transFail_moves false _ false _
      · have hwhole : (dcSend env c₁ f).2 = true := by rw [hs]
        have hwait : t'.phase = .rxWaitData ∨ late := by
          refine hallowed.imp_right fun h => h.resolve_right fun htakes => ?_
          obtain ⟨hframe, hcarried, -⟩ := dfileEncodeIdlist_frame hne hf
          exact dcSend_takes (IsFrameOf.ne_nil ⟨_, _, _, hframe, hcarried⟩) htakes hwhole
        have hdone : DcMoves sha256Hex env late fr c₁ _ :=
          (DcMove.done rfl hwait hsent' hcomplete' hdigested hf hwhole).moves
        rw [hs] at hdone
        exact hdigest.trans hdone
  · exact DFileConn.andThen_moves (hdigest.trans (dcSendRst_moves _ _ [] _))
      fun _ => transFail_moves false _ false _

theorem handleDoneack_moves {frame : Bytes} (c : DFileConn) :
    DcMoves sha256Hex env late (some frame) c (handleDoneack env frame c) := by
  unfold handleDoneack
  split
  · exact .refl
  rename_i t hrx
  split
  · exact .refl
  rename_i hphase
  split
  · exact shutdownCommon_moves _ c
  rename_i l hl
  split
  · exact shutdownCommon_moves _ c
  rename_i hid
  exact (DcMove.doneack rfl hrx (not_not.mp hphase) hl (not_not.mp hid)).moves

/-! ## Headers and data -/

/-- A destination file as it was opened for an entry. -/
structure RxFresh (blockSize : ℕ) (e : DFileHeaderEntry) (f : DCFile) : Prop where
  block : blockSize ≠ 0
  fileId : f.fileId = e.fileId
  size : f.size = e.fileSize.toNat
  name : f.name = e.name
  total : f.totalBlocks = dcTotalBlocks f.size blockSize
  expectedSeq : f.expectedSeq = 0
  writeComplete : f.writeComplete = decide (f.totalBlocks = 0)
  expectedSha : f.expectedSha = ftTestfileNameSha e.name
  sha : f.sha = []
  writes : f.writes = []
  digested : f.digested = none

theorem rxOpenFile_spec (env : DcEnv) (dir : Bytes) (blockSize : ℕ) (opened : List Bytes)
    (he : DFileHeaderEntry) :
    (∀ f, (rxOpenFile env dir blockSize opened he).2 = .ok f → RxFresh blockSize he f) ∧
      ((rxOpenFile env dir blockSize opened he).2 = .crashed → blockSize = 0) := by
  simp only [rxOpenFile]
  split
  · exact ⟨fun f h => (by cases h), fun h => (by cases h)⟩
  split
  · exact ⟨fun f h => (by cases h), fun h => (by cases h)⟩
  split
  · exact ⟨fun f h => (by cases h), fun h => (by cases h)⟩
  split
  · rename_i hblock
    exact ⟨fun f h => (by cases h), fun _ => hblock⟩
  · rename_i hblock
    refine ⟨fun f h => ?_, fun h => by cases h⟩
    cases h
    exact ⟨hblock, rfl, rfl, rfl, rfl, rfl, rfl, rfl, rfl, rfl, rfl⟩

/-- What opening the destinations gives: one fresh file for each entry, in
order, as far as it got. -/
theorem rxOpenFiles_spec (env : DcEnv) (dir : Bytes) (blockSize : ℕ)
    (hes : List DFileHeaderEntry) : ∀ (opened : List Bytes) (files : List DCFile),
      let r := rxOpenFiles env dir blockSize opened files hes
      ∃ new, r.2.1 = files ++ new ∧
        (new.map fun f => f.fileId) <+: (hes.map fun e => e.fileId) ∧
        (r.2.2 = .ok () → (new.map fun f => f.fileId) = hes.map fun e => e.fileId) ∧
        (r.2.2 = .crashed → blockSize = 0) ∧
        ∀ f ∈ new, ∃ e ∈ hes, RxFresh blockSize e f := by
  induction hes with
  | nil =>
      intro opened files
      exact ⟨[], by simp [rxOpenFiles]⟩
  | cons he hes ih =>
      intro opened files
      have hspec := rxOpenFile_spec env dir blockSize opened he
      rcases hr : rxOpenFile env dir blockSize opened he with ⟨opened', f | why | -⟩
      · rw [hr] at hspec
        have hfresh := hspec.1 f rfl
        obtain ⟨new, hnew, hpre, hok, hcrash, hall⟩ := ih opened' (files ++ [f])
        simp only [rxOpenFiles, hr]
        refine ⟨f :: new, ?_, ?_, ?_, hcrash, ?_⟩
        · rw [hnew, List.append_assoc, List.singleton_append]
        · rw [List.map_cons, List.map_cons, hfresh.fileId]
          exact List.cons_prefix_cons.mpr ⟨rfl, hpre⟩
        · intro h
          rw [List.map_cons, List.map_cons, hok h, hfresh.fileId]
        · intro g hg
          rcases List.mem_cons.mp hg with rfl | hg
          · exact ⟨he, by simp, hfresh⟩
          · obtain ⟨e, he', hgfresh⟩ := hall g hg
            exact ⟨e, List.mem_cons_of_mem _ he', hgfresh⟩
      · exact ⟨[], by simp [rxOpenFiles, hr]⟩
      · rw [hr] at hspec
        obtain rfl := hspec.2 rfl
        exact ⟨[], by simp [rxOpenFiles, hr]⟩

theorem rxConfirm_moves {t : DCTrans} {c : DFileConn} (hrx : c.rx = some t)
    (hphase : t.phase = .idle) (hnode : t.nodeNumber.toNat ≤ t.hdr.length)
    (hids : (t.files.map fun f => f.fileId) = t.hdr.map fun e => e.fileId) :
    DcMoves sha256Hex env late fr c (rxConfirm env t c) := by
  simp only [rxConfirm]
  have hfirst : ∃ c₁ ok, dcSendIdlist env .fileHeaderConfirm t.transId
      (t.hdr.map fun e => e.fileId) c = (c₁, ok) ∧ c₁.rx = some t ∧
      DcMoves sha256Hex env late fr c c₁ := by
    rcases dcSendIdlist_cases env .fileHeaderConfirm t.transId (t.hdr.map fun e => e.fileId) c with
      ⟨-, hr⟩ | ⟨f, hf, hr⟩
    · exact ⟨c, false, hr, hrx, .refl⟩
    · refine ⟨(dcSend env c f).1, (dcSend env c f).2, hr, hrx, ?_⟩
      exact (DcMove.send (.confirm hrx hphase hnode (Or.inl rfl) hf)).moves
  obtain ⟨c₁, ok, hr, hrx₁, hmoves⟩ := hfirst
  rw [hr]
  refine DFileConn.andThen_moves hmoves fun _ => ?_
  cases ok
  · exact DFileConn.andThen_moves .refl fun _ => transFail_moves false _ false _
  simp only [if_true]
  rcases dcSendIdlist_cases env .fileTransferReq t.transId (t.hdr.map fun e => e.fileId) c₁ with
    ⟨-, hr₂⟩ | ⟨f, hf, hr₂⟩
  · rw [hr₂]
    exact DFileConn.andThen_moves .refl fun _ => transFail_moves false _ false _
  · rw [hr₂]
    split
    · rename_i hok
      exact (DcMove.waitData hrx₁ hphase hnode hids hf hok).moves
    · have hsend : DcMoves sha256Hex env late fr c₁ (dcSend env c₁ f).1 :=
        (DcMove.send (.confirm hrx₁ hphase hnode (Or.inr rfl) hf)).moves
      exact DFileConn.andThen_moves hsend fun _ => transFail_moves false _ false _

/-- No destination has been opened before the header is complete. -/
def DFileConn.Unopened (c : DFileConn) : Prop :=
  ∀ t, c.rx = some t → t.phase = .idle → t.files = []

theorem rxHeaderComplete_moves {t : DCTrans} {c : DFileConn} {frame : Bytes}
    {h : DFileHeaderFrame} (hframe : dfileDecodeFileHeader frame = some h) (hrx : c.rx = some t)
    (hnode : t.nodeNumber.toNat ≤ t.hdr.length) (hidle : c.Unopened) :
    DcMoves sha256Hex env late (some frame) c (rxHeaderComplete env c) := by
  simp only [rxHeaderComplete, hrx]
  split
  · exact .refl
  rename_i hphase
  rw [not_not] at hphase
  split
  · exact transFail_moves false _ false c
  rename_i dir hdir
  have hfiles := hidle t hrx hphase
  obtain ⟨new, hnew, -, hok, hcrash, -⟩ :=
    rxOpenFiles_spec env dir c.blockSize t.hdr c.opened t.files
  have hopen : DcMoves sha256Hex env late (some frame) c _ :=
    (DcMove.opened rfl hframe hrx hphase hnode hfiles hdir).moves
  split
  · rename_i hres
    refine hopen.trans (DcMove.moves ?_)
    exact DcMove.crash (hcrash hres) (Or.inr ⟨frame, h, rfl, hframe⟩)
  · exact DFileConn.andThen_moves (hopen.trans (dcSendRst_moves _ _ [] _))
      fun _ => transFail_moves false _ false _
  · rename_i hres
    have hids := hok hres
    rw [← List.nil_append new, ← hfiles, ← hnew] at hids
    refine hopen.trans ((DcMove.fileList rfl).moves.trans ?_)
    exact rxConfirm_moves rfl hphase hnode hids

theorem rxAddHeader_moves {t : DCTrans} {c : DFileConn} {frame : Bytes} {h : DFileHeaderFrame}
    (hframe : dfileDecodeFileHeader frame = some h) (hnode : h.nodeNumber ≠ 0)
    (hidle : t.phase = .idle → t.files = [])
    (ht : (c.rx = none ∧
          t = { transNew false h.transId env.now with nodeNumber := h.nodeNumber }) ∨
        (c.rx = some t ∧ t.phase ≠ .failed ∧ t.phase ≠ .rxDone ∧ t.transId = h.transId ∧
          t.nodeNumber = h.nodeNumber)) :
    DcMoves sha256Hex env late (some frame) c (rxAddHeader env h t c) := by
  have hsame : t.nodeNumber = h.nodeNumber := by
    rcases ht with ⟨-, rfl⟩ | ht
    · rfl
    · exact ht.2.2.2.2
  have hmove : DcMoves sha256Hex env late (some frame) c _ := (DcMove.header rfl hframe hnode ht).moves
  simp only [rxAddHeader]
  split
  · split
    · rename_i hfull
      refine hmove.trans (rxHeaderComplete_moves hframe rfl ?_ ?_)
      · rw [hsame]
        exact hfull
      · rintro t' ht' hphase
        cases ht'
        exact hidle hphase
    · exact hmove
  · exact hmove.trans (shutdownCommon_moves _ _)

theorem handleFileHeader_moves {frame : Bytes} {c : DFileConn} (hidle : c.Unopened) :
    DcMoves sha256Hex env late (some frame) c (handleFileHeader env frame c) := by
  unfold handleFileHeader
  split
  · exact .refl
  rename_i hopen
  split
  · exact shutdownCommon_moves _ c
  rename_i h hframe
  split
  · exact shutdownCommon_moves _ c
  rename_i hnode
  split
  · rename_i hrx
    exact rxAddHeader_moves hframe hnode (fun _ => rfl) (Or.inl ⟨hrx, rfl⟩)
  · rename_i t hrx
    split
    · exact shutdownCommon_moves _ c
    · rename_i hmatch
      rw [not_or, not_not, not_not] at hmatch
      have hlive : ¬ (t.phase = .failed ∨ t.phase = .rxDone) := by simpa [hrx] using hopen
      rw [not_or] at hlive
      exact rxAddHeader_moves hframe hnode (hidle t hrx)
        (Or.inr ⟨hrx, hlive.1, hlive.2, hmatch.1, hmatch.2⟩)

theorem handleData_moves {frame : Bytes} (c : DFileConn) :
    DcMoves sha256Hex env late (some frame) c (handleData env frame c) := by
  unfold handleData
  split
  · exact shutdownCommon_moves _ c
  rename_i d hframe
  simp only
  split
  · exact dcRstShutdown_moves _ _ _ c
  rename_i t hrx
  split
  · exact dcRstShutdown_moves _ _ _ c
  rename_i hactive
  rw [not_or, not_not, not_not] at hactive
  split
  · exact dcRstShutdown_moves _ _ _ c
  rename_i f hf
  simp only [rxDataFile]
  split
  · exact dcRstShutdown_moves _ _ _ c
  rename_i hrange
  split
  · exact .refl
  rename_i hold
  split
  · exact dcRstShutdown_moves _ _ _ c
  rename_i hgap
  split
  · exact dcRstShutdown_moves _ _ _ c
  rename_i hsize
  split
  · exact dcRstShutdown_moves _ _ _ c
  have hseq : d.blockSeq.toNat = f.expectedSeq := by omega
  rw [not_not, hseq] at hsize
  exact (DcMove.write rfl hframe hrx hactive.1 hactive.2 hf hseq (by omega) hsize).moves

/-! ## Dispatch, tick, events -/

theorem handleSetting_moves {frame : Bytes} {c : DFileConn} (hstate : c.state ≠ .closing) :
    DcMoves sha256Hex env late (some frame) c (handleSetting env frame c) := by
  unfold handleSetting
  split
  · exact .refl
  rename_i hfirst
  rw [Bool.not_eq_true] at hfirst
  split
  · exact shutdownCommon_moves _ c
  rename_i s hs
  split
  · exact dcRstShutdown_moves _ _ _ c
  rename_i hmtu
  exact (DcMove.negotiate rfl hstate hfirst hs hmtu).moves

theorem handleRst_moves (frame : Bytes) (c : DFileConn) :
    DcMoves sha256Hex env late fr c (handleRst env frame c) := by
  unfold handleRst
  split
  · exact shutdownCommon_moves _ c
  simp only
  split
  · exact transFail_moves true _ false c
  split
  · exact transFail_moves false _ false c
  · exact .refl

/-- **Dispatch.** -/
theorem handleFrame_moves {frame : Bytes} {c : DFileConn} (hidle : c.Unopened)
    (hstate : c.state ≠ .closing) :
    DcMoves sha256Hex env late (some frame) c (handleFrame env frame c) := by
  unfold handleFrame
  split
  · split
    · exact handleSetting_moves hstate
    · exact handleFileHeader_moves hidle
    · exact handleTxCtrl_moves (Or.inl rfl) c
    · exact handleTxCtrl_moves (Or.inr rfl) c
    · exact handleData_moves c
    · exact handleAck_moves c
    · exact handleDone_moves c
    · exact handleDoneack_moves c
    · exact handleRst_moves frame c
    · exact .refl
  · exact shutdownCommon_moves _ c

/-! ### Before the header is complete -/

/-- A transfer that is failed without a reset. -/
theorem transFail_plain {env : DcEnv} {isSender : Bool} {c : DFileConn} {t : DCTrans}
    (ht : c.trans isSender = some t) (hphase : t.phase.terminal = false) (hlive : c.crash = none)
    (why : String) :
    transFail env isSender why false c =
      (c.setTrans isSender { t with phase := .failed }).emit (.result isSender false why) := by
  have hset : (c.setTrans isSender { t with phase := .failed }).crash = none := by
    rw [← hlive]
    unfold DFileConn.setTrans
    split <;> rfl
  simp only [transFail, ht, hphase, Bool.false_eq_true, if_false, DFileConn.andThen, hset,
    Option.isSome_none]

/-- What a failure changes. -/
theorem transFail_spec (env : DcEnv) (isSender : Bool) (reason : String) (sendRst : Bool)
    (c : DFileConn) :
    transFail env isSender reason sendRst c = c ∨
      ∃ t w crash, c.trans isSender = some t ∧ t.phase.terminal = false ∧
        (w = [] ∨ ∃ f, IsFrameOf .rst f ∧ w = (dcWrite env c f).1 ∧
          ∀ message, (dcWrite env c f).2 = .error message → crash = some .nullStore) ∧
        (crash = c.crash ∨ crash = some .nullStore) ∧
        transFail env isSender reason sendRst c =
          { c.setTrans isSender { t with phase := .failed } with
            out := c.out ++ w
            crash := crash
            events := if crash.isSome then c.events
              else c.events ++ [((c.out ++ w).length, .result isSender false reason)] } := by
  rcases ht : c.trans isSender with _ | t
  · left
    simp only [transFail, ht]
  rcases hphase : t.phase.terminal with _ | _
  swap
  · left
    simp only [transFail, ht, hphase, if_true]
  right
  have hset : (c.setTrans isSender { t with phase := .failed }).out = c.out ∧
      (c.setTrans isSender { t with phase := .failed }).crash = c.crash ∧
      (c.setTrans isSender { t with phase := .failed }).events = c.events := by
    unfold DFileConn.setTrans
    split <;> exact ⟨rfl, rfl, rfl⟩
  have hrst : ∃ w crash, (w = [] ∨ ∃ f, IsFrameOf .rst f ∧ w = (dcWrite env c f).1 ∧
        ∀ message, (dcWrite env c f).2 = .error message → crash = some .nullStore) ∧
      (crash = c.crash ∨ crash = some .nullStore) ∧
      (if sendRst then dcSendRst env t.transId dfileRstCancel []
          (c.setTrans isSender { t with phase := .failed })
        else c.setTrans isSender { t with phase := .failed }) =
        { c.setTrans isSender { t with phase := .failed } with
          out := c.out ++ w, crash := crash } := by
    have hsame : ∃ w crash, (w = [] ∨ ∃ f, IsFrameOf .rst f ∧ w = (dcWrite env c f).1 ∧
          ∀ message, (dcWrite env c f).2 = .error message → crash = some .nullStore) ∧
        (crash = c.crash ∨ crash = some .nullStore) ∧
        c.setTrans isSender { t with phase := .failed } =
          { c.setTrans isSender { t with phase := .failed } with
            out := c.out ++ w, crash := crash } :=
      ⟨[], c.crash, Or.inl rfl, Or.inl rfl, by rw [List.append_nil, ← hset.1, ← hset.2.1]⟩
    cases sendRst
    · exact hsame
    · simp only [if_true, dcSendRst]
      split
      · exact hsame
      · rename_i f hf
        obtain ⟨hframe, hcarried, -⟩ := dfileEncodeRst_frame hf
        have hwrite : dcWrite env (c.setTrans isSender { t with phase := .failed }) f =
            dcWrite env c f := by
          unfold DFileConn.setTrans
          split <;> rfl
        refine ⟨(dcWrite env c f).1,
          (dcSend env (c.setTrans isSender { t with phase := .failed }) f).1.crash,
          Or.inr ⟨f, ⟨_, _, _, hframe, hcarried⟩, rfl, ?_⟩, ?_, ?_⟩
        · intro message herror
          simp only [dcSend, dcSendRaw, hwrite, herror]
        · simp only [dcSend, dcSendRaw, hset.2.1]
          split
          · exact Or.inr rfl
          · exact Or.inl rfl
        · simp only [dcSend, dcSendRaw, hset.1, hwrite]
  obtain ⟨w, crash, hw, hcrash, hrst⟩ := hrst
  refine ⟨t, w, crash, rfl, hphase, hw, hcrash, ?_⟩
  simp only [transFail, ht, hphase, Bool.false_eq_true, if_false, hrst, DFileConn.andThen,
    DFileConn.emit, hset.2.2]
  split
  · simp only [← hset.2.2]
  · rfl

theorem transFail_rx {t : DCTrans} {c : DFileConn} (hrx : c.rx = some t)
    (hlive : t.phase.terminal = false) (reason : String) (sendRst : Bool) :
    (transFail env false reason sendRst c).rx = some { t with phase := .failed } := by
  have hset : c.trans false = some t := hrx
  simp only [transFail, hset, hlive, Bool.false_eq_true, if_false, DFileConn.andThen]
  split <;> split <;> simp [DFileConn.setTrans, DFileConn.emit, dcSendRst]
  all_goals split <;> rfl

theorem DFileConn.Unopened.transFail {c : DFileConn} (h : c.Unopened) (isSender : Bool)
    (reason : String) (sendRst : Bool) : (transFail env isSender reason sendRst c).Unopened := by
  rcases transFail_spec env isSender reason sendRst c with hsame | ⟨t, w, crash, -, -, -, -, heq⟩
  · rw [hsame]
    exact h
  · rw [heq]
    intro t' ht' hphase
    cases isSender
    · cases ht'
      cases hphase
    · exact h t' ht' hphase

/-- A move that does not handle a header keeps `Unopened`. -/
theorem DcMove.unopened (hfr : ∀ frame, fr = some frame → dfileDecodeFileHeader frame = none)
    {c c' : DFileConn} (hm : DcMove sha256Hex env late fr c c') (h : c.Unopened) : c'.Unopened := by
  have hno : ∀ {frame : Bytes} {x : DFileHeaderFrame}, fr = some frame →
      dfileDecodeFileHeader frame ≠ some x := fun hf hx => by
    rw [hfr _ hf] at hx
    cases hx
  cases hm with
  | fail isSender reason sendRst => exact h.transFail isSender reason sendRst
  | header hf hx => exact absurd hx (hno hf)
  | opened hf hx => exact absurd hx (hno hf)
  | waitData hrx =>
      intro t' ht' hidle
      cases ht'
      cases hidle
  | write hf hd hrx hphase =>
      intro t' ht' hidle
      cases ht'
      rw [hphase] at hidle
      cases hidle
  | flushNone hrx hphase =>
      intro t' ht' hidle
      cases ht'
      rw [hphase] at hidle
      cases hidle
  | flush hrx hphase =>
      intro t' ht' hidle
      cases ht'
      rw [hphase] at hidle
      cases hidle
  | digest hrx hactive hsent hcomplete =>
      intro t' ht' hidle
      cases ht'
      have hempty := h _ hrx hidle
      rw [rxComplete_iff] at hcomplete
      exact absurd hempty hcomplete.1
  | done hrx =>
      intro t' ht' hidle
      cases ht'
      cases hidle
  | doneack hf hrx =>
      intro t' ht' hidle
      cases ht'
      cases hidle
  | _ => exact h

theorem DcMoves.unopened (hfr : ∀ frame, fr = some frame → dfileDecodeFileHeader frame = none)
    {c c' : DFileConn} (hm : DcMoves sha256Hex env late fr c c') (h : c.Unopened) : c'.Unopened := by
  induction hm with
  | refl => exact h
  | tail _ hlast ih => exact hlast.unopened hfr ih

theorem dcSendRst_rx (transId code : UInt16) (ids : List UInt16) (c : DFileConn) :
    (dcSendRst env transId code ids c).rx = c.rx := by
  unfold dcSendRst
  split <;> rfl

/-- A receive that fails has left `idle`. -/
theorem fail_unopened {c : DFileConn} (hidle : ∃ t, c.rx = some t ∧ t.phase = .idle)
    {reason : String} {sendRst : Bool}
    (hcrash : (c.andThen (transFail env false reason sendRst)).crash = none) :
    (c.andThen (transFail env false reason sendRst)).Unopened := by
  unfold DFileConn.andThen at hcrash ⊢
  split at hcrash
  · rename_i hdead
    rw [hcrash] at hdead
    cases hdead
  · rename_i hlive
    rw [if_neg hlive]
    obtain ⟨t, hrx, hphase⟩ := hidle
    intro t' ht' hidle
    rw [transFail_rx hrx (by rw [hphase]; rfl)] at ht'
    cases ht'
    cases hidle

theorem rxConfirm_unopened {t : DCTrans} {c : DFileConn} (hrx : c.rx = some t)
    (hphase : t.phase = .idle) (hcrash : (rxConfirm env t c).crash = none) :
    (rxConfirm env t c).Unopened := by
  have hsend : ∀ (type : DFileFrameType) (c₁ : DFileConn), c₁.rx = some t →
      (dcSendIdlist env type t.transId (t.hdr.map fun e => e.fileId) c₁).1.rx = some t := by
    intro type c₁ hrx₁
    rcases dcSendIdlist_cases env type t.transId (t.hdr.map fun e => e.fileId) c₁ with
      ⟨-, hr⟩ | ⟨f, -, hr⟩ <;> rw [hr] <;> exact hrx₁
  simp only [rxConfirm] at hcrash ⊢
  have hrx₁ := hsend .fileHeaderConfirm c hrx
  set r := dcSendIdlist env .fileHeaderConfirm t.transId (t.hdr.map fun e => e.fileId) c with hr
  unfold DFileConn.andThen at hcrash ⊢
  split at hcrash
  · rename_i hdead
    rw [hcrash] at hdead
    cases hdead
  rename_i hlive
  rw [if_neg hlive]
  cases hok : r.2
  · simp only [hok, Bool.false_eq_true, if_false] at hcrash ⊢
    exact fail_unopened ⟨t, hrx₁, hphase⟩ hcrash
  · simp only [hok, if_true] at hcrash ⊢
    split at hcrash
    · rename_i hok₂
      rw [if_pos hok₂]
      intro t' ht' hidle
      cases ht'
      cases hidle
    · rename_i hok₂
      rw [if_neg hok₂]
      exact fail_unopened ⟨t, hsend .fileTransferReq r.1 hrx₁, hphase⟩ hcrash

theorem rxHeaderComplete_unopened {t : DCTrans} {c : DFileConn} (hrx : c.rx = some t)
    (hidle : c.Unopened) (hcrash : (rxHeaderComplete env c).crash = none) :
    (rxHeaderComplete env c).Unopened := by
  simp only [rxHeaderComplete, hrx] at hcrash ⊢
  split at hcrash
  · rename_i hphase
    rw [if_pos hphase]
    exact hidle
  rename_i hphase
  rw [if_neg hphase]
  rw [not_not] at hphase
  split at hcrash
  · exact hidle.transFail false _ false
  split at hcrash
  · cases hcrash
  · refine fail_unopened ?_ hcrash
    rw [dcSendRst_rx]
    exact ⟨_, rfl, hphase⟩
  · exact rxConfirm_unopened rfl hphase hcrash

theorem handleFileHeader_unopened {frame : Bytes} {c : DFileConn} (hidle : c.Unopened)
    (hcrash : (handleFileHeader env frame c).crash = none) :
    (handleFileHeader env frame c).Unopened := by
  have hshut : ∀ (reason : String) {c₁ : DFileConn}, c₁.Unopened →
      (shutdownCommon env reason c₁).Unopened := by
    intro reason c₁ h
    have hmoves : DcMoves id env True none c₁ (shutdownCommon env reason c₁) :=
      shutdownCommon_moves reason c₁
    exact hmoves.unopened (fun _ h => by cases h) h
  have hadd : ∀ (h : DFileHeaderFrame) (t : DCTrans), (t.phase = .idle → t.files = []) →
      (rxAddHeader env h t c).crash = none → (rxAddHeader env h t c).Unopened := by
    intro h t ht hlive
    have hkeep : DFileConn.Unopened
        { c with rx := some { t with
            hdr := (rxAddEntries h.nodeNumber.toNat t.hdr h.entries).1 } } := by
      rintro t' ht' hphase
      cases ht'
      exact ht hphase
    simp only [rxAddHeader] at hlive ⊢
    split at hlive
    · rename_i hok
      rw [if_pos hok]
      split at hlive
      · rename_i hfull
        rw [if_pos hfull]
        exact rxHeaderComplete_unopened rfl hkeep hlive
      · rename_i hmore
        rw [if_neg hmore]
        exact hkeep
    · rename_i hover
      rw [if_neg hover]
      exact hshut _ hkeep
  unfold handleFileHeader at hcrash ⊢
  split at hcrash
  · rename_i hend
    rw [if_pos hend]
    exact hidle
  rename_i hend
  rw [if_neg hend]
  split at hcrash
  · exact hshut _ hidle
  split at hcrash
  · rename_i hzero
    rw [if_pos hzero]
    exact hshut _ hidle
  rename_i hnode
  rw [if_neg hnode]
  split at hcrash
  · exact hadd _ _ (fun _ => rfl) hcrash
  · rename_i t hrx
    split at hcrash
    · rename_i hmatch
      rw [if_pos hmatch]
      exact hshut _ hidle
    · rename_i hmatch
      rw [if_neg hmatch]
      exact hadd _ t (hidle t hrx) hcrash

/-- A dispatch of anything but a header never decodes as one. -/
theorem dfileDecodeFileHeader_eq_none {frame : Bytes} {h : DFileFrameHeader}
    (hframe : dfileFrameHeaderUnpack frame = .ok h)
    (htype : DFileFrameType.ofCode h.type ≠ some .fileHeader) :
    dfileDecodeFileHeader frame = none := by
  have hne : h.type ≠ DFileFrameType.fileHeader.code := by
    intro hcode
    rw [hcode] at htype
    exact htype rfl
  simp [dfileDecodeFileHeader, framePayload, hframe, hne]

theorem handleFrame_unopened {frame : Bytes} {c : DFileConn} (hidle : c.Unopened)
    (hstate : c.state ≠ .closing) (hcrash : (handleFrame env frame c).crash = none) : (handleFrame env frame c).Unopened := by
  have hmoves : DcMoves id env True (some frame) c (handleFrame env frame c) :=
    handleFrame_moves hidle hstate
  have hother : dfileDecodeFileHeader frame = none → (handleFrame env frame c).Unopened := by
    intro hnone
    refine hmoves.unopened ?_ hidle
    intro frame' hframe'
    cases hframe'
    exact hnone
  rcases hh : dfileFrameHeaderUnpack frame with h | - | -
  · by_cases htype : DFileFrameType.ofCode h.type = some .fileHeader
    · simp only [handleFrame, hh, htype] at hcrash ⊢
      exact handleFileHeader_unopened hidle hcrash
    · exact hother (dfileDecodeFileHeader_eq_none hh htype)
  · exact hother (by simp [dfileDecodeFileHeader, framePayload, hh])
  · exact hother (by simp [dfileDecodeFileHeader, framePayload, hh])

/-! ### Tick and events -/

theorem dcTimeout_moves (isSender : Bool) (c : DFileConn) :
    DcMoves sha256Hex env late fr c (dcTimeout env isSender c) := by
  unfold dcTimeout
  split
  · exact .refl
  generalize (if isSender then DCPhase.txDone else DCPhase.rxDone) = ended
  split
  · exact transFail_moves isSender _ true c
  · exact .refl

/-- The ACK of this tick is cut off by an interrupted poll, every file is there
and its digest agrees, and the socket is ready for the next frame: the code goes
on to the DONE frame of a transfer that has just failed. -/
def AckInterrupted (sha256Hex : Bytes → Bytes) (env : DcEnv) (c : DFileConn) : Prop :=
  ∃ t f, c.rx = some t ∧ t.phase = .rxWaitData ∧ t.ackPending = true ∧ rxComplete t = true ∧
    dfileEncodeAck (dfileFrameHeaderLen + 12 + 37 * dfileMaxAckEntries) false t.transId 0
      (rxAckEntries t.files) = some f ∧
    c.stopped = false ∧ (dcWrite env c f).2 = .interrupted ∧
    (rxCheckFiles sha256Hex "received:" t.files).2.2 = true ∧
    (env.send (c.out.length + 1)).takes = true

/-- After a flush the transfer still waits for data, unless the ACK was cut
off. -/
theorem rxFlushAck_phase {t : DCTrans} {c : DFileConn} (hrx : c.rx = some t)
    (hphase : t.phase = .rxWaitData) (hopen : c.stopped = false) :
    ∃ t₁, (rxFlushAck env c).rx = some t₁ ∧ t₁.files = t.files ∧
      (t₁.phase = .rxWaitData ∨ (rxFlushAck env c).crash.isSome = true ∨
        (t₁.phase = .failed ∧ (rxFlushAck env c).out.length = c.out.length + 1 ∧
          ∃ f, dfileEncodeAck (dfileFrameHeaderLen + 12 + 37 * dfileMaxAckEntries) false t.transId 0
            (rxAckEntries t.files) = some f ∧ (dcWrite env c f).2 = .interrupted)) := by
  simp only [rxFlushAck, hrx]
  split
  · exact ⟨_, rfl, rfl, Or.inl hphase⟩
  obtain ⟨f, hf⟩ := dfileEncodeAck_isSome t.files t.transId
  simp only [hf]
  set c₁ := { c with rx := some { t with ackPending := false } } with hc₁
  have hwrite : dcWrite env c₁ f = dcWrite env c f := rfl
  rcases hr : dcSend env c₁ f with ⟨c', ok⟩
  have hrx' : c'.rx = some { t with ackPending := false } := by
    have h := dcSend_rx env c₁ f
    rw [hr] at h
    exact h
  cases ok
  · simp only [DFileConn.andThen]
    split
    · rename_i hdead
      exact ⟨_, hrx', rfl, Or.inr (Or.inl hdead)⟩
    · rename_i hlive
      have hlive' : ({ t with ackPending := false } : DCTrans).phase.terminal = false := by
        rw [show ({ t with ackPending := false } : DCTrans).phase = .rxWaitData from hphase]
        rfl
      have hlen : (transFail env false "ACK send failed" false c').out.length =
          c.out.length + 1 := by
        have h := dcSend_out env c₁ f
        rw [hr] at h
        rw [transFail_out, h, hwrite, dcWrite, if_neg (by simp [hopen]), List.length_append]
        rfl
      refine ⟨_, transFail_rx hrx' hlive' _ _, rfl, Or.inr (Or.inr ⟨rfl, hlen, f, rfl, ?_⟩)⟩
      have hnot : (dcWrite env c f).2 ≠ .sent := by
        intro hsent
        have h : (dcSend env c₁ f).2 = true := decide_eq_true hsent
        rw [hr] at h
        cases h
      have hcrash : c'.crash = (dcSend env c₁ f).1.crash := by rw [hr]
      rcases hres : (dcWrite env c f).2 with _ | _ | message
      · exact absurd hres hnot
      · rfl
      · rw [hcrash, dcSend, dcSendRaw, hwrite] at hlive
        simp only [hres] at hlive
        exact absurd rfl hlive
  · exact ⟨_, hrx', rfl, Or.inl hphase⟩

theorem rxTick_moves {c : DFileConn} (hopen : c.stopped = false)
    (hlate : AckInterrupted sha256Hex env c → late) :
    DcMoves sha256Hex env late fr c (rxTick sha256Hex env c) := by
  unfold rxTick
  split
  · exact .refl
  rename_i t hrx
  split
  · exact .refl
  rename_i hphase
  rw [not_not] at hphase
  set c₁ := if t.ackPending then rxFlushAck env c else c with hc₁
  have hflush : DcMoves sha256Hex env late fr c c₁ := by
    rw [hc₁]
    split
    · exact rxFlushAck_moves hrx hphase
    · exact .refl
  refine DFileConn.whileOpen_moves hflush fun hopen₁ => ?_
  rcases hrx₁ : c₁.rx with _ | t₁
  · exact .refl
  simp only [Option.any_some]
  split
  · rename_i hall
    rw [Bool.and_assoc, Bool.and_eq_true] at hall
    have hcomplete : rxComplete t₁ = true := hall.2
    rw [hc₁] at hrx₁ hopen₁ ⊢
    split at hrx₁
    · rename_i hpending
      rw [if_pos hpending] at hopen₁ ⊢
      obtain ⟨t₂, ht₂, hfiles, hcases⟩ := @rxFlushAck_phase env t c hrx hphase hopen
      obtain rfl : t₁ = t₂ := Option.some.inj (hrx₁.symm.trans ht₂)
      have hcomplete' : rxComplete t = true := by
        rw [← hcomplete, rxComplete_congr (by rw [hfiles])]
      rcases hcases with h | h | ⟨hfailed, hlen, f, hf, hint⟩
      · exact rxSendDone_moves hrx₁ (Or.inl h) hcomplete fun hfailed => by
          rw [h] at hfailed
          cases hfailed
      · rw [(DFileConn.stopped_eq_false hopen₁).1] at h
        cases h
      · refine rxSendDone_moves hrx₁ (Or.inr hfailed) hcomplete fun _ hagree htakes => ?_
        rw [hfiles] at hagree
        rw [hlen] at htakes
        exact hlate ⟨t, f, hrx, hphase, hpending, hcomplete', hf, hopen, hint, hagree, htakes⟩
    · rename_i hpending
      rw [if_neg hpending] at hopen₁ ⊢
      obtain rfl : t = t₁ := Option.some.inj (hrx.symm.trans hrx₁)
      exact rxSendDone_moves hrx (Or.inl hphase) hcomplete fun hfailed => by
        rw [hphase] at hfailed
        cases hfailed
  · exact .refl

theorem txAfterPump_moves (c : DFileConn) :
    DcMoves sha256Hex env late fr c (txAfterPump env c) := by
  unfold txAfterPump
  split
  · exact .refl
  rename_i t htx
  have hsent : ∃ t', (if t.phase = .txSending ∧ txAllSent t then { t with phase := .txWaitDone }
      else t) = t' ∧ DcMoves sha256Hex env late fr c { c with tx := some t' } := by
    split
    · rename_i hall
      exact ⟨_, rfl, (DcMove.allSent htx hall.1 hall.2).moves⟩
    · refine ⟨t, rfl, ?_⟩
      rw [← htx]
  obtain ⟨t', ht', hmoves⟩ := hsent
  simp only [ht']
  split
  · rename_i hfinish
    rw [Bool.and_eq_true] at hfinish
    exact hmoves.trans (txFinish_moves rfl hfinish.1 hfinish.2)
  · exact hmoves

theorem txTick_moves (c : DFileConn) : DcMoves sha256Hex env late fr c (txTick env c) := by
  unfold txTick
  rcases htx : c.tx with _ | t
  · exact .refl
  simp only [Option.any_some, decide_eq_true_eq]
  split
  · rename_i hphase
    exact DFileConn.whileOpen_moves (txPump_moves hphase htx) fun _ => txAfterPump_moves _
  · exact .refl

theorem txRetryHeader_moves (c : DFileConn) :
    DcMoves sha256Hex env late fr c (txRetryHeader env c) := by
  unfold txRetryHeader
  split
  · exact .refl
  rename_i t htx
  split
  · rename_i hretry
    set t' := { t with ctrlRetries := t.ctrlRetries + 1 } with ht'
    have hcount : DcMoves sha256Hex env late fr c { c with tx := some t' } :=
      (DcMove.retry (t.ctrlRetries + 1) t.lastCtrlMs htx hretry.1).moves
    simp only
    split
    · exact hcount.trans (transFail_moves true _ true _)
    · have hphase' : t'.phase = .txWaitConfirmReq := hretry.1
      have hheader : DcMoves sha256Hex env late fr { c with tx := some t' }
          (txSendHeader env t' { c with tx := some t' }).1 ∧ _ :=
        txSendHeader_moves rfl (Or.inr hphase')
      rcases hr : txSendHeader env t' { c with tx := some t' } with ⟨c', ok⟩
      rw [hr] at hheader
      cases ok
      · exact DFileConn.andThen_moves (hcount.trans hheader.1)
          fun _ => transFail_moves true _ false _
      · exact (hcount.trans hheader.1).trans
          (DcMove.retry t'.ctrlRetries env.now hheader.2 hphase').moves
  · exact .refl

/-- The connection after the timeouts of a tick. -/
def dcTimeouts (env : DcEnv) (c : DFileConn) : DFileConn :=
  (dcTimeout env true c).andThen (dcTimeout env false)

theorem onTick_moves {c : DFileConn}
    (hlate : AckInterrupted sha256Hex env (dcTimeouts env c) → late) :
    DcMoves sha256Hex env late fr c (onTick sha256Hex env c) := by
  unfold onTick
  split
  · exact shutdownCommon_moves _ c
  have htimeouts : DcMoves sha256Hex env late fr c (dcTimeouts env c) :=
    DFileConn.andThen_moves (dcTimeout_moves true c) fun _ => dcTimeout_moves false _
  have hrx := DFileConn.whileOpen_moves htimeouts fun hopen => rxTick_moves hopen hlate
  have htx := DFileConn.whileOpen_moves hrx fun _ => txTick_moves _
  exact DFileConn.whileOpen_moves htx fun _ => txRetryHeader_moves _

theorem dcSendLocalSetting_moves (c : DFileConn) (hstate : c.state ≠ .closing) :
    DcMoves sha256Hex env late fr c (dcSendLocalSetting env c) := by
  unfold dcSendLocalSetting
  split
  · exact .refl
  rename_i hfirst
  rw [Bool.not_eq_true] at hfirst
  split
  · exact shutdownCommon_moves _ c
  rename_i f hf
  have hcut : ∀ reason, DcMoves sha256Hex env late fr c
      (shutdownCommon env reason { c with out := c.out ++ (dcWrite env c f).1 }) := by
    intro reason
    have hopen : ({ c with out := c.out ++ (dcWrite env c f).1 } : DFileConn).state ≠ .closing :=
      hstate
    rw [shutdownCommon, if_neg hopen]
    refine ReflTransGen.head (DcMove.settingCut reason hfirst hf) ?_
    exact shutdownRest_moves reason rfl
  simp only [dcSendRaw]
  split
  · rename_i heq
    have hsent := (Prod.mk.inj heq).2
    obtain rfl := (Prod.mk.inj heq).1
    have hout : (dcWrite env c f).1 = [f] := by rw [(dcWrite_sent hsent).2]
    rw [hout]
    exact (DcMove.setting hfirst hf hsent).moves
  · rename_i hr
    obtain ⟨rfl, -⟩ := Prod.mk.inj hr
    exact hcut _
  · rename_i hr
    obtain ⟨rfl, -⟩ := Prod.mk.inj hr
    exact hcut _

/-! ## Events

The dispatch of a frame is a sequence of moves once no destination is open
before the header is complete, which every event keeps as long as the process
lives. -/

/-- `Unopened`, unless the process is dead. -/
def DFileConn.Sound (c : DFileConn) : Prop := c.crash = none → c.Unopened

theorem DFileConn.Unopened.moves {c c' : DFileConn} (h : c.Unopened)
    (hm : DcMoves sha256Hex env late none c c') : c'.Unopened :=
  hm.unopened (fun _ h => by cases h) h

/-- **Invariant rule for reads.** What the dispatch of every frame keeps, a read
keeps. -/
theorem dcRead_keeps {Inv : DFileConn → Prop} (ok : DFileConn → Bytes → Prop) (env : DcEnv)
    (hframe : ∀ c frame, Inv c → c.Unopened → c.stopped = false → ok c frame →
      Inv (handleFrame env frame c))
    (hclose : ∀ reason c, Inv c → Inv (shutdownCommon env reason c))
    (hbuf : ∀ c buf, Inv c → Inv { c with rxbuf := buf })
    {c : DFileConn} {chunk : Bytes} (hinv : Inv c) (hsound : c.Sound)
    (hok : ∀ d ∈ dcDispatched env chunk c, ok d.1 d.2) :
    Inv (dcRead env chunk c) ∧ (dcRead env chunk c).Sound := by
  have hkeep : ∀ (c : DFileConn) (buf : Bytes) (k : ℕ), Inv c ∧ c.Sound → c.stopped = false →
      dcCut buf = some k → ok c (buf.take k) →
      Inv (dcHandle env c buf).1 ∧ (dcHandle env c buf).1.Sound := by
    intro c buf k h hlive hk hbufok
    have hstate := (DFileConn.stopped_eq_false hlive).2
    have hopen : c.Unopened := h.2 (DFileConn.stopped_eq_false hlive).1
    have hcorrupt : Inv (shutdownCommon env "corrupt frame header" c) ∧
        (shutdownCommon env "corrupt frame header" c).Sound := by
      have hmoves : DcMoves id env True none c (shutdownCommon env "corrupt frame header" c) :=
        shutdownCommon_moves _ c
      exact ⟨hclose _ c h.1, fun _ => hopen.moves hmoves⟩
    unfold dcHandle
    split
    · rename_i head hhead
      simp only [dcCut, hhead] at hk
      split at hk
      · cases hk
      cases hk
      exact ⟨hframe c _ h.1 hopen hlive hbufok, handleFrame_unopened hopen hstate⟩
    · exact hcorrupt
  have h := feed_keeps_where (fun c => Inv c ∧ c.Sound) ok hkeep (s := (c, c.rxbuf))
    ⟨hinv, hsound⟩ hok
  exact ⟨hbuf _ _ h.1, h.2⟩

/-- **Invariant rule for events.** What every move outside a read keeps and the
dispatch of every frame keeps, every event keeps; the moves of an event are late
ones only if `late` allows it. -/
theorem DFileConn.step_keeps_where (Inv : DFileConn → Prop) (late : Prop)
    (okEnv : DcEnv → Prop) (okFrame : DcEnv → DFileConn → Bytes → Prop)
    (hmove : ∀ {env : DcEnv} {c c' : DFileConn}, okEnv env → Inv c →
      DcMove sha256Hex env late none c c' → Inv c')
    (hframe : ∀ {env : DcEnv} {c : DFileConn} {frame : Bytes}, okEnv env → Inv c → c.Unopened →
      c.stopped = false → okFrame env c frame → Inv (handleFrame env frame c))
    {c c' : DFileConn} {e : DcEv} (hinv : Inv c) (hsound : c.Sound) (henv : okEnv e.env)
    (hread : ∀ d ∈ e.dispatches c, okFrame d.2.1 d.1 d.2.2)
    (hlate : ∀ env, e = .tick env → AckInterrupted sha256Hex env (dcTimeouts env c) → late)
    (hs : c.step sha256Hex e = some c') : Inv c' ∧ c'.Sound := by
  have hmoves : ∀ {env : DcEnv} {c c' : DFileConn}, okEnv env → Inv c →
      DcMoves sha256Hex env late none c c' → Inv c' := by
    intro env c c' henv hinv hm
    induction hm with
    | refl => exact hinv
    | tail _ hlast ih => exact hmove henv ih hlast
  unfold DFileConn.step at hs
  split at hs
  · rename_i henabled
    cases hs
    rw [Bool.and_eq_true, Bool.not_eq_true'] at henabled
    have hlive := DFileConn.stopped_eq_false henabled.1
    have hopen := hsound hlive.1
    have hquiet : ∀ {c'}, DcMoves sha256Hex e.env late none c c' → Inv c' ∧ c'.Sound := fun hm =>
      ⟨hmoves henv hinv hm, fun _ => hopen.moves hm⟩
    cases e with
    | start env => exact hquiet (dcSendLocalSetting_moves c hlive.2)
    | read env chunk =>
        refine dcRead_keeps (okFrame env) env ?_ ?_ ?_ hinv hsound ?_
        · intro c frame hc hidle hopen hok
          exact hframe henv hc hidle hopen hok
        · intro reason c hc
          exact hmoves henv hc (shutdownCommon_moves reason c)
        · intro c buf hc
          exact hmove henv hc (.buffer buf)
        · intro d hd
          exact hread (d.1, env, d.2) (List.mem_map.mpr ⟨d, hd, rfl⟩)
    | eof env => exact hquiet (shutdownCommon_moves _ c)
    | socketError env message => exact hquiet (shutdownCommon_moves _ c)
    | tick env => exact hquiet (onTick_moves (hlate env rfl))
    | sendFiles env items => exact hquiet (sendFilesImpl_moves items c)
    | close env => exact hquiet (shutdownCommon_moves _ c)
  · cases hs

/-- What every move keeps, every event keeps. -/
theorem DFileConn.step_keeps (Inv : DFileConn → Prop) (late : Prop) (okEnv : DcEnv → Prop)
    (hmove : ∀ {env : DcEnv} {fr : Option Bytes} {c c' : DFileConn}, okEnv env → Inv c →
      DcMove sha256Hex env late fr c c' → Inv c')
    {c c' : DFileConn} {e : DcEv} (hinv : Inv c) (hsound : c.Sound) (henv : okEnv e.env)
    (hlate : ∀ env, e = .tick env → AckInterrupted sha256Hex env (dcTimeouts env c) → late)
    (hs : c.step sha256Hex e = some c') : Inv c' ∧ c'.Sound := by
  refine DFileConn.step_keeps_where Inv late okEnv (fun _ _ _ => True) hmove ?_ hinv hsound henv
    (fun _ _ => trivial) hlate hs
  intro env c frame henv hc hidle hopen _
  have hmoves : ∀ {c'}, DcMoves sha256Hex env late (some frame) c c' → Inv c' := by
    intro c' hm
    induction hm with
    | refl => exact hc
    | tail _ hlast ih => exact hmove henv ih hlast
  exact hmoves (handleFrame_moves hidle (DFileConn.stopped_eq_false hopen).2)

end

end HwPhoneLink.DFile
