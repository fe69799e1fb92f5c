import HwPhoneLink.DFile.Announce
import HwPhoneLink.DFile.Codec
import HwPhoneLink.DFile.Drain
import HwPhoneLink.DFile.Sending

/-!
# What happens to the blocks of a sending transfer

Only `tx_pump` reads blocks, and only the tick pumps. A step of a sending transfer opens it,
sends one block, handles the entries of one ACK, or leaves the blocks alone and sends no data
frame (`BlockStep`); `DFileConn.step_blocks` takes every event apart into such steps.
-/

namespace HwPhoneLink.DFile

open BigEndian Path Framing Transitions Relation HwPhoneLink.Testfile

/-! ## No block is read -/

/-- The same surroundings, but no file can be opened for reading or read. -/
def DcEnv.mute (env : DcEnv) : DcEnv :=
  { env with openRead := fun _ => false, pread := fun _ _ _ => none }

section
variable (env : DcEnv)

theorem rxOpenFiles_mute (dir : Bytes) (blockSize : ℕ) (hes : List DFileHeaderEntry) :
    ∀ opened files, rxOpenFiles env.mute dir blockSize opened files hes =
      rxOpenFiles env dir blockSize opened files hes := by
  induction hes with
  | nil => intro opened files; rfl
  | cons he hes ih =>
      intro opened files
      simp only [rxOpenFiles, ih]
      rfl

theorem txSendHeaderFrom_mute (transId : UInt16) (ents : List DFileHeaderEntry) (fuel : ℕ) :
    ∀ start c, txSendHeaderFrom env.mute transId ents fuel start c =
      txSendHeaderFrom env transId ents fuel start c := by
  induction fuel with
  | zero => intro start c; rfl
  | succ fuel ih =>
      intro start c
      simp only [txSendHeaderFrom, ih]
      rfl

theorem handleFileHeader_mute (frame : Bytes) (c : DFileConn) :
    handleFileHeader env.mute frame c = handleFileHeader env frame c := by
  have hcomplete : rxHeaderComplete env.mute = rxHeaderComplete env := by
    funext c
    simp only [rxHeaderComplete, rxOpenFiles_mute]
    rfl
  simp only [handleFileHeader, rxAddHeader, hcomplete]
  rfl

theorem handleFrame_mute : handleFrame env.mute = handleFrame env := by
  funext frame c
  simp only [handleFrame, handleFileHeader_mute]
  rfl

theorem txRetryHeader_mute : txRetryHeader env.mute = txRetryHeader env := by
  funext c
  simp only [txRetryHeader, txSendHeader, txSendHeaderFrom_mute]
  rfl

theorem dcHandle_mute : dcHandle env.mute = dcHandle env := by
  funext c buf
  simp only [dcHandle, handleFrame_mute]
  rfl

end

/-- The event with the same answers, but nothing to read. -/
def DcEv.mute : DcEv → DcEv
  | .start env => .start env.mute
  | .read env chunk => .read env.mute chunk
  | .eof env => .eof env.mute
  | .socketError env message => .socketError env.mute message
  | .tick env => .tick env
  | .sendFiles env items => .sendFiles env items
  | .close env => .close env.mute

theorem DFileConn.step_mute (sha256Hex : Bytes → Bytes) (c : DFileConn) (e : DcEv) :
    c.step sha256Hex e.mute = c.step sha256Hex e := by
  have hevent : c.onEvent sha256Hex e.mute = c.onEvent sha256Hex e := by
    cases e with
    | read env chunk => simp only [DcEv.mute, DFileConn.onEvent, dcRead, dcHandle_mute]
    | _ => rfl
  have henabled : e.mute.enabled c = e.enabled c := by cases e <;> rfl
  rw [DFileConn.step, DFileConn.step, hevent, henabled]

theorem DcEv.mute_dispatches (c : DFileConn) {e : DcEv} {d : DFileConn × DcEnv × Bytes}
    (hd : d ∈ e.mute.dispatches c) : ∃ env, (d.1, env, d.2.2) ∈ e.dispatches c := by
  cases e with
  | read env chunk =>
      simp only [DcEv.mute, DcEv.dispatches, dcDispatched, dcHandle_mute] at hd ⊢
      obtain ⟨d', hd', rfl⟩ := List.mem_map.mp hd
      exact ⟨env, List.mem_map.mpr ⟨d', hd', rfl⟩⟩
  | _ => cases hd

/-! ## What is not a data frame -/

/-- A piece of a frame of another type carries no block. -/
theorem PieceOf.no_data {type : DFileFrameType} {w : Bytes} (h : PieceOf type w)
    (hne : type ≠ .fileData) : dfileDecodeData w = none := by
  rcases hp : framePayload w .fileData with _ | ⟨hd, p⟩
  · rw [dfileDecodeData, hp]
    rfl
  · refine absurd (h.type_eq ?_) hne
    rw [framePayload_bytes hp]
    rfl

/-- A frame that is cut off carries no block. -/
theorem no_data_of_cut {flag : UInt8} {transId : UInt16} {p w : Bytes} (hp : Carried p)
    (hpre : w <+: frame .fileData flag transId p) (hcut : w ≠ frame .fileData flag transId p) :
    dfileDecodeData w = none := by
  obtain ⟨more, hmore⟩ := hpre
  rcases hw : framePayload w .fileData with _ | ⟨hd, q⟩
  · rw [dfileDecodeData, hw]
    rfl
  · -- the header gives the length of the whole frame
    obtain ⟨hlen, -⟩ := framePayload_length hw
    obtain ⟨hunpack, -⟩ := framePayload_some hw
    have hlong : dfileFrameHeaderLen ≤ w.length := by rw [hlen]; exact Nat.le_add_right _ _
    have hwhole := dfileFrameHeaderUnpack_append hlong more
    rw [hmore, dfileFrameHeaderUnpack_single _ _ _ hp, hunpack] at hwhole
    have hlength : w.length = (frame .fileData flag transId p).length := by
      rw [hlen, ← DFileUnpack.ok.inj hwhole, frame_length, hp.toNat]
    have hnil : more.length = 0 := by
      have hsum := congrArg List.length hmore
      rw [List.length_append] at hsum
      omega
    rw [List.length_eq_zero_iff.mp hnil, List.append_nil] at hmore
    exact absurd hmore hcut

/-- The loop does not fail once it has written everything. -/
theorem dcSendLoop_whole (s : DcSocket) : ∀ f : Bytes,
    (dcSendLoop s f).1 = f → (dcSendLoop s f).2 = .sent := by
  induction s with
  | accept n next ih =>
      intro f h
      cases f with
      | nil => rfl
      | cons b bs =>
          refine ih (bs.drop n) ?_
          have htail : bs.take n ++ (dcSendLoop next (bs.drop n)).1 = bs := (List.cons.inj h).2
          conv_rhs at htail => rw [← List.take_append_drop n bs]
          exact List.append_cancel_left htail
  | wouldBlock next ih =>
      intro f h
      cases f with
      | nil => rfl
      | cons b bs => exact ih (b :: bs) h
  | interrupted =>
      intro f h
      cases f with
      | nil => rfl
      | cons b bs => cases h
  | error message =>
      intro f h
      cases f with
      | nil => rfl
      | cons b bs => cases h

/-- What a failed `dc_send` of a data frame writes carries no block. -/
theorem dcSend_failed {env : DcEnv} {c : DFileConn} {cap : ℕ} {transId : UInt16} {flag : UInt8}
    {fileId : UInt16} {seq : UInt32} {block f : Bytes}
    (hf : dfileEncodeData cap transId flag fileId seq block = some f)
    (hfail : (dcSend env c f).2 = false) : ∀ w ∈ (dcWrite env c f).1, dfileDecodeData w = none := by
  obtain ⟨rfl, hcarried⟩ := dfileEncodeData_frame hf
  intro w hw
  refine no_data_of_cut hcarried (dcWrite_front hw) ?_
  rintro rfl
  have hnot : (dcWrite env c _).2 ≠ .sent := of_decide_eq_false hfail
  unfold dcWrite at hw hnot
  split at hw
  · cases hw
  · rename_i hlive
    rw [if_neg hlive] at hnot
    exact hnot (dcSendLoop_whole _ _ (List.mem_singleton.mp hw).symm)

/-! ## Steps -/

/-- A file as `send_files` opens it. -/
structure TxFresh (blockSize : ℕ) (f : DCFile) : Prop where
  total : f.totalBlocks = dcTotalBlocks f.size blockSize
  nextSeq : f.nextSeq = 0
  retrans : f.retrans = []
  lastAcked : f.lastAcked = none
  complete : f.ackedAll = true → f.totalBlocks = 0

/-- The transfer with the same blocks; a file may be confirmed. -/
structure SameBlocks (t t' : DCTrans) : Prop where
  transId : t'.transId = t.transId
  ids : (t'.files.map fun f => f.fileId) = t.files.map fun f => f.fileId
  files : ∀ f ∈ t'.files, ∃ f₀ ∈ t.files, f = f₀ ∨ f = { f₀ with confirmed := true }
  phase : t'.phase = .idle → t.phase = .idle

theorem SameBlocks.refl (t : DCTrans) : SameBlocks t t :=
  ⟨rfl, rfl, fun f hf => ⟨f, hf, Or.inl rfl⟩, id⟩

theorem sameBlocks_rel (o : Option DCTrans) : Option.Rel SameBlocks o o := by
  cases o with
  | none => exact .none
  | some t => exact .some (.refl t)

theorem TxKeeps.sameBlocks {t t' : DCTrans} (h : TxKeeps t t') : SameBlocks t t' where
  transId := h.transId
  ids := by rw [h.files]
  files f hf := ⟨f, h.files ▸ hf, Or.inl rfl⟩
  phase hidle := by_contra fun hphase => h.phase_ne_idle hphase hidle

theorem CtrlOf.sameBlocks {type : DFileFrameType} {ids : List UInt16} {t t' : DCTrans}
    (h : CtrlOf type ids t t') : SameBlocks t t' where
  transId := h.transId
  ids := by
    have hids := congrArg (List.map fun e => e.fileId) h.entries
    rwa [List.map_map, List.map_map] at hids
  files f hf := by
    obtain ⟨f₀, hf₀, hsame⟩ := h.files f hf
    exact ⟨f₀, hf₀, hsame.imp_right And.left⟩
  phase hidle := by
    rcases h.phase with hp | ⟨hp, -⟩
    · rw [← hp, hidle]
    · rw [hp] at hidle
      cases hidle

/-- Every entry is for a block that has been sent, if it is for a file of the transfer. -/
def AckedSent (t : DCTrans) (es : List DFileAckEntry) : Prop :=
  ∀ e ∈ es, e.lastSeq.toNat ≠ 2 ^ 32 - 1 →
    ∀ f ∈ t.files, f.fileId = e.fileId → e.lastSeq.toNat < f.nextSeq

/-- What a step does to the blocks, with the frames it writes. -/
inductive BlockChange (c c' : DFileConn) : Prop
  | quiet (ws : List Bytes) :
      c'.out = c.out ++ ws → (∀ w ∈ ws, dfileDecodeData w = none) →
      Option.Rel SameBlocks c.tx c'.tx → BlockChange c c'
  | dropped {t : DCTrans} :
      c.tx = some t → t.phase = .idle → c'.out = c.out → c'.tx = none → BlockChange c c'
  | begun {t : DCTrans} (ws : List Bytes) :
      c.tx = none → c.negotiated = true → c'.out = c.out ++ ws →
      (∀ w ∈ ws, dfileDecodeData w = none) → c'.tx = some t →
      (∀ f ∈ t.files, TxFresh c.blockSize f) → (t.files.map fun f => f.fileId).Nodup →
      BlockChange c c'
  | newBlock {t : DCTrans} {pre post : List DCFile} {file : DCFile} {block w : Bytes} :
      c.tx = some t → t.phase ≠ .idle → t.files = pre ++ file :: post →
      file.nextSeq < file.totalBlocks →
      dfileDecodeData w =
        some ⟨t.transId, txBlockFlag file, file.fileId, UInt32.ofNat file.nextSeq, block⟩ →
      c'.out = c.out ++ [w] →
      c'.tx = some { t with
        files := pre ++ { file with
          retrans := file.retrans ++ [file.nextSeq], nextSeq := file.nextSeq + 1 } :: post } →
      BlockChange c c'
  | retran {t : DCTrans} {pre post : List DCFile} {file : DCFile} {seq : ℕ} {retrans : List ℕ}
      {block w : Bytes} (lastRetranMs : UInt64) :
      c.tx = some t → t.phase ≠ .idle → t.files = pre ++ file :: post →
      file.retrans = seq :: retrans →
      dfileDecodeData w = some ⟨t.transId, dfileFlagDataRetran ||| dfileFlagDataContinue,
        file.fileId, UInt32.ofNat seq, block⟩ →
      c'.out = c.out ++ [w] →
      c'.tx = some { t with
        files := pre ++ { file with retrans := retrans } :: post, lastRetranMs := lastRetranMs } →
      BlockChange c c'
  | ack {t : DCTrans} {es : List DFileAckEntry} :
      c.tx = some t → t.phase ≠ .idle → AckedSent t es → c'.out = c.out →
      c'.tx = some { t with files := es.foldl ackEntry t.files } → BlockChange c c'

theorem BlockChange.silent {c c' : DFileConn} (hout : c'.out = c.out)
    (htx : Option.Rel SameBlocks c.tx c'.tx) : BlockChange c c' :=
  .quiet [] (by rw [hout, List.append_nil]) (fun _ hw => absurd hw List.not_mem_nil) htx

/-- A step; the block size does not change once it is chosen. -/
structure BlockStep (c c' : DFileConn) : Prop where
  change : BlockChange c c'
  blockSize : c.negotiated = true → c'.blockSize = c.blockSize ∧ c'.negotiated = true

theorem idle_ne_of_active {phase : DCPhase} (h : phase = .txSending ∨ phase = .txWaitDone) :
    phase ≠ .idle := by
  rcases h with rfl | rfl <;> decide

section
variable {sha256Hex : Bytes → Bytes} {env : DcEnv} {fr : Option Bytes} {c c' : DFileConn}

theorem not_blockFrame_mute {t : DCTrans} {file : DCFile} {seq : ℕ} {f : Bytes} :
    ¬ IsBlockFrame env.mute c t file seq f := by
  rintro ⟨flag, block, hread, -⟩
  cases hread

/-- Where nothing can be read, the blocks stay as they are. -/
theorem DcTxMove.change (h : DcTxMove env.mute c c') : BlockChange c c' := by
  cases h with
  | kept ws es hout hws _ _ htx =>
      refine .quiet ws hout (fun w hw => ?_) ?_
      · obtain ⟨type, hne, hpiece⟩ := hws w hw
        exact hpiece.no_data hne
      · revert htx
        generalize c'.tx = o'
        generalize c.tx = o
        rintro (h | -)
        · exact .some h.sameBlocks
        · exact .none
  | dropped ht hphase hout _ htx => exact .dropped ht hphase hout htx
  | armed ht _ hout _ htx =>
      refine .silent hout ?_
      rw [ht, htx]
      exact .some ⟨rfl, rfl, fun f hf => ⟨f, hf, Or.inl rfl⟩, fun hidle => by cases hidle⟩
  | cut _ _ _ hblock => exact absurd hblock not_blockFrame_mute
  | newBlock _ _ _ _ hblock => exact absurd hblock not_blockFrame_mute
  | retran _ _ _ _ hblock => exact absurd hblock not_blockFrame_mute
  | finish ht _ _ _ _ hframe _ hout _ htx =>
      refine .quiet _ hout (fun w hw => ?_) ?_
      · rw [List.mem_singleton.mp hw]
        exact hframe.pieceOf.no_data (by decide)
      · rw [ht, htx]
        exact .some ⟨rfl, rfl, fun f hf => ⟨f, hf, Or.inl rfl⟩, fun hidle => by cases hidle⟩

/-- Moves that neither pump nor start a transfer. -/
theorem DcMoves.blockSteps (hfr : ∀ f, fr = some f → NotForTx f) (hbase : DcBase c)
    (hm : DcMoves sha256Hex env.mute True fr c c') :
    DcBase c' ∧ ReflTransGen BlockStep c c' := by
  induction hm with
  | refl => exact ⟨hbase, .refl⟩
  | tail _ hlast ih =>
      refine ⟨hlast.base ih.1, ih.2.tail ⟨?_, hlast.blockSize_kept⟩⟩
      exact (hlast.tx_move ih.1 (fun _ => rfl) hfr).change

/-- **One block of a pump.** -/
theorem TxPumpMove.blockStep (h : TxPumpMove env c c') : BlockStep c c' := by
  have hmove : DcMove id env True none c c' := h.move
  refine ⟨?_, hmove.blockSize_kept⟩
  cases h with
  | @newBlock t pre post file block f htx hphase hfiles hmore _ hf hok =>
      refine .newBlock htx (idle_ne_of_active hphase) hfiles hmore (dfileDecodeData_encode hf)
        ?_ rfl
      show (dcSend env c f).1.out = _
      rw [(dcSend_sent hok).2]
  | @retran t pre post file seq retrans block f htx hphase hfiles hretrans _ hf hok =>
      refine .retran env.now htx (idle_ne_of_active hphase) hfiles hretrans
        (dfileDecodeData_encode hf) ?_ rfl
      show (dcSend env c f).1.out = _
      rw [(dcSend_sent hok).2]
  | cut _ _ _ _ hf hfail => exact .quiet _ rfl (dcSend_failed hf hfail) (sameBlocks_rel _)

/-! ## Starting a transfer -/

theorem txOpenFiles_fresh {blockSize i : ℕ} {items : List DFileSendItem} {files : List DCFile}
    (h : txOpenFiles env blockSize i items = .ok files) : ∀ f ∈ files, TxFresh blockSize f := by
  intro f hf
  obtain ⟨j, item, -, hj⟩ := txOpenFiles_mem items h f hf
  obtain ⟨htotal, hacked, hnext, hlast, hretrans, -⟩ := txOpenFile_spec hj
  refine ⟨htotal, hnext, hretrans, hlast, fun hall => ?_⟩
  rw [hacked, ← htotal] at hall
  exact of_decide_eq_true hall

/-- **`send_files`** begins a transfer, of which a header that breaks off may leave nothing. -/
theorem sendFilesImpl_blockStep (hbase : DcBase c) (items : List DFileSendItem) :
    BlockStep c (sendFilesImpl env items c).1 := by
  have hsame : ∀ nextTransId crash,
      BlockStep c { c with nextTransId := nextTransId, crash := crash } := fun _ _ =>
    ⟨.silent rfl (sameBlocks_rel _), fun hset => ⟨rfl, hset⟩⟩
  unfold sendFilesImpl
  split
  · exact hsame c.nextTransId c.crash
  rename_i hready
  split
  · exact hsame c.nextTransId c.crash
  rename_i hfree
  split
  · exact hsame c.nextTransId c.crash
  rename_i hcount
  have htx : c.tx = none := by simpa using hfree
  have hset := hbase.ready (not_not.mp hready)
  simp only
  split
  · exact hsame (c.nextTransId + 1) c.crash
  · exact hsame (c.nextTransId + 1) (some .divideByZero)
  rename_i files hopen
  set t := { transNew true c.nextTransId env.now with files := files } with ht
  set c₁ := { c with nextTransId := c.nextTransId + 1, tx := some t } with hc₁
  have hfresh : ∀ f ∈ t.files, TxFresh c.blockSize f := txOpenFiles_fresh hopen
  have hids : (t.files.map fun f => f.fileId).Nodup := by
    show (files.map fun f => f.fileId).Nodup
    rw [txOpenFiles_ids items hopen]
    exact nodup_ids (by omega)
  have hno : ∀ {ws : List Bytes}, (∀ w ∈ ws, PieceOf .fileHeader w) →
      ∀ w ∈ ws, dfileDecodeData w = none := fun hall w hw => (hall w hw).no_data (by decide)
  rcases txSendHeaderFrom_spec env t.transId (t.files.map DCFile.headerEntry) t.files.length 0
    c₁ with ⟨hok, frames, -, hout, hall⟩ | ⟨hok, ws, crash, hout, hall⟩
  · have hr : txSendHeader env t c₁ = ({ c₁ with out := c₁.out ++ frames }, true) :=
      Prod.ext hout hok
    rw [hr]
    refine ⟨?_, fun hset => ⟨rfl, hset⟩⟩
    exact .begun (t := { t with phase := .txWaitConfirmReq }) frames htx hset rfl
      (hno fun f hf => (hall f hf).pieceOf) rfl hfresh hids
  · have hr : txSendHeader env t c₁ =
        ({ c₁ with out := c₁.out ++ ws, crash := crash }, false) := Prod.ext hout hok
    rw [hr]
    simp only [DFileConn.andThen]
    cases crash with
    | none =>
        refine ⟨.quiet ws rfl (hno hall) ?_, fun hset => ⟨rfl, hset⟩⟩
        rw [htx]
        exact .none
    | some k => exact ⟨.begun ws htx hset rfl (hno hall) rfl hfresh hids, fun hset => ⟨rfl, hset⟩⟩

/-! ## One frame -/

/-- An ACK that is handled, with an entry for a block of the transfer that has not been sent. -/
def ackUnsent (c : DFileConn) (frame : Bytes) : Bool :=
  c.tx.any fun t =>
    decide (t.phase = .txSending ∨ t.phase = .txWaitDone) &&
      (dfileDecodeAck frame).any fun a =>
        decide (a.transId = t.transId) &&
          a.entries.any fun e =>
            decide (e.lastSeq.toNat ≠ 2 ^ 32 - 1) &&
              t.files.any fun f =>
                decide (f.fileId = e.fileId ∧ f.nextSeq ≤ e.lastSeq.toNat)

theorem ackedSent_of_not_ackUnsent {frame : Bytes} {t : DCTrans} {a : DFileAck}
    (hok : ackUnsent c frame = false) (htx : c.tx = some t)
    (hphase : t.phase = .txSending ∨ t.phase = .txWaitDone)
    (ha : dfileDecodeAck frame = some a) (hid : a.transId = t.transId) :
    AckedSent t a.entries := by
  intro e he hseq f hf hfile
  by_contra hle
  have hunsent : ackUnsent c frame = true := by
    simp only [ackUnsent, htx, ha, Option.any_some, Bool.and_eq_true, decide_eq_true_eq,
      List.any_eq_true]
    exact ⟨hphase, hid, e, he, hseq, f, hf, hfile, Nat.le_of_not_lt hle⟩
  rw [hok] at hunsent
  cases hunsent

/-- **The dispatch of a frame.** -/
theorem handleFrame_blockSteps {frame : Bytes} (hbase : DcBase c) (hidle : c.Unopened)
    (hopen : c.stopped = false) (hok : ackUnsent c frame = false) :
    DcBase (handleFrame env frame c) ∧ ReflTransGen BlockStep c (handleFrame env frame c) := by
  have hquiet : ∀ f : Bytes, (none : Option Bytes) = some f → NotForTx f := fun f hf => by cases hf
  rw [← handleFrame_mute]
  rcases @handleFrame_tx id env.mute frame c hidle (DFileConn.stopped_eq_false hopen).2 with
    ⟨hfr, hm⟩ | ⟨htx, hphase, htype, hl, hid, heq⟩ | ⟨htx, hphase, ha, hid, hm⟩ |
    @⟨t, l, htx, hfailed, hdone, hl, hid, hm⟩
  · exact hm.blockSteps hfr hbase
  · have hctrl : DcMove id env.mute True (some frame) c _ := .ctrl rfl htx hphase htype hl hid
    rw [heq]
    refine ⟨hctrl.base hbase, .single ⟨.silent rfl ?_, hctrl.blockSize_kept⟩⟩
    rw [htx]
    exact .some (txCtrlUpdate_of _ _ _ _).sameBlocks
  · have hack : DcMove id env.mute True (some frame) c _ := .ack rfl htx hphase ha hid
    have hsent := ackedSent_of_not_ackUnsent hok htx hphase ha hid
    obtain ⟨hbase', hrest⟩ := hm.blockSteps hquiet (hack.base hbase)
    refine ⟨hbase', ReflTransGen.trans (.single ⟨?_, hack.blockSize_kept⟩) hrest⟩
    exact .ack htx (idle_ne_of_active hphase) hsent rfl rfl
  · have hdone' : DcMove id env.mute True (some frame) c _ :=
      .doneReceived rfl htx hfailed hdone hl hid
    obtain ⟨hbase', hrest⟩ := hm.blockSteps hquiet (hdone'.base hbase)
    refine ⟨hbase', ReflTransGen.trans (.single ⟨?_, hdone'.blockSize_kept⟩) hrest⟩
    refine .silent rfl ?_
    rw [htx]
    refine .some ⟨rfl, rfl, fun f hf => ⟨f, hf, Or.inl rfl⟩, fun hidle => ?_⟩
    by_cases hsending : t.phase = .txSending
    · have hphase := (if_pos hsending).symm.trans hidle
      cases hphase
    · exact (if_neg hsending).symm.trans hidle

/-! ## One event -/

theorem DcMoves.quiet (hbase : DcBase c) (hm : DcMoves sha256Hex env.mute True none c c') :
    DcBase c' ∧ ReflTransGen BlockStep c c' :=
  hm.blockSteps (fun _ hf => by cases hf) hbase

theorem DFileConn.whileOpen_blockSteps {c₁ : DFileConn} {k : DFileConn → DFileConn}
    (h : DcBase c₁ ∧ ReflTransGen BlockStep c c₁)
    (hk : c₁.stopped = false → DcBase (k c₁) ∧ ReflTransGen BlockStep c₁ (k c₁)) :
    DcBase (c₁.whileOpen k) ∧ ReflTransGen BlockStep c (c₁.whileOpen k) := by
  unfold DFileConn.whileOpen
  split
  · exact h
  · rename_i hopen
    rw [not_or, Bool.not_eq_true] at hopen
    obtain ⟨hbase, hsteps⟩ := hk (by rw [DFileConn.stopped, hopen.1, decide_eq_false hopen.2]; rfl)
    exact ⟨hbase, h.2.trans hsteps⟩

/-- The pump sends blocks, one after the other. -/
theorem txPump_blockSteps {t : DCTrans} (hbase : DcBase c) (htx : c.tx = some t)
    (hphase : t.phase = .txSending ∨ t.phase = .txWaitDone) :
    DcBase (txPump env c) ∧ ReflTransGen BlockStep c (txPump env c) := by
  obtain ⟨c₁, hblocks, hend⟩ := @txPump_cases env t hphase c htx
  have hmoves : DcMoves id env True none c c₁ := hblocks.lift id fun _ _ h => h.move
  have hsteps : ReflTransGen BlockStep c c₁ := hblocks.lift id fun _ _ h => h.blockStep
  have hbase₁ := hmoves.base hbase
  rcases hend with hend | ⟨why, sendRst, hend⟩
  · rw [hend]
    exact ⟨hbase₁, hsteps⟩
  · rw [hend]
    have hfail : DcMoves id env.mute True none c₁ (c₁.andThen (transFail env true why sendRst)) :=
      DFileConn.andThen_moves .refl fun _ => transFail_moves true why sendRst c₁
    exact ⟨(hfail.quiet hbase₁).1, hsteps.trans (hfail.quiet hbase₁).2⟩

theorem txTick_blockSteps (hbase : DcBase c) :
    DcBase (txTick env c) ∧ ReflTransGen BlockStep c (txTick env c) := by
  unfold txTick
  rcases htx : c.tx with _ | t
  · exact ⟨hbase, .refl⟩
  simp only [Option.any_some, decide_eq_true_eq]
  split
  · rename_i hphase
    refine DFileConn.whileOpen_blockSteps (txPump_blockSteps hbase htx hphase) fun _ => ?_
    have hafter : DcMoves id env.mute True none (txPump env c) (txAfterPump env (txPump env c)) :=
      txAfterPump_moves _
    exact hafter.quiet (txPump_blockSteps hbase htx hphase).1
  · exact ⟨hbase, .refl⟩

/-- **The tick.** Its pump sends blocks, the rest of it none. -/
theorem onTick_blockSteps (hbase : DcBase c) :
    DcBase (onTick sha256Hex env c) ∧ ReflTransGen BlockStep c (onTick sha256Hex env c) := by
  unfold onTick
  split
  · have hclose : DcMoves sha256Hex env.mute True none c
        (shutdownCommon env "setting negotiation timeout" c) := shutdownCommon_moves _ c
    exact hclose.quiet hbase
  have htimeouts : DcMoves sha256Hex env.mute True none c (dcTimeouts env c) :=
    DFileConn.andThen_moves (dcTimeout_moves true c) fun _ => dcTimeout_moves false _
  have hrx := DFileConn.whileOpen_blockSteps (htimeouts.quiet hbase) fun hopen => by
    have hmoves : DcMoves sha256Hex env.mute True none (dcTimeouts env c)
        (rxTick sha256Hex env (dcTimeouts env c)) := rxTick_moves hopen fun _ => trivial
    exact hmoves.quiet (htimeouts.quiet hbase).1
  have htx := DFileConn.whileOpen_blockSteps hrx fun _ => @txTick_blockSteps env _ hrx.1
  refine DFileConn.whileOpen_blockSteps htx fun _ => ?_
  have hretry : ∀ c₁, DcMoves sha256Hex env.mute True none c₁ (txRetryHeader env.mute c₁) :=
    txRetryHeader_moves
  rw [← txRetryHeader_mute]
  exact (hretry _).quiet htx.1

/-- **Every event is a sequence of steps**, if no ACK is for a block that has not been sent. -/
theorem DFileConn.step_blocks {e : DcEv} (hbase : DcBase c) (hsound : c.Sound)
    (hok : ∀ d ∈ e.dispatches c, ackUnsent d.1 d.2.2 = false) (hs : c.step sha256Hex e = some c') :
    (DcBase c' ∧ ReflTransGen BlockStep c c') ∧ c'.Sound := by
  have hsound' : True ∧ c'.Sound :=
    DFileConn.step_keeps (fun _ => True) True (fun _ => True) (fun _ _ _ => trivial) trivial
      hsound trivial (fun _ _ _ => trivial) hs
  have hrest : (∀ env, e ≠ .tick env) → (∀ env items, e ≠ .sendFiles env items) →
      (DcBase c' ∧ ReflTransGen BlockStep c c') ∧ c'.Sound := by
    intro hnotick hnosend
    refine DFileConn.step_keeps_where (fun c₁ => DcBase c₁ ∧ ReflTransGen BlockStep c c₁) True
      (fun env => env.mute = env) (fun _ c₁ frame => ackUnsent c₁ frame = false) ?_ ?_
      ⟨hbase, .refl⟩ hsound ?_ ?_ (fun _ _ _ => trivial)
      ((DFileConn.step_mute sha256Hex c e).trans hs)
    · intro env c₁ c₂ hmute hc hm
      rw [← hmute] at hm
      exact ⟨(hm.moves.quiet hc.1).1, hc.2.trans (hm.moves.quiet hc.1).2⟩
    · intro env c₁ frame _ hc hidle hopen hframe
      obtain ⟨hbase₁, hsteps⟩ := handleFrame_blockSteps hc.1 hidle hopen hframe
      exact ⟨hbase₁, hc.2.trans hsteps⟩
    · cases e with
      | tick env => exact absurd rfl (hnotick env)
      | sendFiles env items => exact absurd rfl (hnosend env items)
      | _ => rfl
    · intro d hd
      obtain ⟨env, hd'⟩ := DcEv.mute_dispatches c hd
      exact hok (d.1, env, d.2.2) hd'
  have henabled : c' = c.onEvent sha256Hex e := by
    unfold DFileConn.step at hs
    split at hs
    · exact (Option.some.inj hs).symm
    · cases hs
  cases e with
  | tick env =>
      rw [henabled]
      exact ⟨onTick_blockSteps hbase, henabled ▸ hsound'.2⟩
  | sendFiles env items =>
      have hmoves : DcMoves sha256Hex env True none c (sendFilesImpl env items c).1 :=
        sendFilesImpl_moves items c
      rw [henabled]
      exact ⟨⟨hmoves.base hbase, .single (sendFilesImpl_blockStep hbase items)⟩,
        henabled ▸ hsound'.2⟩
  | _ => exact hrest (fun env he => by cases he) fun env items he => by cases he

end

end HwPhoneLink.DFile
