import HwPhoneLink.DFile.Ended

/-!
# What happens to a sending transfer

Only `send_files` starts a transfer, since nothing else opens a file for reading. After
that the transfer changes by three kinds of frame from the peer and by moves that handle
none of them. `DFileConn.run_keeps_tx` is the invariant rule for this; the invariant may
speak of the frames that have been dispatched.
-/

namespace HwPhoneLink.DFile

open BigEndian Path Framing Transitions HwPhoneLink.Testfile

/-! ## No file is opened -/

/-- The same surroundings, but no file can be opened for reading. -/
def DcEnv.shut (env : DcEnv) : DcEnv := { env with openRead := fun _ => false }

section
variable (env : DcEnv)

theorem rxOpenFiles_shut (dir : Bytes) (blockSize : ℕ) (hes : List DFileHeaderEntry) :
    ∀ opened files, rxOpenFiles env.shut dir blockSize opened files hes =
      rxOpenFiles env dir blockSize opened files hes := by
  induction hes with
  | nil => intro opened files; rfl
  | cons he hes ih =>
      intro opened files
      simp only [rxOpenFiles, ih]
      rfl

theorem txSendHeaderFrom_shut (transId : UInt16) (ents : List DFileHeaderEntry) (fuel : ℕ) :
    ∀ start c, txSendHeaderFrom env.shut transId ents fuel start c =
      txSendHeaderFrom env transId ents fuel start c := by
  induction fuel with
  | zero => intro start c; rfl
  | succ fuel ih =>
      intro start c
      simp only [txSendHeaderFrom, ih]
      rfl

theorem txPumpNew_shut (transId : UInt16) (fuel : ℕ) :
    ∀ p f, txPumpNew env.shut transId fuel p f = txPumpNew env transId fuel p f := by
  induction fuel with
  | zero => intro p f; rfl
  | succ fuel ih =>
      intro p f
      simp only [txPumpNew, ih]
      rfl

theorem txPumpFile_shut (transId : UInt16) (p : TxPump) (f : DCFile) :
    txPumpFile env.shut transId p f = txPumpFile env transId p f := by
  simp only [txPumpFile, txPumpNew_shut]
  rfl

theorem txPumpFiles_shut (transId : UInt16) (fs : List DCFile) :
    ∀ p, txPumpFiles env.shut transId p fs = txPumpFiles env transId p fs := by
  induction fs with
  | nil => intro p; rfl
  | cons f fs ih =>
      intro p
      simp only [txPumpFiles, txPumpFile_shut, ih]

theorem handleFileHeader_shut (frame : Bytes) (c : DFileConn) :
    handleFileHeader env.shut frame c = handleFileHeader env frame c := by
  have hcomplete : rxHeaderComplete env.shut = rxHeaderComplete env := by
    funext c
    simp only [rxHeaderComplete, rxOpenFiles_shut]
    rfl
  simp only [handleFileHeader, rxAddHeader, hcomplete]
  rfl

theorem handleFrame_shut : handleFrame env.shut = handleFrame env := by
  funext frame c
  simp only [handleFrame, handleFileHeader_shut]
  rfl

theorem onTick_shut (sha256Hex : Bytes → Bytes) : onTick sha256Hex env.shut = onTick sha256Hex env := by
  have hpump : txPump env.shut = txPump env := by
    funext c
    simp only [txPump, txPumpFiles_shut]
    rfl
  have hretry : txRetryHeader env.shut = txRetryHeader env := by
    funext c
    simp only [txRetryHeader, txSendHeader, txSendHeaderFrom_shut]
    rfl
  have htick : txTick env.shut = txTick env := by
    funext c
    simp only [txTick, hpump]
    rfl
  funext c
  simp only [onTick, htick, hretry]
  rfl

theorem dcHandle_shut : dcHandle env.shut = dcHandle env := by
  funext c buf
  simp only [dcHandle, handleFrame_shut]
  rfl

end

/-- The event with the same answers, but no file to read. -/
def DcEv.shut : DcEv → DcEv
  | .start env => .start env.shut
  | .read env chunk => .read env.shut chunk
  | .eof env => .eof env.shut
  | .socketError env message => .socketError env.shut message
  | .tick env => .tick env.shut
  | .sendFiles env items => .sendFiles env items
  | .close env => .close env.shut

theorem DFileConn.step_shut (sha256Hex : Bytes → Bytes) (c : DFileConn) (e : DcEv) :
    c.step sha256Hex e.shut = c.step sha256Hex e := by
  have hevent : c.onEvent sha256Hex e.shut = c.onEvent sha256Hex e := by
    cases e with
    | read env chunk =>
        simp only [DcEv.shut, DFileConn.onEvent, dcRead, dcHandle_shut]
    | tick env => simp only [DcEv.shut, DFileConn.onEvent, onTick_shut]
    | _ => rfl
  have henabled : e.shut.enabled c = e.enabled c := by cases e <;> rfl
  rw [DFileConn.step, DFileConn.step, hevent, henabled]

theorem DcEv.shut_dispatches (c : DFileConn) {e : DcEv} {d : DFileConn × DcEnv × Bytes}
    (hd : d ∈ e.shut.dispatches c) : ∃ env, (d.1, env, d.2.2) ∈ e.dispatches c := by
  cases e with
  | read env chunk =>
      simp only [DcEv.shut, DcEv.dispatches, dcDispatched, dcHandle_shut] at hd ⊢
      obtain ⟨d', hd', rfl⟩ := List.mem_map.mp hd
      exact ⟨env, List.mem_map.mpr ⟨d', hd', rfl⟩⟩
  | _ => cases hd

/-- Without a file to read, nothing is opened. -/
theorem txOpenFiles_shut {env : DcEnv} (hshut : ∀ p, env.openRead p = false) {blockSize i : ℕ}
    {items : List DFileSendItem} {files : List DCFile} (hne : items.length ≠ 0) :
    txOpenFiles env blockSize i items ≠ .ok files := by
  cases items with
  | nil => exact absurd rfl hne
  | cons item items =>
      rw [txOpenFiles, txOpenFile, hshut item.path]
      simp

/-- An entry of two lists in a row is in the first or in the second. -/
theorem split_append {α : Type} {as bs pre post : List α} {x : α}
    (h : as ++ bs = pre ++ x :: post) :
    (∃ post', as = pre ++ x :: post') ∨ ∃ mid, pre = as ++ mid ∧ bs = mid ++ x :: post := by
  rcases List.append_eq_append_iff.mp h with ⟨mid, rfl, hbs⟩ | ⟨mid, rfl, hpost⟩
  · exact Or.inr ⟨mid, rfl, hbs⟩
  · cases mid with
    | nil => exact Or.inr ⟨[], by simp, by simpa using hpost.symm⟩
    | cons y mid =>
        obtain ⟨rfl, -⟩ := List.cons.inj hpost
        exact Or.inl ⟨mid, rfl⟩

/-! ## Starting a transfer -/

/-- The frames of the header loop from entry `start` on. -/
def txHeaderFramesFrom (transId : UInt16) (ents : List DFileHeaderEntry) :
    ℕ → ℕ → Option (List Bytes)
  | 0, _ => some []
  | fuel + 1, start =>
      if start < ents.length then
        match dfileEncodeFileHeader (dfileFrameMaxSize + 16) transId
            (UInt16.ofNat ents.length) ents start (ents.length - start) with
        | none => none
        | some (frame, written) =>
            (txHeaderFramesFrom transId ents fuel (start + written)).map (frame :: ·)
      else some []

/-- The frames that announce the files of a transfer. -/
def txHeaderFrames (t : DCTrans) : Option (List Bytes) :=
  txHeaderFramesFrom t.transId (t.files.map DCFile.headerEntry) t.files.length 0

/-- The header loop writes its frames, or breaks off. -/
theorem txSendHeaderFrom_spec (env : DcEnv) (transId : UInt16) (ents : List DFileHeaderEntry)
    (fuel : ℕ) : ∀ (start : ℕ) (c : DFileConn),
    let r := txSendHeaderFrom env transId ents fuel start c
    (r.2 = true ∧ ∃ frames, txHeaderFramesFrom transId ents fuel start = some frames ∧
        r.1 = { c with out := c.out ++ frames } ∧ ∀ f ∈ frames, IsFrameOf .fileHeader f) ∨
      (r.2 = false ∧ ∃ ws crash, r.1 = { c with out := c.out ++ ws, crash := crash } ∧
        ∀ w ∈ ws, PieceOf .fileHeader w) := by
  induction fuel with
  | zero =>
      intro start c
      refine Or.inl ⟨rfl, [], rfl, ?_, fun f hf => absurd hf List.not_mem_nil⟩
      rw [List.append_nil]
      rfl
  | succ fuel ih =>
      intro start c
      simp only [txSendHeaderFrom, txHeaderFramesFrom]
      split
      · rcases hf : dfileEncodeFileHeader (dfileFrameMaxSize + 16) transId
          (UInt16.ofNat ents.length) ents start (ents.length - start) with _ | ⟨f, written⟩
        · refine Or.inr ⟨rfl, [], c.crash, ?_, fun w hw => absurd hw List.not_mem_nil⟩
          rw [List.append_nil]
        · obtain ⟨hframe, hcarried, -⟩ := dfileEncodeFileHeader_frame (by decide) hf
          have hframe : IsFrameOf .fileHeader f := ⟨_, _, _, hframe, hcarried⟩
          simp only
          rcases hr : dcSend env c f with ⟨c₁, ok⟩
          cases ok
          · refine Or.inr ⟨rfl, (dcWrite env c f).1, c₁.crash, ?_, ?_⟩
            · have hsend : (dcSend env c f).1 = c₁ := by rw [hr]
              rw [← hsend]
              rfl
            · intro w hw
              exact ⟨f, hframe, dcWrite_front hw⟩
          · have hsent : (dcSend env c f).2 = true := by rw [hr]
            have hc₁ : c₁ = { c with out := c.out ++ [f] } := by
              rw [← (dcSend_sent hsent).2, hr]
            rcases ih (start + written) c₁ with ⟨hok, frames, hframes, hout, hall⟩ |
              ⟨hok, ws, crash, hout, hall⟩
            · refine Or.inl ⟨hok, f :: frames, by rw [hframes]; rfl, ?_, ?_⟩
              · refine hout.trans ?_
                rw [hc₁]
                simp only [List.append_assoc, List.singleton_append]
              · intro g hg
                rcases List.mem_cons.mp hg with rfl | hg
                · exact hframe
                · exact hall g hg
            · refine Or.inr ⟨hok, f :: ws, crash, ?_, ?_⟩
              · refine hout.trans ?_
                rw [hc₁]
                simp only [List.append_assoc, List.singleton_append]
              · intro w hw
                rcases List.mem_cons.mp hw with rfl | hw
                · exact hframe.pieceOf
                · exact hall w hw
      · refine Or.inl ⟨rfl, [], rfl, ?_, fun f hf => absurd hf List.not_mem_nil⟩
        rw [List.append_nil]

/-- What `send_files` does: nothing but counting, a header that breaks off, or a transfer
that waits for confirm and request. -/
inductive DcStarts (env : DcEnv) (items : List DFileSendItem) (c c' : DFileConn) : Prop
  | refused (nextTransId : UInt16) (crash : Option DcCrash) :
      c' = { c with nextTransId := nextTransId, crash := crash } → DcStarts env items c c'
  | broken (nextTransId : UInt16) (ws : List Bytes) (tx : Option DCTrans)
      (crash : Option DcCrash) :
      c' = { c with nextTransId := nextTransId, out := c.out ++ ws, tx := tx, crash := crash } →
      (∀ w ∈ ws, PieceOf .fileHeader w) → c.state = .ready → c.tx = none →
      (crash = none → tx = none) → DcStarts env items c c'
  | started (files : List DCFile) (frames : List Bytes) (t : DCTrans) :
      c.state = .ready → c.tx = none → items.length ≠ 0 → items.length ≤ dfileMaxFileNum →
      txOpenFiles env c.blockSize 0 items = .ok files →
      t = { transNew true c.nextTransId env.now with files := files, phase := .txWaitConfirmReq } →
      txHeaderFrames t = some frames → (∀ f ∈ frames, IsFrameOf .fileHeader f) →
      c' = { c with
        nextTransId := c.nextTransId + 1, out := c.out ++ frames, tx := some t } →
      DcStarts env items c c'

theorem sendFilesImpl_starts (env : DcEnv) (items : List DFileSendItem) (c : DFileConn) :
    DcStarts env items c (sendFilesImpl env items c).1 := by
  unfold sendFilesImpl
  split
  · exact .refused c.nextTransId c.crash rfl
  rename_i hready
  split
  · exact .refused c.nextTransId c.crash rfl
  rename_i hfree
  split
  · exact .refused c.nextTransId c.crash rfl
  rename_i hcount
  have htx : c.tx = none := by simpa using hfree
  have hbounds : items.length ≠ 0 ∧ items.length ≤ dfileMaxFileNum := by omega
  simp only
  split
  · exact .refused (c.nextTransId + 1) c.crash rfl
  · exact .refused (c.nextTransId + 1) (some .divideByZero) rfl
  · rename_i files hopen
    set t := { transNew true c.nextTransId env.now with files := files } with ht
    set c₁ := { c with nextTransId := c.nextTransId + 1, tx := some t } with hc₁
    rcases txSendHeaderFrom_spec env t.transId (t.files.map DCFile.headerEntry) t.files.length 0
      c₁ with ⟨hok, frames, hframes, hout, hall⟩ | ⟨hok, ws, crash, hout, hall⟩
    · have hr : txSendHeader env t c₁ = ({ c₁ with out := c₁.out ++ frames }, true) :=
        Prod.ext hout hok
      rw [hr]
      exact .started files frames { t with phase := .txWaitConfirmReq } (not_not.mp hready) htx
        hbounds.1 hbounds.2 hopen rfl hframes hall rfl
    · have hr : txSendHeader env t c₁ =
          ({ c₁ with out := c₁.out ++ ws, crash := crash }, false) := Prod.ext hout hok
      rw [hr]
      simp only [DFileConn.andThen]
      cases crash with
      | none =>
          exact .broken (c.nextTransId + 1) ws none none rfl hall (not_not.mp hready) htx
            fun _ => rfl
      | some k =>
          exact .broken (c.nextTransId + 1) ws (some t) (some k) rfl hall (not_not.mp hready) htx
            fun h => by cases h

/-! ## Frames for the sender -/

/-- The frame is none of those that change a sending transfer. -/
structure NotForTx (frame : Bytes) : Prop where
  ack : dfileDecodeAck frame = none
  idlist : ∀ type, type = .fileHeaderConfirm ∨ type = .fileTransferReq ∨ type = .fileTransferDone →
    dfileDecodeIdlist frame type = none

theorem framePayload_ne {frame : Bytes} {h : DFileFrameHeader} {type other : DFileFrameType}
    (hunpack : dfileFrameHeaderUnpack frame = .ok h) (htype : DFileFrameType.ofCode h.type = some type)
    (hne : type ≠ other) : framePayload frame other = none := by
  have hcode : h.type ≠ other.code := by
    intro hcode
    rw [hcode, DFileFrameType.ofCode_code] at htype
    exact hne (Option.some.inj htype).symm
  simp [framePayload, hunpack, hcode]

theorem NotForTx.of_type {frame : Bytes} {h : DFileFrameHeader} {type : DFileFrameType}
    (hunpack : dfileFrameHeaderUnpack frame = .ok h) (htype : DFileFrameType.ofCode h.type = some type)
    (hack : type ≠ .fileDataAck)
    (hids : type ≠ .fileHeaderConfirm ∧ type ≠ .fileTransferReq ∧ type ≠ .fileTransferDone) :
    NotForTx frame := by
  constructor
  · rw [dfileDecodeAck, framePayload_ne hunpack htype hack]
    rfl
  · rintro other (rfl | rfl | rfl)
    · rw [dfileDecodeIdlist, framePayload_ne hunpack htype hids.1]
      rfl
    · rw [dfileDecodeIdlist, framePayload_ne hunpack htype hids.2.1]
      rfl
    · rw [dfileDecodeIdlist, framePayload_ne hunpack htype hids.2.2]
      rfl

/-! ## One move -/

/-- What stays of a transfer when no block goes out and no frame for it comes in. -/
structure TxKeeps (t t' : DCTrans) : Prop where
  transId : t'.transId = t.transId
  files : t'.files = t.files
  reqReceived : t'.reqReceived = t.reqReceived
  allConfirmed : t'.allConfirmed = t.allConfirmed
  doneReceived : t'.doneReceived = t.doneReceived
  phase : t'.phase = t.phase ∨ (t'.phase = .failed ∧ t.phase.terminal = false) ∨
    (t'.phase = .txWaitDone ∧ t.phase = .txSending)

theorem TxKeeps.refl (t : DCTrans) : TxKeeps t t := ⟨rfl, rfl, rfl, rfl, rfl, Or.inl rfl⟩

theorem TxKeeps.phase_ne_idle {t t' : DCTrans} (h : TxKeeps t t') (hphase : t.phase ≠ .idle) :
    t'.phase ≠ .idle := by
  rcases h.phase with hsame | ⟨hend, -⟩ | ⟨hwait, -⟩
  · rw [hsame]
    exact hphase
  · rw [hend]
    decide
  · rw [hwait]
    decide

theorem rel_some_left {α β : Type} {R : α → β → Prop} {o : Option α} {o' : Option β} {a : α}
    (h : Option.Rel R o o') (ho : o = some a) : ∃ b, o' = some b ∧ R a b := by
  cases h with
  | some hab =>
      cases ho
      exact ⟨_, rfl, hab⟩
  | none => cases ho

theorem rel_some_right {α β : Type} {R : α → β → Prop} {o : Option α} {o' : Option β} {b : β}
    (h : Option.Rel R o o') (ho : o' = some b) : ∃ a, o = some a ∧ R a b := by
  cases h with
  | some hab =>
      cases ho
      exact ⟨_, rfl, hab⟩
  | none => cases ho

theorem txKeeps_rel (o : Option DCTrans) : Option.Rel TxKeeps o o := by
  cases o with
  | none => exact .none
  | some t => exact .some (.refl t)

/-- The data frame of block `seq`. -/
def IsBlockFrame (env : DcEnv) (c : DFileConn) (t : DCTrans) (file : DCFile) (seq : ℕ) (f : Bytes) :
    Prop :=
  ∃ flag block, dcReadBlock env c.blockSize file seq = some block ∧
    dfileEncodeData (dfileFrameMaxSize + 16) t.transId flag file.fileId (UInt32.ofNat seq) block =
      some f

/-- A move, for the sender. -/
inductive DcTxMove (env : DcEnv) (c c' : DFileConn) : Prop
  | kept (ws : List Bytes) (es : List (ℕ × DcEvent)) :
      c'.out = c.out ++ ws → (∀ w ∈ ws, ∃ type, type ≠ .fileData ∧ PieceOf type w) →
      c'.events = c.events ++ es → (∀ p ∈ es, ∀ m, p.2 ≠ .result true true m) →
      Option.Rel TxKeeps c.tx c'.tx → DcTxMove env c c'
  | dropped {t : DCTrans} :
      c.tx = some t → t.phase = .idle → c'.out = c.out → c'.events = c.events → c'.tx = none →
      DcTxMove env c c'
  | armed {t : DCTrans} :
      c.tx = some t → t.phase = .idle → c'.out = c.out → c'.events = c.events →
      c'.tx = some { t with phase := .txWaitConfirmReq } → DcTxMove env c c'
  | cut {t : DCTrans} {file : DCFile} {seq : ℕ} {f : Bytes} :
      c.tx = some t → t.phase = .txSending ∨ t.phase = .txWaitDone → file ∈ t.files →
      IsBlockFrame env c t file seq f → c'.out = c.out ++ (dcWrite env c f).1 →
      c'.events = c.events → c'.tx = c.tx → DcTxMove env c c'
  | newBlock {t : DCTrans} {pre post : List DCFile} {file : DCFile} {f : Bytes} :
      c.tx = some t → t.phase = .txSending ∨ t.phase = .txWaitDone →
      t.files = pre ++ file :: post → file.nextSeq < file.totalBlocks →
      IsBlockFrame env c t file file.nextSeq f → c.stopped = false → c'.out = c.out ++ [f] →
      c'.events = c.events →
      c'.tx = some { t with
        files := pre ++ { file with
          retrans := file.retrans ++ [file.nextSeq], nextSeq := file.nextSeq + 1 } :: post } →
      DcTxMove env c c'
  | retran {t : DCTrans} {pre post : List DCFile} {file : DCFile} {seq : ℕ} {retrans : List ℕ}
      {f : Bytes} :
      c.tx = some t → t.phase = .txSending ∨ t.phase = .txWaitDone →
      t.files = pre ++ file :: post → file.retrans = seq :: retrans →
      IsBlockFrame env c t file seq f → c.stopped = false → c'.out = c.out ++ [f] →
      c'.events = c.events →
      c'.tx = some { t with
        files := pre ++ { file with retrans := retrans } :: post, lastRetranMs := env.now } →
      DcTxMove env c c'
  | finish {t : DCTrans} {f : Bytes} {m : String} :
      c.tx = some t → t.phase ≠ .txDone → t.phase ≠ .failed → t.doneReceived = true →
      txAllAcked t = true → IsFrameOf .fileTransferDoneAck f → c.stopped = false →
      c'.out = c.out ++ [f] → c'.events = c.events ++ [(c'.out.length, .result true true m)] →
      c'.tx = some { t with doneackSent := true, phase := .txDone } → DcTxMove env c c'

section
variable {sha256Hex : Bytes → Bytes} {env : DcEnv} {fr : Option Bytes} {c c' : DFileConn}

/-- A move that leaves the transfer alone and reports nothing. -/
theorem DcTxMove.silent (hout : c'.out = c.out) (hevents : c'.events = c.events)
    (htx : Option.Rel TxKeeps c.tx c'.tx) : DcTxMove env c c' := by
  refine .kept [] [] ?_ (fun w hw => absurd hw List.not_mem_nil) ?_
    (fun p hp => absurd hp List.not_mem_nil) htx
  · rw [hout, List.append_nil]
  · rw [hevents, List.append_nil]

/-- A move that hands over a frame of another type. -/
theorem DcTxMove.wrote {type : DFileFrameType} {f : Bytes} (hframe : IsFrameOf type f)
    (hne : type ≠ .fileData) (hout : c'.out = c.out ++ (dcWrite env c f).1)
    (hevents : c'.events = c.events) (htx : Option.Rel TxKeeps c.tx c'.tx) : DcTxMove env c c' := by
  refine .kept _ [] hout (fun w hw => ⟨type, hne, f, hframe, dcWrite_front hw⟩) ?_
    (fun p hp => absurd hp List.not_mem_nil) htx
  rw [hevents, List.append_nil]

/-- A move that reports something, but no delivery. -/
theorem DcTxMove.reported (e : DcEvent) (hout : c'.out = c.out)
    (hevents : c'.events = c.events ++ [(c'.out.length, e)]) (he : ∀ m, e ≠ .result true true m)
    (htx : Option.Rel TxKeeps c.tx c'.tx) : DcTxMove env c c' := by
  refine .kept [] _ ?_ (fun w hw => absurd hw List.not_mem_nil) hevents ?_ htx
  · rw [hout, List.append_nil]
  · rintro p hp m
    rw [List.mem_singleton.mp hp]
    exact he m

theorem DcTxMove.congr {c'' : DFileConn} (h : DcTxMove env c c') (hout : c''.out = c'.out)
    (hevents : c''.events = c'.events) (htx : c''.tx = c'.tx) : DcTxMove env c c'' := by
  rcases h with ⟨ws, es, h₁, hws, h₂, hes, h₃⟩ | ⟨ht, hp, h₁, h₂, h₃⟩ | ⟨ht, hp, h₁, h₂, h₃⟩ |
    ⟨ht, hp, hf, hb, h₁, h₂, h₃⟩ | ⟨ht, hp, hf, hn, hb, hc, h₁, h₂, h₃⟩ |
    ⟨ht, hp, hf, hr, hb, hc, h₁, h₂, h₃⟩ | ⟨ht, hp, hq, hd, ha, hf, hc, h₁, h₂, h₃⟩
  · exact .kept ws es (hout.trans h₁) hws (hevents.trans h₂) hes (htx ▸ h₃)
  · exact .dropped ht hp (hout.trans h₁) (hevents.trans h₂) (htx.trans h₃)
  · exact .armed ht hp (hout.trans h₁) (hevents.trans h₂) (htx.trans h₃)
  · exact .cut ht hp hf hb (hout.trans h₁) (hevents.trans h₂) (htx.trans h₃)
  · exact .newBlock ht hp hf hn hb hc (hout.trans h₁) (hevents.trans h₂) (htx.trans h₃)
  · exact .retran ht hp hf hr hb hc (hout.trans h₁) (hevents.trans h₂) (htx.trans h₃)
  · exact .finish ht hp hq hd ha hf hc (hout.trans h₁) (hevents.trans (hout ▸ h₂)) (htx.trans h₃)

theorem DcSends.tx_move {f : Bytes} (h : DcBase c) (hs : DcSends env True c f) :
    DcTxMove env c (dcSend env c f).1 := by
  cases hs with
  | rst hf =>
      obtain ⟨hframe, hcarried, -⟩ := dfileEncodeRst_frame hf
      exact .wrote ⟨_, _, _, hframe, hcarried⟩ (by decide) rfl rfl (txKeeps_rel _)
  | header _ _ _ hf =>
      obtain ⟨hframe, hcarried, -⟩ := dfileEncodeFileHeader_frame (by decide) hf
      exact .wrote ⟨_, _, _, hframe, hcarried⟩ (by decide) rfl rfl (txKeeps_rel _)
  | @confirm t type f hrx _ hnode htype hf =>
      have hne : (t.hdr.map fun e => e.fileId) ≠ [] := by
        rw [Ne, List.map_eq_nil_iff]
        rintro hnil
        rw [hnil, List.length_nil, Nat.le_zero] at hnode
        exact (h.rx t hrx).node (UInt16.toNat_inj.mp hnode)
      obtain ⟨hframe, hcarried, -⟩ := dfileEncodeIdlist_frame hne hf
      refine .wrote ⟨_, _, _, hframe, hcarried⟩ ?_ rfl rfl (txKeeps_rel _)
      rcases htype with rfl | rfl <;> decide
  | data htx hphase hfile hread hf =>
      exact .cut htx hphase hfile ⟨_, _, hread, hf⟩ rfl rfl rfl
  | @doneack t f htx _ _ _ _ _ hf =>
      have hne : (t.files.map fun f => f.fileId) ≠ [] := by
        rw [Ne, List.map_eq_nil_iff]
        exact (h.tx t htx).files
      obtain ⟨hframe, hcarried, -⟩ := dfileEncodeIdlist_frame hne hf
      exact .wrote ⟨_, _, _, hframe, hcarried⟩ (by decide) rfl rfl (txKeeps_rel _)
  | @done t f _ _ _ hcomplete _ hf =>
      have hne : (t.files.map fun f => f.fileId) ≠ [] := by
        rw [Ne, List.map_eq_nil_iff]
        exact (rxComplete_iff.mp hcomplete).1
      obtain ⟨hframe, hcarried, -⟩ := dfileEncodeIdlist_frame hne hf
      exact .wrote ⟨_, _, _, hframe, hcarried⟩ (by decide) rfl rfl (txKeeps_rel _)

/-- The block size is chosen once. -/
theorem DcMove.blockSize_kept {late : Prop} (hm : DcMove sha256Hex env late fr c c')
    (hset : c.negotiated = true) : c'.blockSize = c.blockSize ∧ c'.negotiated = true := by
  cases hm with
  | fail isSender reason sendRst =>
      rcases transFail_spec env isSender reason sendRst c with hsame |
        ⟨t, w, crash, -, -, -, -, heq⟩
      · rw [hsame]
        exact ⟨rfl, hset⟩
      · rw [heq]
        cases isSender <;> exact ⟨rfl, hset⟩
  | negotiate _ _ hfirst =>
      rw [hset] at hfirst
      cases hfirst
  | _ => exact ⟨rfl, hset⟩

/-- **What a move can do to a sending transfer**, if it starts none and handles no frame
for it. -/
theorem DcMove.tx_move (h : DcBase c) (hshut : ∀ p, env.openRead p = false)
    (hfr : ∀ f, fr = some f → NotForTx f) (hm : DcMove sha256Hex env True fr c c') :
    DcTxMove env c c' := by
  cases hm with
  | send hs => exact hs.tx_move h
  | setting _ hf hsent =>
      obtain ⟨hframe, hcarried⟩ := dfileEncodeSetting_frame hf
      refine .wrote ⟨_, _, _, hframe, hcarried⟩ (by decide) ?_ rfl (txKeeps_rel _)
      rw [(dcWrite_sent hsent).2]
  | settingCut _ _ hf =>
      obtain ⟨hframe, hcarried⟩ := dfileEncodeSetting_frame hf
      exact .wrote ⟨_, _, _, hframe, hcarried⟩ (by decide) rfl rfl (txKeeps_rel _)
  | fail isSender reason sendRst =>
      rcases transFail_spec env isSender reason sendRst c with hsame |
        ⟨t, w, crash, ht, hlive, hw, -, heq⟩
      · rw [hsame]
        exact .silent rfl rfl (txKeeps_rel _)
      · rw [heq]
        refine .kept w (if crash.isSome then []
          else [((c.out ++ w).length, .result isSender false reason)]) rfl ?_ ?_ ?_ ?_
        · intro w' hw'
          rcases hw with rfl | ⟨f, hframe, rfl, -⟩
          · cases hw'
          · exact ⟨.rst, by decide, f, hframe, dcWrite_front hw'⟩
        · split
          · exact (List.append_nil _).symm
          · rfl
        · intro p hp m
          split at hp
          · cases hp
          · rw [List.mem_singleton.mp hp]
            simp
        · cases isSender
          · exact txKeeps_rel _
          · have ht' : c.tx = some t := ht
            rw [ht']
            exact .some ⟨rfl, rfl, rfl, rfl, rfl, Or.inr (Or.inl ⟨rfl, hlive⟩)⟩
  | closed => exact .reported _ rfl rfl (by simp) (txKeeps_rel _)
  | negotiate => exact .reported _ rfl rfl (by simp) (txKeeps_rel _)
  | fileList => exact .reported _ rfl rfl (by simp) (txKeeps_rel _)
  | startTx _ _ hne _ hopen => exact absurd hopen (txOpenFiles_shut hshut hne)
  | dropTx ht hphase => exact .dropped ht hphase rfl rfl rfl
  | armed ht hphase => exact .armed ht hphase rfl rfl rfl
  | retry _ _ ht _ =>
      refine .silent rfl rfl ?_
      rw [ht]
      exact .some ⟨rfl, rfl, rfl, rfl, rfl, Or.inl rfl⟩
  | ctrl hf _ _ htype hl =>
      rw [(hfr _ hf).idlist _ (htype.imp_right Or.inl)] at hl
      cases hl
  | newBlock ht hphase hfiles hmore hread hf hsent =>
      have hwrite := (dcSend_sent hsent).1
      have hout := (dcWrite_sent (of_decide_eq_true hsent)).2
      refine .newBlock ht hphase hfiles hmore ⟨_, _, hread, hf⟩ hwrite ?_ rfl rfl
      show c.out ++ (dcWrite env c _).1 = _
      rw [hout]
  | retran ht hphase hfiles hretrans hread hf hsent =>
      have hwrite := (dcSend_sent hsent).1
      have hout := (dcWrite_sent (of_decide_eq_true hsent)).2
      refine .retran ht hphase hfiles hretrans ⟨_, _, hread, hf⟩ hwrite ?_ rfl rfl
      show c.out ++ (dcWrite env c _).1 = _
      rw [hout]
  | allSent ht hphase =>
      refine .silent rfl rfl ?_
      rw [ht]
      exact .some ⟨rfl, rfl, rfl, rfl, rfl, Or.inr (Or.inr ⟨rfl, hphase⟩)⟩
  | ack hf _ _ ha =>
      rw [(hfr _ hf).ack] at ha
      cases ha
  | doneReceived hf _ _ _ hl =>
      rw [(hfr _ hf).idlist _ (Or.inr (Or.inr rfl))] at hl
      cases hl
  | @finish t f ht _ hdone hfail hreceived hacked hf hsent =>
      have hne : (t.files.map fun f => f.fileId) ≠ [] := by
        rw [Ne, List.map_eq_nil_iff]
        exact (h.tx t ht).files
      obtain ⟨hframe, hcarried, -⟩ := dfileEncodeIdlist_frame hne hf
      have hwrite := (dcSend_sent hsent).1
      have hout := (dcWrite_sent (of_decide_eq_true hsent)).2
      refine .finish ht hdone hfail hreceived hacked ⟨_, _, _, hframe, hcarried⟩ hwrite ?_ rfl rfl
      show c.out ++ (dcWrite env c f).1 = _
      rw [hout]
  | waitData hrx hphase hnode _ hf =>
      exact ((DcSends.confirm hrx hphase hnode (Or.inr rfl) hf).tx_move h).congr rfl rfl rfl
  | flush hrx hphase _ hf =>
      obtain ⟨pad, hframe, hcarried, -⟩ := dfileEncodeAck_frame hf
      exact .wrote ⟨_, _, _, hframe, hcarried⟩ (by decide) rfl rfl (txKeeps_rel _)
  | done hrx hphase hfirst hcomplete hdigest hf =>
      have hs : DcSends env True c _ :=
        .done hrx (Or.inr (Or.inl trivial)) hfirst hcomplete hdigest hf
      exact (hs.tx_move h).congr rfl rfl rfl
  | doneack => exact .reported _ rfl rfl (by simp) (txKeeps_rel _)
  | _ => exact .silent rfl rfl (txKeeps_rel _)

end

/-! ## Confirm and request -/

theorem updateFile_mem {fileId : UInt16} {g : DCFile → DCFile} {files : List DCFile} {f : DCFile}
    (hf : f ∈ updateFile fileId g files) :
    f ∈ files ∨ ∃ f₀ ∈ files, f₀.fileId = fileId ∧ f = g f₀ := by
  induction files with
  | nil => cases hf
  | cons f₁ fs ih =>
      rw [updateFile] at hf
      split at hf
      · rename_i hid
        rcases List.mem_cons.mp hf with rfl | hf
        · exact Or.inr ⟨f₁, List.mem_cons_self, hid, rfl⟩
        · exact Or.inl (List.mem_cons_of_mem f₁ hf)
      · rcases List.mem_cons.mp hf with rfl | hf
        · exact Or.inl List.mem_cons_self
        · rcases ih hf with hf | ⟨f₀, hf₀, hid, heq⟩
          · exact Or.inl (List.mem_cons_of_mem f₁ hf)
          · exact Or.inr ⟨f₀, List.mem_cons_of_mem f₁ hf₀, hid, heq⟩

theorem updateFile_map {β : Type} {fileId : UInt16} {g : DCFile → DCFile} (π : DCFile → β)
    (hg : ∀ f, π (g f) = π f) (files : List DCFile) :
    (updateFile fileId g files).map π = files.map π := by
  induction files with
  | nil => rfl
  | cons f fs ih =>
      rw [updateFile]
      split
      · rw [List.map_cons, List.map_cons, hg]
      · rw [List.map_cons, List.map_cons, ih]

/-- The loop over the ids of a confirm. -/
def confirmFiles (ids : List UInt16) (files : List DCFile) : List DCFile :=
  ids.foldl (fun files id => updateFile id (fun f => { f with confirmed := true }) files) files

theorem confirmFiles_mem (ids : List UInt16) : ∀ {files : List DCFile} {f : DCFile},
    f ∈ confirmFiles ids files → ∃ f₀ ∈ files, f = f₀ ∨
      (f = { f₀ with confirmed := true } ∧ f₀.fileId ∈ ids) := by
  induction ids with
  | nil =>
      intro files f hf
      exact ⟨f, hf, Or.inl rfl⟩
  | cons id ids ih =>
      intro files f hf
      obtain ⟨f₁, hf₁, h₁⟩ := ih hf
      rcases updateFile_mem hf₁ with hf₁ | ⟨f₀, hf₀, hid, rfl⟩
      · exact ⟨f₁, hf₁, h₁.imp_right fun h => ⟨h.1, List.mem_cons_of_mem id h.2⟩⟩
      · refine ⟨f₀, hf₀, Or.inr ⟨?_, hid ▸ List.mem_cons_self⟩⟩
        rcases h₁ with rfl | ⟨rfl, -⟩ <;> rfl

theorem confirmFiles_map {β : Type} (π : DCFile → β)
    (hπ : ∀ f : DCFile, π { f with confirmed := true } = π f) (ids : List UInt16) :
    ∀ files : List DCFile, (confirmFiles ids files).map π = files.map π := by
  induction ids with
  | nil => intro files; rfl
  | cons id ids ih =>
      intro files
      exact (ih _).trans (updateFile_map π hπ files)

/-- What a confirm or a request does to the transfer. -/
structure CtrlOf (type : DFileFrameType) (ids : List UInt16) (t t' : DCTrans) : Prop where
  transId : t'.transId = t.transId
  doneReceived : t'.doneReceived = t.doneReceived
  entries : t'.files.map DCFile.headerEntry = t.files.map DCFile.headerEntry
  files : ∀ f ∈ t'.files, ∃ f₀ ∈ t.files, f = f₀ ∨
    (f = { f₀ with confirmed := true } ∧ type = .fileHeaderConfirm ∧ f₀.fileId ∈ ids)
  allConfirmed : t'.allConfirmed = true →
    (t.allConfirmed = true ∧ t'.files = t.files) ∨ ∀ f ∈ t'.files, f.confirmed = true
  reqReceived : t'.reqReceived = true → t.reqReceived = true ∨ type ≠ .fileHeaderConfirm
  phase : t'.phase = t.phase ∨
    (t'.phase = .txSending ∧ t'.allConfirmed = true ∧ t'.reqReceived = true)

theorem txCtrlUpdate_of (env : DcEnv) (type : DFileFrameType) (ids : List UInt16) (t : DCTrans) :
    CtrlOf type ids t (txCtrlUpdate env type ids t) := by
  -- the transfer before the phase is set
  obtain ⟨u, hu⟩ : ∃ u, u = { (if type = .fileHeaderConfirm then
      { t with
        files := confirmFiles ids t.files
        allConfirmed := (confirmFiles ids t.files).all fun f => f.confirmed }
      else { t with reqReceived := true }) with lastCtrlMs := env.now } := ⟨_, rfl⟩
  have hupdate : txCtrlUpdate env type ids t =
      if u.allConfirmed && u.reqReceived then { u with phase := .txSending } else u := by
    rw [hu]
    rfl
  have hof : CtrlOf type ids t u := by
    by_cases htype : type = .fileHeaderConfirm
    · rw [if_pos htype] at hu
      subst hu
      refine ⟨rfl, rfl, ?_, ?_, ?_, Or.inl, Or.inl rfl⟩
      · exact confirmFiles_map DCFile.headerEntry (fun _ => rfl) ids t.files
      · intro f hf
        obtain ⟨f₀, hf₀, h⟩ := confirmFiles_mem ids hf
        exact ⟨f₀, hf₀, h.imp_right fun h => ⟨h.1, htype, h.2⟩⟩
      · intro hall
        exact Or.inr fun f hf => List.all_eq_true.mp hall f hf
    · rw [if_neg htype] at hu
      subst hu
      refine ⟨rfl, rfl, rfl, fun f hf => ⟨f, hf, Or.inl rfl⟩, ?_, fun _ => Or.inr htype,
        Or.inl rfl⟩
      intro hall
      exact Or.inl ⟨hall, rfl⟩
  rw [hupdate]
  split
  · rename_i hboth
    rw [Bool.and_eq_true] at hboth
    exact ⟨hof.transId, hof.doneReceived, hof.entries, hof.files, hof.allConfirmed,
      hof.reqReceived, Or.inr ⟨rfl, hboth⟩⟩
  · exact hof

/-! ## One frame -/

/-- What the dispatch of a frame does to a sending transfer: one step for confirm, request,
ACK or DONE, then moves. -/
inductive DcTxStep (sha256Hex : Bytes → Bytes) (env : DcEnv) (frame : Bytes) (c c' : DFileConn) :
    Prop
  | other {fr : Option Bytes} :
      (∀ f, fr = some f → NotForTx f) → DcMoves sha256Hex env True fr c c' →
      DcTxStep sha256Hex env frame c c'
  | ctrl {t : DCTrans} {type : DFileFrameType} {l : DFileIdlist} :
      c.tx = some t → t.phase = .txWaitConfirmReq →
      type = .fileHeaderConfirm ∨ type = .fileTransferReq →
      dfileDecodeIdlist frame type = some l → l.transId = t.transId →
      c' = { c with tx := some (txCtrlUpdate env type l.ids t) } → DcTxStep sha256Hex env frame c c'
  | ack {t : DCTrans} {a : DFileAck} :
      c.tx = some t → t.phase = .txSending ∨ t.phase = .txWaitDone →
      dfileDecodeAck frame = some a → a.transId = t.transId →
      DcMoves sha256Hex env True none
        { c with tx := some { t with files := a.entries.foldl ackEntry t.files } } c' →
      DcTxStep sha256Hex env frame c c'
  | done {t : DCTrans} {l : DFileIdlist} :
      c.tx = some t → t.phase ≠ .failed → t.phase ≠ .txDone →
      dfileDecodeIdlist frame .fileTransferDone = some l → l.transId = t.transId →
      DcMoves sha256Hex env True none
        { c with tx := some { t with
            doneReceived := true
            phase := if t.phase = .txSending then .txWaitDone else t.phase } } c' →
      DcTxStep sha256Hex env frame c c'

section
variable {sha256Hex : Bytes → Bytes} {env : DcEnv} {frame : Bytes} {c : DFileConn}

theorem DcTxStep.quiet {c' : DFileConn} (h : DcMoves sha256Hex env True none c c') :
    DcTxStep sha256Hex env frame c c' :=
  .other (fun _ hf => by cases hf) h

theorem handleTxCtrl_tx {type : DFileFrameType}
    (htype : type = .fileHeaderConfirm ∨ type = .fileTransferReq) :
    DcTxStep sha256Hex env frame c (handleTxCtrl env type frame c) := by
  unfold handleTxCtrl
  split
  · exact .quiet .refl
  rename_i t htx
  split
  · exact .quiet .refl
  rename_i hphase
  split
  · exact .quiet (shutdownCommon_moves _ c)
  rename_i l hl
  split
  · exact .quiet (shutdownCommon_moves _ c)
  rename_i hid
  exact .ctrl htx (not_not.mp hphase) htype hl (not_not.mp hid) rfl

theorem handleAck_tx : DcTxStep sha256Hex env frame c (handleAck env frame c) := by
  unfold handleAck
  split
  · exact .quiet .refl
  rename_i t htx
  split
  · exact .quiet .refl
  rename_i hphase
  split
  · exact .quiet (shutdownCommon_moves _ c)
  rename_i a ha
  split
  · exact .quiet (shutdownCommon_moves _ c)
  rename_i hid
  have hactive : t.phase = .txSending ∨ t.phase = .txWaitDone := by
    by_contra h
    rw [not_or] at h
    exact hphase h
  apply DcTxStep.ack htx hactive ha (not_not.mp hid)
  simp only
  split
  · rename_i hfinish
    rw [Bool.and_eq_true] at hfinish
    exact txFinish_moves rfl hfinish.1 hfinish.2
  · exact .refl

theorem handleDone_tx : DcTxStep sha256Hex env frame c (handleDone env frame c) := by
  unfold handleDone
  split
  · exact .quiet .refl
  rename_i t htx
  split
  · exact .quiet .refl
  rename_i hopen
  rw [not_or] at hopen
  split
  · exact .quiet (shutdownCommon_moves _ c)
  rename_i l hl
  split
  · exact .quiet (shutdownCommon_moves _ c)
  rename_i hid
  apply DcTxStep.done htx hopen.1 hopen.2 hl (not_not.mp hid)
  simp only
  by_cases hacked : txAllAcked t = true
  · exact (if_pos hacked).symm ▸ txFinish_moves rfl rfl hacked
  · exact (if_neg hacked).symm ▸ .refl

/-- **Dispatch, for the sender.** -/
theorem handleFrame_tx (hidle : c.Unopened) (hstate : c.state ≠ .closing) :
    DcTxStep sha256Hex env frame c (handleFrame env frame c) := by
  rcases hh : dfileFrameHeaderUnpack frame with h | - | -
  · have hmoves : DcMoves sha256Hex env True (some frame) c (handleFrame env frame c) :=
      handleFrame_moves hidle hstate
    have hother : ∀ type, DFileFrameType.ofCode h.type = some type → type ≠ .fileDataAck →
        type ≠ .fileHeaderConfirm ∧ type ≠ .fileTransferReq ∧ type ≠ .fileTransferDone →
        DcTxStep sha256Hex env frame c (handleFrame env frame c) := by
      intro type htype hack hids
      refine .other ?_ hmoves
      rintro f ⟨⟩
      exact .of_type hh htype hack hids
    rcases htype : DFileFrameType.ofCode h.type with _ | type
    · have hnone : handleFrame env frame c = c := by simp only [handleFrame, hh, htype]
      rw [hnone]
      exact .quiet .refl
    cases type with
    | fileHeaderConfirm =>
        simp only [handleFrame, hh, htype]
        exact handleTxCtrl_tx (Or.inl rfl)
    | fileTransferReq =>
        simp only [handleFrame, hh, htype]
        exact handleTxCtrl_tx (Or.inr rfl)
    | fileDataAck =>
        simp only [handleFrame, hh, htype]
        exact handleAck_tx
    | fileTransferDone =>
        simp only [handleFrame, hh, htype]
        exact handleDone_tx
    | _ => exact hother _ htype (by decide) (by decide)
  · simp only [handleFrame, hh]
    exact .quiet (shutdownCommon_moves _ c)
  · simp only [handleFrame, hh]
    exact .quiet (shutdownCommon_moves _ c)

end

/-! ## The invariant rule -/

/-- The frame has been dispatched to the connection. -/
def HandledIn (H : List (DFileConn × DcEnv × Bytes)) (c : DFileConn) (frame : Bytes) : Prop :=
  ∃ env, (c, env, frame) ∈ H

/-- What a step must keep for an invariant of a sending transfer, given what has been
dispatched so far. -/
structure TxKept (sha256Hex : Bytes → Bytes)
    (Inv : List (DFileConn × DcEnv × Bytes) → DFileConn → Prop)
    (okSend : DcEnv → List DFileSendItem → DFileConn → Prop)
    (okFrame : DFileConn → Bytes → Prop) : Prop where
  mono : ∀ {H H' c}, H ⊆ H' → Inv H c → Inv H' c
  start : ∀ {H env items c c'}, DcBase c → Inv H c → c.stopped = false → okSend env items c →
    DcStarts env items c c' → Inv H c'
  move : ∀ {H env fr c c'}, DcBase c → Inv H c → DcMove sha256Hex env True fr c c' →
    DcTxMove env c c' → Inv H c'
  ctrl : ∀ {H env frame c t type l}, Inv H c → c.stopped = false → HandledIn H c frame →
    c.tx = some t → t.phase = .txWaitConfirmReq →
    type = .fileHeaderConfirm ∨ type = .fileTransferReq →
    dfileDecodeIdlist frame type = some l → l.transId = t.transId →
    Inv H { c with tx := some (txCtrlUpdate env type l.ids t) }
  ack : ∀ {H frame c t a}, Inv H c → c.stopped = false → HandledIn H c frame → okFrame c frame →
    c.tx = some t → t.phase = .txSending ∨ t.phase = .txWaitDone →
    dfileDecodeAck frame = some a → a.transId = t.transId →
    Inv H { c with tx := some { t with files := a.entries.foldl ackEntry t.files } }
  done : ∀ {H frame c t l}, Inv H c → c.stopped = false → HandledIn H c frame →
    c.tx = some t → t.phase ≠ .failed → t.phase ≠ .txDone →
    dfileDecodeIdlist frame .fileTransferDone = some l → l.transId = t.transId →
    Inv H { c with tx := some { t with
      doneReceived := true
      phase := if t.phase = .txSending then .txWaitDone else t.phase } }

/-- A condition on starting a transfer and on the frames dispatched. -/
def DcOk (okSend : DcEnv → List DFileSendItem → DFileConn → Prop)
    (okFrame : DFileConn → Bytes → Prop) (c : DFileConn) (e : DcEv) : Prop :=
  (∀ env items, e = .sendFiles env items → okSend env items c) ∧
    ∀ d ∈ e.dispatches c, okFrame d.1 d.2.2

section
variable {sha256Hex : Bytes → Bytes}
  {Inv : List (DFileConn × DcEnv × Bytes) → DFileConn → Prop}
  {okSend : DcEnv → List DFileSendItem → DFileConn → Prop} {okFrame : DFileConn → Bytes → Prop}

theorem TxKept.moves (h : TxKept sha256Hex Inv okSend okFrame)
    {H : List (DFileConn × DcEnv × Bytes)} {env : DcEnv} {fr : Option Bytes} {c c' : DFileConn}
    (hshut : ∀ p, env.openRead p = false) (hfr : ∀ f, fr = some f → NotForTx f)
    (hinv : DcBase c ∧ Inv H c) (hm : DcMoves sha256Hex env True fr c c') :
    DcBase c' ∧ Inv H c' := by
  induction hm with
  | refl => exact hinv
  | tail _ hlast ih =>
      exact ⟨hlast.base ih.1, h.move ih.1 ih.2 hlast (hlast.tx_move ih.1 hshut hfr)⟩

theorem TxKept.frame (h : TxKept sha256Hex Inv okSend okFrame)
    {H : List (DFileConn × DcEnv × Bytes)} {env : DcEnv} {frame : Bytes} {c : DFileConn}
    (hshut : ∀ p, env.openRead p = false) (hinv : DcBase c ∧ Inv H c) (hidle : c.Unopened)
    (hopen : c.stopped = false) (hok : okFrame c frame) (hhandled : HandledIn H c frame) :
    DcBase (handleFrame env frame c) ∧ Inv H (handleFrame env frame c) := by
  obtain ⟨hbase, hinv⟩ := hinv
  have hquiet : ∀ f : Bytes, (none : Option Bytes) = some f → NotForTx f := fun f hf => by cases hf
  rcases @handleFrame_tx sha256Hex env frame c hidle (DFileConn.stopped_eq_false hopen).2 with
    ⟨hfr, hm⟩ | ⟨htx, hphase, htype, hl, hid, heq⟩ | ⟨htx, hphase, ha, hid, hm⟩ |
    ⟨htx, hfailed, hdone, hl, hid, hm⟩
  · exact h.moves hshut hfr ⟨hbase, hinv⟩ hm
  · have hm : DcMove sha256Hex env True (some frame) c _ := .ctrl rfl htx hphase htype hl hid
    rw [heq]
    exact ⟨hm.base hbase, h.ctrl hinv hopen hhandled htx hphase htype hl hid⟩
  · have hack : DcMove sha256Hex env True (some frame) c _ := .ack rfl htx hphase ha hid
    refine h.moves hshut hquiet ⟨hack.base hbase, ?_⟩ hm
    exact h.ack hinv hopen hhandled hok htx hphase ha hid
  · have hdone' : DcMove sha256Hex env True (some frame) c _ :=
      .doneReceived rfl htx hfailed hdone hl hid
    refine h.moves hshut hquiet ⟨hdone'.base hbase, ?_⟩ hm
    exact h.done hinv hopen hhandled htx hfailed hdone hl hid

theorem TxKept.step (h : TxKept sha256Hex Inv okSend okFrame)
    {H : List (DFileConn × DcEnv × Bytes)} {e : DcEv} {c c' : DFileConn}
    (hinv : DcBase c ∧ Inv H c) (hsound : c.Sound) (hok : DcOk okSend okFrame c e)
    (hs : c.step sha256Hex e = some c') :
    (DcBase c' ∧ Inv (H ++ e.dispatches c) c') ∧ c'.Sound := by
  have hmono : Inv (H ++ e.dispatches c) c := h.mono (List.subset_append_left _ _) hinv.2
  have hrest : (∀ env items, e ≠ .sendFiles env items) →
      (DcBase c' ∧ Inv (H ++ e.dispatches c) c') ∧ c'.Sound := by
    intro hother
    refine DFileConn.step_keeps_where (fun c₁ => DcBase c₁ ∧ Inv (H ++ e.dispatches c) c₁) True
      (fun env => ∀ p, env.openRead p = false)
      (fun _ c₁ frame => okFrame c₁ frame ∧ HandledIn (H ++ e.dispatches c) c₁ frame) ?_ ?_
      ⟨hinv.1, hmono⟩ hsound ?_ ?_ (fun _ _ _ => trivial)
      ((DFileConn.step_shut sha256Hex c e).trans hs)
    · intro env c₁ c₂ hshut hc hm
      exact h.moves hshut (fun f hf => by cases hf) hc hm.moves
    · intro env c₁ frame hshut hc hidle hopen hframe
      exact h.frame hshut hc hidle hopen hframe.1 hframe.2
    · cases e with
      | sendFiles env items => exact absurd rfl (hother env items)
      | _ => exact fun p => rfl
    · intro d hd
      obtain ⟨env, hd'⟩ := DcEv.shut_dispatches c hd
      exact ⟨hok.2 (d.1, env, d.2.2) hd', env, List.mem_append_right H hd'⟩
  cases e with
  | sendFiles env items =>
      have hsound' : True ∧ c'.Sound :=
        DFileConn.step_keeps (fun _ => True) True (fun _ => True) (fun _ _ _ => trivial) trivial
          hsound trivial (fun _ _ _ => trivial) hs
      refine ⟨?_, hsound'.2⟩
      unfold DFileConn.step at hs
      split at hs
      · rename_i henabled
        cases hs
        rw [Bool.and_eq_true, Bool.not_eq_true'] at henabled
        have hmoves : DcMoves sha256Hex env True none c (sendFilesImpl env items c).1 :=
          sendFilesImpl_moves items c
        refine ⟨hmoves.base hinv.1, ?_⟩
        exact h.start hinv.1 hmono henabled.1 (hok.1 env items rfl)
          (sendFilesImpl_starts env items c)
      · cases hs
  | _ => exact hrest fun env items he => by cases he

/-- **Invariant rule for a sending transfer.** -/
theorem DFileConn.run_keeps_tx (h : TxKept sha256Hex Inv okSend okFrame) (es : List DcEv) :
    ∀ {H : List (DFileConn × DcEnv × Bytes)} {c c' : DFileConn}, DcBase c ∧ Inv H c → c.Sound →
      Meets (DFileConn.step sha256Hex) (DcOk okSend okFrame) c es →
      run (DFileConn.step sha256Hex) c es = some c' →
      Inv (H ++ c.dispatches sha256Hex es) c' := by
  induction es with
  | nil =>
      intro H c c' hinv _ _ hrun
      cases hrun
      rw [DFileConn.dispatches, List.append_nil]
      exact hinv.2
  | cons e es ih =>
      intro H c c' hinv hsound hmeets hrun
      obtain ⟨c₁, hs, hrest⟩ := run_cons_eq_some hrun
      obtain ⟨hinv₁, hsound₁⟩ := h.step hinv hsound hmeets.1 hs
      have hall := ih hinv₁ hsound₁ (hmeets.2 c₁ hs) hrest
      simp only [DFileConn.dispatches, hs]
      rw [← List.append_assoc]
      exact hall

end

end HwPhoneLink.DFile
