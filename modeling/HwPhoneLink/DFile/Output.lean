import HwPhoneLink.DFile.Moves
import HwPhoneLink.Lib.Transitions

/-!
# What a DFile connection writes

Every move writes at most one frame, of a type that the phases allow.
-/

namespace HwPhoneLink.DFile

open BigEndian Transitions HwPhoneLink.Testfile

structure DCTrans.TxBase (t : DCTrans) : Prop where
  files : t.files ≠ []
  max : t.files.length ≤ dfileMaxFileNum
  phase : t.phase ≠ .rxDone

structure DCTrans.RxBase (t : DCTrans) : Prop where
  node : t.nodeNumber ≠ 0
  phase : t.phase ≠ .txDone

/-- What holds of every connection. -/
structure DcBase (c : DFileConn) : Prop where
  tx : ∀ t, c.tx = some t → t.TxBase
  rx : ∀ t, c.rx = some t → t.RxBase
  ready : c.state = .ready → c.negotiated = true
  block : c.negotiated = true → c.blockSize ≠ 0

theorem dcBlockSize_ne_zero (s : DFileSetting) : dcBlockSize s ≠ 0 := by
  simp only [dcBlockSize]
  split
  · rename_i h
    have hmin : 64 ≤ s.dataFrameSize.toNat := h.1
    omega
  · decide

section
variable {sha256Hex : Bytes → Bytes} {env : DcEnv} {late : Prop} {fr : Option Bytes}

theorem txOpenFiles_length {blockSize : ℕ} (items : List DFileSendItem) :
    ∀ {i : ℕ} {files : List DCFile}, txOpenFiles env blockSize i items = .ok files →
      files.length = items.length := by
  induction items with
  | nil => intro i files h; cases h; rfl
  | cons item items ih =>
      intro i files h
      unfold txOpenFiles at h
      split at h
      · cases h
      · cases h
      · split at h
        · cases h
        · cases h
        · rename_i hfiles
          cases h
          rw [List.length_cons, List.length_cons, ih hfiles]

theorem updateFile_length (fileId : UInt16) (g : DCFile → DCFile) (files : List DCFile) :
    (updateFile fileId g files).length = files.length := by
  induction files with
  | nil => rfl
  | cons f fs ih =>
      rw [updateFile]
      split
      · rfl
      · rw [List.length_cons, List.length_cons, ih]

theorem foldl_ackEntry_length (es : List DFileAckEntry) (files : List DCFile) :
    (es.foldl ackEntry files).length = files.length := by
  induction es generalizing files with
  | nil => rfl
  | cons e es ih =>
      rw [List.foldl_cons, ih, ackEntry]
      split
      · rfl
      · exact updateFile_length _ _ _

theorem txCtrlUpdate_length (type : DFileFrameType) (ids : List UInt16) (t : DCTrans) :
    (txCtrlUpdate env type ids t).files.length = t.files.length := by
  have hfold : ∀ files : List DCFile, (ids.foldl (fun files id =>
      updateFile id (fun f => { f with confirmed := true }) files) files).length =
      files.length := by
    induction ids with
    | nil => intro files; rfl
    | cons id ids ih =>
        intro files
        rw [List.foldl_cons, ih, updateFile_length]
  simp only [txCtrlUpdate]
  split <;> split <;> first | exact hfold t.files | rfl

theorem txCtrlUpdate_phase (type : DFileFrameType) (ids : List UInt16) (t : DCTrans) :
    (txCtrlUpdate env type ids t).phase = t.phase ∨
      (txCtrlUpdate env type ids t).phase = .txSending := by
  simp only [txCtrlUpdate]
  split <;> split <;> first | exact Or.inl rfl | exact Or.inr rfl

theorem DCTrans.TxBase.next {t t' : DCTrans} (h : t.TxBase)
    (hlen : t'.files.length = t.files.length) (hphase : t'.phase = t.phase ∨ t'.phase ≠ .rxDone) :
    t'.TxBase where
  files := by
    have hne := h.files
    rw [← List.length_pos_iff] at hne ⊢
    rw [hlen]
    exact hne
  max := hlen ▸ h.max
  phase := by
    rcases hphase with hsame | hne
    · rw [hsame]
      exact h.phase
    · exact hne

theorem DcMove.base {c c' : DFileConn} (hm : DcMove sha256Hex env late fr c c') (h : DcBase c) :
    DcBase c' := by
  have htx : ∀ {t t' : DCTrans}, c.tx = some t → t'.files.length = t.files.length →
      t'.phase = t.phase ∨ t'.phase ≠ .rxDone → ∀ u, some t' = some u → u.TxBase := by
    rintro t t' ht hlen hphase u ⟨⟩
    exact (h.tx t ht).next hlen hphase
  have hrx : ∀ {t t' : DCTrans}, c.rx = some t → t'.nodeNumber = t.nodeNumber →
      t'.phase = t.phase ∨ t'.phase ≠ .txDone → ∀ u, some t' = some u → u.RxBase := by
    rintro t t' ht hnode hphase u ⟨⟩
    refine ⟨hnode ▸ (h.rx t ht).node, ?_⟩
    rcases hphase with hsame | hne
    · rw [hsame]
      exact (h.rx t ht).phase
    · exact hne
  cases hm with
  | fail isSender reason sendRst =>
      rcases transFail_spec env isSender reason sendRst c with hsame | ⟨t, w, crash, ht, -, -, -, heq⟩
      · rw [hsame]
        exact h
      · rw [heq]
        cases isSender
        · exact ⟨h.tx, hrx ht rfl (Or.inr (by simp)), h.ready, h.block⟩
        · exact ⟨htx ht rfl (Or.inr (by simp)), h.rx, h.ready, h.block⟩
  | settingCut => exact ⟨h.tx, h.rx, (by rintro ⟨⟩), h.block⟩
  | closing => exact ⟨h.tx, h.rx, (by rintro ⟨⟩), h.block⟩
  | negotiate => exact ⟨h.tx, h.rx, fun _ => rfl, fun _ => dcBlockSize_ne_zero _⟩
  | startTx hready hfree hne hmax hopen =>
      refine ⟨?_, h.rx, h.ready, h.block⟩
      rintro u ⟨⟩
      have hlen := txOpenFiles_length _ hopen
      constructor
      · rw [Ne, ← List.length_eq_zero_iff, hlen]
        exact hne
      · rw [hlen]
        exact hmax
      · show DCPhase.idle ≠ .rxDone
        decide
  | dropTx => exact ⟨(by rintro u ⟨⟩), h.rx, h.ready, h.block⟩
  | armed ht => exact ⟨htx ht rfl (Or.inr (by simp)), h.rx, h.ready, h.block⟩
  | retry _ _ ht => exact ⟨htx ht rfl (Or.inl rfl), h.rx, h.ready, h.block⟩
  | ctrl _ ht =>
      refine ⟨htx ht (txCtrlUpdate_length _ _ _) ?_, h.rx, h.ready, h.block⟩
      refine (txCtrlUpdate_phase _ _ _).imp_right fun hsend => ?_
      rw [hsend]
      decide
  | newBlock ht _ hfiles =>
      exact ⟨htx ht (by rw [hfiles]; simp) (Or.inl rfl), h.rx, h.ready, h.block⟩
  | retran ht _ hfiles =>
      exact ⟨htx ht (by rw [hfiles]; simp) (Or.inl rfl), h.rx, h.ready, h.block⟩
  | allSent ht => exact ⟨htx ht rfl (Or.inr (by simp)), h.rx, h.ready, h.block⟩
  | ack _ ht => exact ⟨htx ht (foldl_ackEntry_length _ _) (Or.inl rfl), h.rx, h.ready, h.block⟩
  | doneReceived _ ht =>
      refine ⟨htx ht rfl ?_, h.rx, h.ready, h.block⟩
      simp only
      split
      · exact Or.inr (by simp)
      · exact Or.inl rfl
  | finish ht => exact ⟨htx ht rfl (Or.inr (by simp)), h.rx, h.ready, h.block⟩
  | header _ _ hnode hfrom =>
      refine ⟨h.tx, ?_, h.ready, h.block⟩
      rintro u ⟨⟩
      rcases hfrom with ⟨-, rfl⟩ | ⟨hr, -, -, -, hsame⟩
      · exact ⟨hnode, by show DCPhase.idle ≠ .txDone; decide⟩
      · exact ⟨(h.rx _ hr).node, (h.rx _ hr).phase⟩
  | opened _ _ hr => exact ⟨h.tx, hrx hr rfl (Or.inl rfl), h.ready, h.block⟩
  | waitData hr => exact ⟨h.tx, hrx hr rfl (Or.inr (by simp)), h.ready, h.block⟩
  | write _ _ hr => exact ⟨h.tx, hrx hr rfl (Or.inl rfl), h.ready, h.block⟩
  | flushNone hr => exact ⟨h.tx, hrx hr rfl (Or.inl rfl), h.ready, h.block⟩
  | flush hr => exact ⟨h.tx, hrx hr rfl (Or.inl rfl), h.ready, h.block⟩
  | digest hr => exact ⟨h.tx, hrx hr rfl (Or.inl rfl), h.ready, h.block⟩
  | done hr => exact ⟨h.tx, hrx hr rfl (Or.inr (by simp)), h.ready, h.block⟩
  | doneack _ hr => exact ⟨h.tx, hrx hr rfl (Or.inr (by simp)), h.ready, h.block⟩
  | _ => exact ⟨h.tx, h.rx, h.ready, h.block⟩

/-! ## One move, one frame -/

/-- The phase of one direction, `idle` without a transfer. -/
def DFileConn.phase (c : DFileConn) (isSender : Bool) : DCPhase :=
  ((c.trans isSender).map DCTrans.phase).getD .idle

/-- When a frame of a type may be handed to the socket. -/
def DcAllowed (late : Prop) (c : DFileConn) : DFileFrameType → Prop
  | .fileData | .fileTransferDoneAck => (c.phase true).terminal = false
  | .fileDataAck => (c.phase false).terminal = false
  | .fileTransferDone => (c.phase false).terminal = false ∨ late
  | _ => True

/-- The writes of a move. -/
structure DcWrites (env : DcEnv) (late : Prop) (c c' : DFileConn) : Prop where
  out : c'.out = c.out ∨
    ∃ type f, IsFrameOf type f ∧
      (DcAllowed late c type ∨ ∀ w ∈ (dcWrite env c f).1, w = []) ∧
      c'.out = c.out ++ (dcWrite env c f).1 ∧
      ∀ message, (dcWrite env c f).2 = .error message → c'.stopped = true
  crash : c.crash.isSome = true → c'.crash.isSome = true
  stopped : c.stopped = true → c'.stopped = true

theorem DFileConn.phase_of_tx {c : DFileConn} {t : DCTrans} (h : c.tx = some t) :
    c.phase true = t.phase := by
  simp [DFileConn.phase, DFileConn.trans, h]

theorem DFileConn.phase_of_rx {c : DFileConn} {t : DCTrans} (h : c.rx = some t) :
    c.phase false = t.phase := by
  simp [DFileConn.phase, DFileConn.trans, h]

theorem DCTrans.TxBase.live {t : DCTrans} (h : t.TxBase) (hdone : t.phase ≠ .txDone)
    (hfail : t.phase ≠ .failed) : t.phase.terminal = false := by
  have hdir := h.phase
  revert hdone hfail hdir
  cases t.phase <;> simp [DCPhase.terminal]

/-- Every frame that is handed over is a complete one, of a type that is allowed;
or the socket takes nothing of it. -/
theorem DcSends.isFrameOf {c : DFileConn} {f : Bytes} (h : DcBase c) (hs : DcSends env late c f) :
    ∃ type, IsFrameOf type f ∧ (DcAllowed late c type ∨ ∀ w ∈ (dcWrite env c f).1, w = []) := by
  cases hs with
  | rst hf =>
      obtain ⟨hframe, hcarried, -⟩ := dfileEncodeRst_frame hf
      exact ⟨.rst, ⟨_, _, _, hframe, hcarried⟩, Or.inl trivial⟩
  | header _ _ _ hf =>
      obtain ⟨hframe, hcarried, -⟩ := dfileEncodeFileHeader_frame (by decide) hf
      exact ⟨.fileHeader, ⟨_, _, _, hframe, hcarried⟩, Or.inl trivial⟩
  | @confirm t type f hrx _ hnode htype hf =>
      have hne : (t.hdr.map fun e => e.fileId) ≠ [] := by
        rw [Ne, List.map_eq_nil_iff]
        rintro hnil
        rw [hnil, List.length_nil, Nat.le_zero] at hnode
        exact (h.rx t hrx).node (UInt16.toNat_inj.mp hnode)
      obtain ⟨hframe, hcarried, -⟩ := dfileEncodeIdlist_frame hne hf
      refine ⟨type, ⟨_, _, _, hframe, hcarried⟩, Or.inl ?_⟩
      rcases htype with rfl | rfl <;> exact trivial
  | data htx hphase _ _ hf =>
      obtain ⟨hframe, hcarried⟩ := dfileEncodeData_frame hf
      refine ⟨.fileData, ⟨_, _, _, hframe, hcarried⟩, Or.inl ?_⟩
      show (c.phase true).terminal = false
      rw [DFileConn.phase_of_tx htx]
      rcases hphase with hphase | hphase <;> rw [hphase] <;> rfl
  | @doneack t f htx _ hdone hfail _ _ hf =>
      have hne : (t.files.map fun f => f.fileId) ≠ [] := by
        rw [Ne, List.map_eq_nil_iff]
        exact (h.tx t htx).files
      obtain ⟨hframe, hcarried, -⟩ := dfileEncodeIdlist_frame hne hf
      refine ⟨.fileTransferDoneAck, ⟨_, _, _, hframe, hcarried⟩, Or.inl ?_⟩
      show (c.phase true).terminal = false
      rw [DFileConn.phase_of_tx htx]
      exact (h.tx t htx).live hdone hfail
  | @done t f hrx hphase _ hcomplete _ hf =>
      have hne : (t.files.map fun f => f.fileId) ≠ [] := by
        rw [Ne, List.map_eq_nil_iff]
        exact (rxComplete_iff.mp hcomplete).1
      obtain ⟨hframe, hcarried, -⟩ := dfileEncodeIdlist_frame hne hf
      have hdone : IsFrameOf .fileTransferDone f := ⟨_, _, _, hframe, hcarried⟩
      refine ⟨.fileTransferDone, hdone, ?_⟩
      rcases hphase with hphase | hlate | htakes
      · left
        left
        rw [DFileConn.phase_of_rx hrx, hphase]
        rfl
      · exact Or.inl (Or.inr hlate)
      · right
        intro w hw
        unfold dcWrite at hw
        split at hw
        · cases hw
        · rw [List.mem_singleton] at hw
          rw [hw]
          exact (dcSendLoop_takes _ hdone.ne_nil htakes).1

theorem dcSend_crash_of_error {c : DFileConn} {f : Bytes} {message : String}
    (h : (dcWrite env c f).2 = .error message) : (dcSend env c f).1.crash = some .nullStore := by
  simp only [dcSend, dcSendRaw, h]

theorem dcSend_crash_isSome {c : DFileConn} {f : Bytes} (h : c.crash.isSome = true) :
    (dcSend env c f).1.crash.isSome = true := by
  simp only [dcSend, dcSendRaw]
  split
  · rfl
  · exact h

theorem DFileConn.stopped_of_crash {c : DFileConn} (h : c.crash.isSome = true) :
    c.stopped = true := by
  rw [DFileConn.stopped, h, Bool.true_or]

/-- A connection that differs from what a send leaves in its transfers only. -/
theorem DcWrites.of_send {c c' : DFileConn} {type : DFileFrameType} {f : Bytes}
    (hframe : IsFrameOf type f)
    (hallowed : DcAllowed late c type ∨ ∀ w ∈ (dcWrite env c f).1, w = [])
    (hout : c'.out = c.out ++ (dcWrite env c f).1) (hstate : c'.state = c.state)
    (hcrash : c'.crash = (dcSend env c f).1.crash) : DcWrites env late c c' where
  out := by
    refine Or.inr ⟨type, f, hframe, hallowed, hout, fun message herror => ?_⟩
    apply DFileConn.stopped_of_crash
    rw [hcrash, dcSend_crash_of_error herror]
    rfl
  crash h := by
    rw [hcrash]
    exact dcSend_crash_isSome h
  stopped h := by
    rw [DFileConn.stopped, Bool.or_eq_true] at h ⊢
    rw [hcrash, hstate]
    exact h.imp_left dcSend_crash_isSome

/-- A move that hands nothing to the socket. -/
theorem DcWrites.of_quiet {c c' : DFileConn} (hout : c'.out = c.out)
    (hstate : c.state = .closing → c'.state = .closing)
    (hcrash : c.crash.isSome = true → c'.crash.isSome = true) : DcWrites env late c c' where
  out := Or.inl hout
  crash := hcrash
  stopped h := by
    rw [DFileConn.stopped, Bool.or_eq_true, decide_eq_true_iff] at h ⊢
    exact h.imp hcrash hstate

theorem DcMove.writes {c c' : DFileConn} (hm : DcMove sha256Hex env late fr c c') (h : DcBase c) :
    DcWrites env late c c' := by
  cases hm with
  | send hs =>
      obtain ⟨type, hframe, hallowed⟩ := hs.isFrameOf h
      exact .of_send hframe hallowed rfl rfl rfl
  | setting _ hf hsent =>
      obtain ⟨hframe, hcarried⟩ := dfileEncodeSetting_frame hf
      have hwrite := (dcWrite_sent hsent).2
      refine ⟨Or.inr ⟨.setting, _, ⟨_, _, _, hframe, hcarried⟩, Or.inl trivial, ?_, ?_⟩, id, id⟩
      · rw [hwrite]
      · intro message herror
        rw [hwrite] at herror
        cases herror
  | settingCut _ _ hf =>
      obtain ⟨hframe, hcarried⟩ := dfileEncodeSetting_frame hf
      have hstop : ∀ {c' : DFileConn}, c'.state = .closing → c'.stopped = true := fun hs => by
        rw [DFileConn.stopped, hs]
        simp
      exact ⟨Or.inr ⟨.setting, _, ⟨_, _, _, hframe, hcarried⟩, Or.inl trivial, rfl,
        fun _ _ => hstop rfl⟩, id, fun _ => hstop rfl⟩
  | fail isSender reason sendRst =>
      rcases transFail_spec env isSender reason sendRst c with hsame |
        ⟨t, w, crash, ht, -, hw, hcrash, heq⟩
      · rw [hsame]
        exact .of_quiet rfl id id
      · have hstate : (transFail env isSender reason sendRst c).state = c.state :=
          transFail_state isSender reason sendRst c
        have hlive : c.crash.isSome = true →
            (transFail env isSender reason sendRst c).crash.isSome = true := by
          intro hdead
          rw [heq]
          rcases hcrash with hcrash | hcrash <;> rw [hcrash]
          · exact hdead
          · rfl
        have hout : (transFail env isSender reason sendRst c).out = c.out ++ w := by rw [heq]
        rcases hw with rfl | ⟨f, hframe, rfl, herror⟩
        · exact .of_quiet (by rw [hout, List.append_nil]) (fun hs => hstate.trans hs) hlive
        · refine ⟨Or.inr ⟨.rst, f, hframe, Or.inl trivial, hout, ?_⟩, hlive, ?_⟩
          · intro message hmessage
            apply DFileConn.stopped_of_crash
            rw [heq, herror message hmessage]
            rfl
          · intro hstop
            rw [DFileConn.stopped, Bool.or_eq_true] at hstop ⊢
            rw [hstate]
            exact hstop.imp_left hlive
  | closing => exact .of_quiet rfl (fun _ => rfl) id
  | crash => exact .of_quiet rfl id fun _ => rfl
  | negotiate _ hstate => exact .of_quiet rfl (fun hs => absurd hs hstate) id
  | newBlock htx hphase hfiles _ hread hf =>
      have hs : DcSends env late c _ := .data htx hphase (by rw [hfiles]; simp) hread hf
      obtain ⟨type, hframe, hallowed⟩ := hs.isFrameOf h
      exact .of_send hframe hallowed rfl rfl rfl
  | retran htx hphase hfiles _ hread hf =>
      have hs : DcSends env late c _ := .data htx hphase (by rw [hfiles]; simp) hread hf
      obtain ⟨type, hframe, hallowed⟩ := hs.isFrameOf h
      exact .of_send hframe hallowed rfl rfl rfl
  | finish htx hfirst hdone hfail hreceived hacked hf =>
      have hs : DcSends env late c _ := .doneack htx hfirst hdone hfail hreceived hacked hf
      obtain ⟨type, hframe, hallowed⟩ := hs.isFrameOf h
      exact .of_send hframe hallowed rfl rfl rfl
  | waitData hrx hphase hnode _ hf =>
      have hs : DcSends env late c _ := .confirm hrx hphase hnode (Or.inr rfl) hf
      obtain ⟨type, hframe, hallowed⟩ := hs.isFrameOf h
      exact .of_send hframe hallowed rfl rfl rfl
  | flush hrx hphase _ hf =>
      obtain ⟨pad, hframe, hcarried, -⟩ := dfileEncodeAck_frame hf
      refine .of_send ⟨_, _, _, hframe, hcarried⟩ (Or.inl ?_) rfl rfl rfl
      show (c.phase false).terminal = false
      rw [DFileConn.phase_of_rx hrx, hphase]
      rfl
  | done hrx hphase hfirst hcomplete hdigest hf =>
      have hs : DcSends env late c _ := .done hrx (hphase.imp_right Or.inl) hfirst hcomplete hdigest hf
      obtain ⟨type, hframe, hallowed⟩ := hs.isFrameOf h
      exact .of_send hframe hallowed rfl rfl rfl
  | _ => exact .of_quiet rfl id id

/-- A dead process stays dead. -/
theorem DcMove.alive {c c' : DFileConn} (hm : DcMove sha256Hex env late fr c c')
    (h : DcBase c) (halive : c'.crash = none) : c.crash = none := by
  by_contra hdead
  have hdead' := (hm.writes h).crash (Option.isSome_iff_ne_none.mpr hdead)
  rw [halive] at hdead'
  cases hdead'

/-! ## Whole frames -/

/-- No poll is interrupted. -/
def DcSocket.neverInterrupted : DcSocket → Bool
  | .accept _ next | .wouldBlock next => next.neverInterrupted
  | .interrupted => false
  | .error _ => true

/-- No poll is interrupted after the socket has taken something. -/
def DcSocket.neverCut : DcSocket → Bool
  | .accept _ next => next.neverInterrupted
  | .wouldBlock next => next.neverCut
  | .interrupted | .error _ => true

theorem dcSendLoop_neverInterrupted (s : DcSocket) : ∀ {f : Bytes}, s.neverInterrupted = true →
    (dcSendLoop s f).2 ≠ .interrupted := by
  induction s with
  | accept n next ih =>
      intro f h
      cases f with
      | nil => simp [dcSendLoop]
      | cons b bs => exact ih h
  | wouldBlock next ih =>
      intro f h
      cases f with
      | nil => simp [dcSendLoop]
      | cons b bs => exact ih h
  | interrupted => intro f h; cases h
  | error message => intro f h; cases f <;> simp [dcSendLoop]

theorem dcSendLoop_neverCut (s : DcSocket) : ∀ {f : Bytes}, s.neverCut = true →
    (dcSendLoop s f).2 = .interrupted → (dcSendLoop s f).1 = [] := by
  induction s with
  | accept n next ih =>
      intro f h hint
      cases f with
      | nil => rfl
      | cons b bs => exact absurd hint (dcSendLoop_neverInterrupted next h)
  | wouldBlock next ih =>
      intro f h hint
      cases f with
      | nil => rfl
      | cons b bs => exact ih h hint
  | interrupted => intro f _ _; cases f <;> rfl
  | error message => intro f _ _; cases f <;> rfl

/-- Complete frames, then at most one partial frame; what a call writes that
writes nothing does not count. -/
def WellWritten (out : List Bytes) : Prop :=
  ∃ frames last : List Bytes, (out.filter fun w => !w.isEmpty) = frames ++ last ∧
    (∀ f ∈ frames, ∃ type, IsFrameOf type f) ∧
    (last = [] ∨ ∃ type f p, IsFrameOf type f ∧ p <+: f ∧ last = [p])

/-- Every write is of a complete frame, or of nothing. -/
def AllWhole (out : List Bytes) : Prop := ∀ w ∈ out, w = [] ∨ ∃ type, IsFrameOf type w

theorem AllWhole.append {out : List Bytes} (h : AllWhole out) {type : DFileFrameType}
    {f p : Bytes} (hf : IsFrameOf type f) (hp : p <+: f) : WellWritten (out ++ [p]) := by
  refine ⟨out.filter fun w => !w.isEmpty, [p].filter fun w => !w.isEmpty, List.filter_append .., ?_,
    ?_⟩
  · intro w hw
    rw [List.mem_filter, Bool.not_eq_true', List.isEmpty_eq_false_iff] at hw
    exact (h w hw.1).resolve_left hw.2
  · cases p with
    | nil => exact Or.inl rfl
    | cons b bs => exact Or.inr ⟨type, f, b :: bs, hf, hp, rfl⟩

/-- The bytes of a well-written socket. -/
theorem WellWritten.bytes {out : List Bytes} (h : WellWritten out) :
    ∃ frames : List Bytes, ∃ p : Bytes, out.flatten = frames.flatten ++ p ∧
      (∀ f ∈ frames, ∃ type, IsFrameOf type f) ∧ (p = [] ∨ ∃ type f, IsFrameOf type f ∧ p <+: f) := by
  obtain ⟨frames, last, hsplit, hframes, hlast⟩ := h
  have hflat : out.flatten = frames.flatten ++ last.flatten := by
    rw [← List.flatten_append, ← hsplit, List.flatten_filter_not_isEmpty]
  rcases hlast with rfl | ⟨type, f, p, hf, hp, rfl⟩
  · exact ⟨frames, [], hflat, hframes, Or.inl rfl⟩
  · refine ⟨frames, p, ?_, hframes, Or.inr ⟨type, f, hf, hp⟩⟩
    rw [hflat, List.flatten_singleton]

structure DcWritten (c : DFileConn) : Prop where
  base : DcBase c
  shape : WellWritten c.out
  whole : c.stopped = false → AllWhole c.out

/-- One more write on a connection that is still open. -/
theorem DcWritten.next {c c' : DFileConn} (h : DcWritten c) (hbase : DcBase c')
    {type : DFileFrameType} {f : Bytes} (hframe : IsFrameOf type f)
    (hout : c'.out = c.out ++ (dcWrite env c f).1)
    (hstopped : c.stopped = true → c'.stopped = true)
    (hcut : c'.stopped = false → (dcWrite env c f).2 = .sent ∨ ∀ w ∈ (dcWrite env c f).1, w = []) :
    DcWritten c' := by
  rcases hlive : c.stopped with _ | _
  swap
  · have hsame : c'.out = c.out := by
      rw [hout, dcWrite, if_pos hlive, List.append_nil]
    refine ⟨hbase, hsame ▸ h.shape, fun hopen => ?_⟩
    rw [hstopped hlive] at hopen
    cases hopen
  have hwrite : (dcWrite env c f).1 = [(dcSendLoop (env.send c.out.length) f).1] := by
    rw [dcWrite, if_neg (by simp [hlive])]
  refine ⟨hbase, ?_, ?_⟩
  · rw [hout, hwrite]
    exact (h.whole hlive).append hframe (dcSendLoop_writes _ f).1
  · intro hopen w hw
    rw [hout, List.mem_append] at hw
    rcases hw with hw | hw
    · exact h.whole hlive w hw
    · rcases hcut hopen with hsent | hnone
      · rw [(dcWrite_sent hsent).2, List.mem_singleton] at hw
        exact Or.inr ⟨type, hw ▸ hframe⟩
      · exact Or.inl (hnone w hw)

theorem DcMove.written (hcut : ∀ n, (env.send n).neverCut = true) {c c' : DFileConn}
    (h : DcWritten c) (hm : DcMove sha256Hex env late fr c c') : DcWritten c' := by
  have hbase := hm.base h.base
  have hwrites := hm.writes h.base
  rcases hwrites.out with hsame | ⟨type, f, hframe, -, hout, herror⟩
  · refine ⟨hbase, hsame ▸ h.shape, fun hopen => hsame ▸ h.whole ?_⟩
    by_contra hstop
    rw [hwrites.stopped (by simpa using hstop)] at hopen
    cases hopen
  · refine h.next hbase hframe hout hwrites.stopped fun hopen => ?_
    rcases hres : (dcWrite env c f).2 with _ | _ | message
    · exact Or.inl rfl
    · right
      intro w hw
      unfold dcWrite at hw hres
      split at hw
      · cases hw
      · rename_i hlive
        rw [if_neg hlive] at hres
        rw [List.mem_singleton] at hw
        rw [hw]
        exact dcSendLoop_neverCut _ (hcut _) hres
    · rw [herror message hres] at hopen
      cases hopen

theorem shutdownCommon_out (reason : String) (c : DFileConn) :
    (shutdownCommon env reason c).out = c.out := by
  unfold shutdownCommon
  split
  · rfl
  · show (transFail env false reason false (transFail env true reason false _)).out = _
    rw [transFail_out, transFail_out]

theorem shutdownCommon_state (reason : String) (c : DFileConn) :
    (shutdownCommon env reason c).state = .closing := by
  unfold shutdownCommon
  split
  · assumption
  · show (transFail env false reason false (transFail env true reason false _)).state = _
    rw [transFail_state, transFail_state]

theorem DcMoves.base {c c' : DFileConn} (hm : DcMoves sha256Hex env late fr c c')
    (h : DcBase c) : DcBase c' := by
  induction hm with
  | refl => exact h
  | tail _ hlast ih => exact hlast.base ih

/-- A setting that is cut off takes the connection with it. -/
theorem dcSendLocalSetting_written {c : DFileConn} (h : DcWritten c) (hstate : c.state ≠ .closing) :
    DcWritten (dcSendLocalSetting env c) := by
  have hmoves : DcMoves id env False none c (dcSendLocalSetting env c) :=
    dcSendLocalSetting_moves c hstate
  have hbase := hmoves.base h.base
  have hclosing : ∀ {c₁ : DFileConn} (reason : String),
      (shutdownCommon env reason c₁).stopped = true := fun reason => by
    rw [DFileConn.stopped, shutdownCommon_state]
    simp
  unfold dcSendLocalSetting at hbase ⊢
  split
  · exact h
  rename_i hfirst
  rw [if_neg hfirst] at hbase
  split
  · rename_i hnone
    refine ⟨by simpa only [hnone] using hbase, ?_, fun hopen => ?_⟩
    · rw [shutdownCommon_out]
      exact h.shape
    · rw [hclosing] at hopen
      cases hopen
  rename_i f hf
  obtain ⟨hframe, hcarried⟩ := dfileEncodeSetting_frame hf
  have hsetting : IsFrameOf .setting f := ⟨_, _, _, hframe, hcarried⟩
  simp only [hf, dcSendRaw] at hbase ⊢
  split
  · rename_i heq
    obtain ⟨rfl, hsent⟩ := Prod.mk.inj heq
    simp only [hsent] at hbase
    exact h.next hbase hsetting rfl id fun _ => Or.inl hsent
  · rename_i heq
    obtain ⟨rfl, hint⟩ := Prod.mk.inj heq
    simp only [hint] at hbase
    refine h.next hbase hsetting (shutdownCommon_out _ _) (fun _ => hclosing _) fun hopen => ?_
    rw [hclosing] at hopen
    cases hopen
  · rename_i heq
    obtain ⟨rfl, herror⟩ := Prod.mk.inj heq
    simp only [herror] at hbase
    refine h.next hbase hsetting (shutdownCommon_out _ _) (fun _ => hclosing _) fun hopen => ?_
    rw [hclosing] at hopen
    cases hopen

/-- No poll in a `dc_send` of the event is interrupted after the socket has
taken part of the frame, that of the SETTING frame excepted. -/
def DcNeverCut (_ : DFileConn) : DcEv → Prop
  | .start _ => True
  | e => ∀ n, (e.env.send n).neverCut = true

theorem DFileConn.step_written {c c' : DFileConn} {e : DcEv} (h : DcWritten c ∧ c.Sound)
    (hok : DcNeverCut c e) (hs : c.step sha256Hex e = some c') : DcWritten c' ∧ c'.Sound := by
  have hsound : True ∧ c'.Sound :=
    DFileConn.step_keeps (fun _ => True) True (fun _ => True) (fun _ _ _ => trivial) trivial h.2 trivial
      (fun _ _ _ => trivial) hs
  cases e with
  | start env =>
      refine ⟨?_, hsound.2⟩
      unfold DFileConn.step at hs
      split at hs
      · rename_i henabled
        cases hs
        rw [Bool.and_eq_true, Bool.not_eq_true'] at henabled
        exact dcSendLocalSetting_written h.1 (DFileConn.stopped_eq_false henabled.1).2
      · cases hs
  | _ =>
      exact DFileConn.step_keeps DcWritten True (fun env => ∀ n, (env.send n).neverCut = true)
        (fun hcut hinv hm => hm.written hcut hinv) h.1 h.2 hok (fun _ _ _ => trivial) hs

theorem dcAlloc_base (now : UInt64) (recvDir : Option Bytes) : DcBase (dcAlloc now recvDir) where
  tx := by rintro t ⟨⟩
  rx := by rintro t ⟨⟩
  ready := by rintro ⟨⟩
  block := by rintro ⟨⟩

theorem dcAlloc_sound (now : UInt64) (recvDir : Option Bytes) : (dcAlloc now recvDir).Sound := by
  rintro - t ⟨⟩

/-- **What reaches the socket.** As long as no poll is interrupted in the middle
of a frame, the bytes written are complete frames and at most one partial
frame, with nothing after it. -/
theorem DFileConn.wellWritten {now : UInt64} {recvDir : Option Bytes} {es : List DcEv}
    {c : DFileConn} (hok : Meets (DFileConn.step sha256Hex) DcNeverCut (dcAlloc now recvDir) es)
    (hrun : run (DFileConn.step sha256Hex) (dcAlloc now recvDir) es = some c) :
    WellWritten c.out := by
  have hinit : DcWritten (dcAlloc now recvDir) :=
    ⟨dcAlloc_base now recvDir, ⟨[], [], rfl, (by simp), Or.inl rfl⟩, fun _ _ hw => by cases hw⟩
  exact (run_inv (fun c => DcWritten c ∧ c.Sound) DcNeverCut
    (fun _ _ _ h hok hs => DFileConn.step_written h hok hs) ⟨hinit, dcAlloc_sound now recvDir⟩ hok
    hrun).1.shape

end

/-! ### A header cut off by a signal -/

/-- One-byte files on a disk without errors. -/
def oneByteEnv (now : UInt64) (send : ℕ → DcSocket) : DcEnv where
  now := now
  send := send
  strerror := ""
  openRead := fun _ => true
  fstat := fun _ => some 1
  pread := fun _ _ want => some (List.replicate want 65)
  openWrite := fun _ _ => true
  ftruncate := fun _ _ => true
  pwrite := fun _ _ _ => true

/-- The socket takes the frame in one piece. -/
def dcTakesAll : DcSocket := .accept dfileFrameMaxLen (.error "")

/-- The socket takes one byte, then the poll is interrupted. -/
def dcTakesOne : DcSocket := .accept 0 .interrupted

def oneByteItem : DFileSendItem := ⟨ascii "/f", some (ascii "f"), 0⟩

/-- The setting of a peer that runs the same program. -/
def dcPeerSetting : Bytes :=
  (dfileEncodeSetting (dfileFrameHeaderLen + dfileSettingPayloadLen) dcLocalSetting).getD []

/-- Negotiate, then send a file, twice; `send` is for the first header. -/
def sendTwice (send : DcSocket) : List DcEv :=
  [.start (oneByteEnv 0 fun _ => dcTakesAll),
    .read (oneByteEnv 0 fun _ => dcTakesAll) dcPeerSetting,
    .sendFiles (oneByteEnv 0 fun _ => send) [oneByteItem],
    .sendFiles (oneByteEnv 0 fun _ => dcTakesAll) [oneByteItem]]

theorem DFileConn.wellWritten_sendTwice :
    ∃ c, run (DFileConn.step id) (dcAlloc 0 none) (sendTwice dcTakesAll) = some c ∧
      WellWritten c.out := by
  obtain ⟨c, hrun⟩ := Option.isSome_iff_exists.mp (show
    (run (DFileConn.step id) (dcAlloc 0 none) (sendTwice dcTakesAll)).isSome = true by
      decide +kernel)
  have hnever : ∀ n : ℕ, ((fun _ => dcTakesAll) n).neverCut = true := fun _ => rfl
  have hok : Meets (DFileConn.step id) DcNeverCut (dcAlloc 0 none) (sendTwice dcTakesAll) :=
    ⟨trivial, fun _ _ => ⟨hnever, fun _ _ => ⟨hnever, fun _ _ => ⟨hnever, fun _ _ => trivial⟩⟩⟩⟩
  exact ⟨c, hrun, DFileConn.wellWritten hok hrun⟩

/-- **An interrupted poll leaves a partial frame behind**, and the connection
writes on. -/
theorem DFileConn.not_wellWritten :
    ¬ ∀ (sha256Hex : Bytes → Bytes) (now : UInt64) (recvDir : Option Bytes) (es : List DcEv)
        (c : DFileConn), run (DFileConn.step sha256Hex) (dcAlloc now recvDir) es = some c →
      WellWritten c.out := by
  intro h
  obtain ⟨c, hrun, hout⟩ := Option.map_eq_some_iff.mp (show
    (run (DFileConn.step id) (dcAlloc 0 none) (sendTwice dcTakesOne)).map
      (fun c => (c.out.filter fun w => !w.isEmpty).map List.length) = some [108, 1, 23] by
        decide +kernel)
  obtain ⟨frames, last, hsplit, hframes, hlast⟩ := h id 0 none _ c hrun
  rw [hsplit, List.map_append] at hout
  have hshort : 1 ∈ frames.map List.length := by
    rcases hlast with rfl | ⟨-, -, p, -, -, rfl⟩
    · rw [List.map_nil, List.append_nil] at hout
      rw [hout]
      decide
    · have hfront : frames.map List.length = [108, 1] :=
        (List.append_inj' (hout.trans (show _ = [108, 1] ++ [23] from rfl)) rfl).1
      rw [hfront]
      decide
  obtain ⟨w, hw, hlen⟩ := List.mem_map.mp hshort
  obtain ⟨type, flag, transId, p, rfl, -⟩ := hframes w hw
  rw [frame_length, dfileFrameHeaderLen] at hlen
  omega

end HwPhoneLink.DFile
