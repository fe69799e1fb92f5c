import HwPhoneLink.DFile.Output

/-!
# Headers from the peer

What a FILE_HEADER frame can make the receiver do: divide by the block size
before there is one, and open a path of the peer's choice.
-/

namespace HwPhoneLink.DFile

open BigEndian Path Framing Transitions HwPhoneLink.Testfile

/-- The frame completes a list of entries before the peer's setting has come, and
the file of the first entry can be made. -/
def DividesByZero (env : DcEnv) (c : DFileConn) (frame : Bytes) : Prop :=
  ∃ h t he hes dir, dfileDecodeFileHeader frame = some h ∧ h.nodeNumber ≠ 0 ∧
    ((c.rx = none ∧ t = { transNew false h.transId env.now with nodeNumber := h.nodeNumber }) ∨
      (c.rx = some t ∧ t.phase = .idle ∧ t.transId = h.transId ∧ t.nodeNumber = h.nodeNumber)) ∧
    rxAddEntries h.nodeNumber.toNat t.hdr h.entries = (he :: hes, true) ∧
    h.nodeNumber.toNat ≤ (he :: hes).length ∧
    c.recvDir = some dir ∧ he.fileSize.toNat ≤ dfileMaxFileSize ∧
    env.openWrite c.opened.length (join dir he.name) = true ∧
    env.ftruncate c.opened.length (join dir he.name) = true ∧ c.blockSize = 0

structure DivSafe (c : DFileConn) : Prop where
  base : DcBase c
  crash : c.crash ≠ some .divideByZero

section
variable {sha256Hex : Bytes → Bytes} {env : DcEnv} {late : Prop} {fr : Option Bytes}

theorem dcSend_crash_cases (c : DFileConn) (f : Bytes) :
    (dcSend env c f).1.crash = c.crash ∨ (dcSend env c f).1.crash = some .nullStore := by
  simp only [dcSend, dcSendRaw]
  split
  · exact Or.inr rfl
  · exact Or.inl rfl

theorem DcMove.crash_cases (hfr : ∀ frame, fr = some frame → dfileDecodeFileHeader frame = none)
    {c c' : DFileConn} (hm : DcMove sha256Hex env late fr c c') (h : DcBase c) :
    c'.crash = c.crash ∨ c'.crash = some .nullStore := by
  cases hm with
  | send => exact dcSend_crash_cases _ _
  | fail isSender reason sendRst =>
      rcases transFail_spec env isSender reason sendRst c with hsame |
        ⟨t, w, crash, -, -, -, hcrash, heq⟩
      · rw [hsame]
        exact Or.inl rfl
      · rw [heq]
        exact hcrash
  | crash hblock hcause =>
      rcases hcause with hready | ⟨frame, x, hf, hx⟩
      · exact absurd hblock (h.block (h.ready hready))
      · rw [hfr _ hf] at hx
        cases hx
  | newBlock => exact dcSend_crash_cases _ _
  | retran => exact dcSend_crash_cases _ _
  | finish => exact dcSend_crash_cases _ _
  | waitData => exact dcSend_crash_cases _ _
  | flush => exact dcSend_crash_cases _ _
  | done => exact dcSend_crash_cases _ _
  | _ => exact Or.inl rfl

theorem DivSafe.moves (hfr : ∀ frame, fr = some frame → dfileDecodeFileHeader frame = none)
    {c c' : DFileConn} (h : DivSafe c) (hm : DcMoves sha256Hex env late fr c c') : DivSafe c' := by
  induction hm with
  | refl => exact h
  | tail _ hlast ih =>
      refine ⟨hlast.base ih.base, ?_⟩
      rcases hlast.crash_cases hfr ih.base with hsame | hnull
      · rw [hsame]
        exact ih.crash
      · rw [hnull]
        simp

theorem DivSafe.quiet {c c' : DFileConn} (h : DivSafe c)
    (hm : DcMoves id env True none c c') : DivSafe c' :=
  h.moves (fun _ hf => by cases hf) hm

/-- Without a block size, a file is never opened to the end. -/
theorem rxOpenFile_zero (dir : Bytes) (opened : List Bytes) (he : DFileHeaderEntry) :
    (∀ f, (rxOpenFile env dir 0 opened he).2 ≠ .ok f) ∧
      ((rxOpenFile env dir 0 opened he).2 = .crashed ↔
        he.fileSize.toNat ≤ dfileMaxFileSize ∧
          env.openWrite opened.length (join dir he.name) = true ∧
          env.ftruncate opened.length (join dir he.name) = true) := by
  by_cases hsize : he.fileSize.toNat > dfileMaxFileSize
  · simp [rxOpenFile, hsize, Nat.not_le.mpr hsize]
  rcases hopen : env.openWrite opened.length (join dir he.name) with _ | _
  · simp [rxOpenFile, hsize, hopen]
  rcases htrunc : env.ftruncate opened.length (join dir he.name) with _ | _
  · simp [rxOpenFile, hsize, hopen, htrunc]
  · simp [rxOpenFile, hsize, hopen, htrunc, Nat.le_of_not_gt hsize]

theorem rxOpenFiles_zero {dir : Bytes} {opened : List Bytes} {files : List DCFile}
    {he : DFileHeaderEntry} {hes : List DFileHeaderEntry} :
    (rxOpenFiles env dir 0 opened files (he :: hes)).2.2 = .crashed ↔
      he.fileSize.toNat ≤ dfileMaxFileSize ∧
        env.openWrite opened.length (join dir he.name) = true ∧
        env.ftruncate opened.length (join dir he.name) = true := by
  obtain ⟨hno, hcrash⟩ := @rxOpenFile_zero env dir opened he
  rw [← hcrash]
  rcases hr : rxOpenFile env dir 0 opened he with ⟨opened', f | why | -⟩
  · exact absurd (by rw [hr]) (hno f)
  · simp [rxOpenFiles, hr]
  · simp [rxOpenFiles, hr]

/-- A complete header list is opened, without a division by zero unless the frame
is one that divides. -/
theorem rxHeaderComplete_divSafe {t : DCTrans} {c : DFileConn} {frame : Bytes}
    {h : DFileHeaderFrame} (hsafe : DivSafe c) (hframe : dfileDecodeFileHeader frame = some h)
    (hrx : c.rx = some t) (hnode : t.nodeNumber.toNat ≤ t.hdr.length) (hidle : c.Unopened)
    (hno : ∀ he hes dir, c.blockSize = 0 → t.phase = .idle → t.hdr = he :: hes →
      c.recvDir = some dir → he.fileSize.toNat ≤ dfileMaxFileSize →
      env.openWrite c.opened.length (join dir he.name) = true →
      env.ftruncate c.opened.length (join dir he.name) = false) :
    DivSafe (rxHeaderComplete env c) := by
  simp only [rxHeaderComplete, hrx]
  split
  · exact hsafe
  rename_i hphase
  rw [not_not] at hphase
  split
  · exact hsafe.quiet (transFail_moves false _ false c)
  rename_i dir hdir
  have hfiles := hidle t hrx hphase
  obtain ⟨new, hnew, -, hok, hcrash, -⟩ :=
    rxOpenFiles_spec env dir c.blockSize t.hdr c.opened t.files
  have hopen : DcMove id env True (some frame) c _ :=
    .opened rfl hframe hrx hphase hnode hfiles hdir
  have hopened : DivSafe _ := ⟨hopen.base hsafe.base, hsafe.crash⟩
  split
  · rename_i hres
    have hblock := hcrash hres
    cases hhdr : t.hdr with
    | nil =>
        rw [hhdr, rxOpenFiles] at hres
        cases hres
    | cons he hes =>
        rw [hhdr, hblock, rxOpenFiles_zero] at hres
        have hbad := hno he hes dir hblock hphase hhdr hdir hres.1 hres.2.1
        rw [hres.2.2] at hbad
        cases hbad
  · refine hopened.quiet (DFileConn.andThen_moves (dcSendRst_moves _ _ [] _) fun _ => ?_)
    exact transFail_moves false _ false _
  · rename_i hres
    have hids := hok hres
    rw [← List.nil_append new, ← hfiles, ← hnew] at hids
    refine @DivSafe.quiet env _ _ hopened ((DcMove.fileList rfl).moves.trans ?_)
    exact rxConfirm_moves rfl hphase hnode hids

theorem handleFileHeader_divSafe {frame : Bytes} {c : DFileConn} (hsafe : DivSafe c)
    (hidle : c.Unopened) (hno : ¬ DividesByZero env c frame) :
    DivSafe (handleFileHeader env frame c) := by
  unfold handleFileHeader
  split
  · exact hsafe
  rename_i hopen
  split
  · exact hsafe.quiet (shutdownCommon_moves _ c)
  rename_i h hframe
  split
  · exact hsafe.quiet (shutdownCommon_moves _ c)
  rename_i hnode
  -- both branches add the entries to a transfer of the frame's number
  have hadd : ∀ t, ((c.rx = none ∧
        t = { transNew false h.transId env.now with nodeNumber := h.nodeNumber }) ∨
      (c.rx = some t ∧ t.phase ≠ .failed ∧ t.phase ≠ .rxDone ∧ t.transId = h.transId ∧
        t.nodeNumber = h.nodeNumber)) → DivSafe (rxAddHeader env h t c) := by
    intro t ht
    have hsame : t.nodeNumber = h.nodeNumber := by
      rcases ht with ⟨-, rfl⟩ | ht
      · rfl
      · exact ht.2.2.2.2
    have hfiles : t.phase = .idle → t.files = [] := by
      rcases ht with ⟨-, rfl⟩ | ht
      · exact fun _ => rfl
      · exact hidle t ht.1
    have hmove : DcMove id env True (some frame) c _ := .header rfl hframe hnode ht
    have hadded : DivSafe _ := ⟨hmove.base hsafe.base, hsafe.crash⟩
    simp only [rxAddHeader]
    split
    · rename_i hfits
      split
      · rename_i hfull
        refine rxHeaderComplete_divSafe hadded hframe rfl (hsame ▸ hfull) ?_ ?_
        · rintro t' ht' hphase
          cases ht'
          exact hfiles hphase
        · intro he hes dir hblock hphase hhdr hdir hsize hcreate
          by_contra htrunc
          rw [Bool.not_eq_false] at htrunc
          refine hno ⟨h, t, he, hes, dir, hframe, hnode, ?_, ?_, ?_, hdir, hsize, hcreate, htrunc,
            hblock⟩
          · exact ht.imp_right fun ht => ⟨ht.1, hphase, ht.2.2.2⟩
          · exact Prod.ext hhdr hfits
          · rw [← hhdr]
            exact hfull
      · exact hadded
    · exact hadded.quiet (shutdownCommon_moves _ _)
  split
  · rename_i hrx
    exact hadd _ (Or.inl ⟨hrx, rfl⟩)
  · rename_i t hrx
    split
    · exact hsafe.quiet (shutdownCommon_moves _ c)
    · rename_i hmatch
      rw [not_or, not_not, not_not] at hmatch
      have hlive : ¬ (t.phase = .failed ∨ t.phase = .rxDone) := by simpa [hrx] using hopen
      rw [not_or] at hlive
      exact hadd t (Or.inr ⟨hrx, hlive.1, hlive.2, hmatch.1, hmatch.2⟩)

theorem handleFrame_fileHeader {frame : Bytes} {c : DFileConn} {h : DFileHeaderFrame}
    (hh : dfileDecodeFileHeader frame = some h) :
    handleFrame env frame c = handleFileHeader env frame c := by
  obtain ⟨⟨head, p⟩, hp, -⟩ := Option.bind_eq_some_iff.mp hh
  obtain ⟨hunpack, htype, -⟩ := framePayload_some hp
  simp only [handleFrame, hunpack, htype, DFileFrameType.ofCode_code]

theorem handleFrame_divSafe {frame : Bytes} {c : DFileConn} (hsafe : DivSafe c)
    (hidle : c.Unopened) (hopen : c.stopped = false) (hno : ¬ DividesByZero env c frame) :
    DivSafe (handleFrame env frame c) := by
  rcases hheader : dfileDecodeFileHeader frame with _ | h
  · have hm : DcMoves id env True (some frame) c (handleFrame env frame c) :=
      handleFrame_moves hidle (DFileConn.stopped_eq_false hopen).2
    refine hsafe.moves ?_ hm
    rintro f ⟨⟩
    exact hheader
  · rw [handleFrame_fileHeader hheader]
    exact handleFileHeader_divSafe hsafe hidle hno

/-- The condition is exact: such a frame does divide. -/
theorem handleFrame_divides {frame : Bytes} {c : DFileConn} (h : DividesByZero env c frame) :
    (handleFrame env frame c).crash = some .divideByZero := by
  obtain ⟨x, t, he, hes, dir, hframe, hnode, ht, hadd, hfull, hdir, hsize, hcreate, htrunc, hblock⟩ :=
    h
  have hcrash : ∀ files, (rxOpenFiles env dir 0 c.opened files (he :: hes)).2.2 = .crashed :=
    fun _ => rxOpenFiles_zero.mpr ⟨hsize, hcreate, htrunc⟩
  have hadded : t.phase = .idle → (rxAddHeader env x t c).crash = some .divideByZero := by
    intro hphase
    simp only [rxAddHeader, hadd, if_true, ge_iff_le, hfull, rxHeaderComplete, hphase, ne_eq,
      not_true_eq_false, if_false, hdir, hblock, hcrash]
  rw [handleFrame_fileHeader hframe]
  rcases ht with ⟨hrx, rfl⟩ | ⟨hrx, hphase, htrans, hsame⟩
  · simp only [handleFileHeader, hrx, Option.any_none, Bool.false_eq_true, if_false, hframe, hnode]
    exact hadded rfl
  · simp only [handleFileHeader, hrx, Option.any_some, hphase, hframe, hnode, htrans, hsame,
      ne_eq, not_true_eq_false, or_self, if_false, reduceCtorEq, decide_false, Bool.false_eq_true]
    exact hadded hphase

/-- No frame of the event divides by zero. -/
def DcNoEarlyHeader (c : DFileConn) (e : DcEv) : Prop :=
  ∀ d ∈ e.dispatches c, ¬ DividesByZero d.2.1 d.1 d.2.2

theorem DFileConn.step_divSafe {c c' : DFileConn} {e : DcEv} (h : DivSafe c ∧ c.Sound)
    (hok : DcNoEarlyHeader c e) (hs : c.step sha256Hex e = some c') : DivSafe c' ∧ c'.Sound := by
  refine DFileConn.step_keeps_where DivSafe True (fun _ => True)
    (fun env c frame => ¬ DividesByZero env c frame) ?_ ?_ h.1 h.2 trivial hok
    (fun _ _ _ => trivial) hs
  · intro env c c' _ hc hm
    exact hc.moves (fun _ hf => by cases hf) hm.moves
  · intro env c frame _ hc hidle hopen hno
    exact handleFrame_divSafe hc hidle hopen hno

/-- **No division by zero**, as long as no list of entries is complete before the
peer's setting. -/
theorem DFileConn.no_divideByZero {now : UInt64} {recvDir : Option Bytes} {es : List DcEv}
    {c : DFileConn} (hok : Meets (DFileConn.step sha256Hex) DcNoEarlyHeader (dcAlloc now recvDir) es)
    (hrun : run (DFileConn.step sha256Hex) (dcAlloc now recvDir) es = some c) :
    c.crash ≠ some .divideByZero := by
  have hinit : DivSafe (dcAlloc now recvDir) := ⟨dcAlloc_base now recvDir, by simp [dcAlloc]⟩
  exact (run_inv (fun c => DivSafe c ∧ c.Sound) DcNoEarlyHeader
    (fun _ _ _ h hok hs => DFileConn.step_divSafe h hok hs) ⟨hinit, dcAlloc_sound now recvDir⟩ hok
    hrun).1.crash

/-- What holds of every frame that a run dispatches is a condition its steps
meet. -/
theorem DFileConn.meets_dispatches {P : DFileConn × DcEnv × Bytes → Prop} (es : List DcEv) :
    ∀ {c t : DFileConn}, run (DFileConn.step sha256Hex) c es = some t →
      (∀ d ∈ c.dispatches sha256Hex es, P d) →
      Meets (DFileConn.step sha256Hex) (fun c e => ∀ d ∈ e.dispatches c, P d) c es := by
  induction es with
  | nil => intro c t _ _; trivial
  | cons e es ih =>
      intro c t hrun h
      obtain ⟨c₁, hs, hrest⟩ := run_cons_eq_some hrun
      simp only [DFileConn.dispatches, hs] at h
      refine ⟨fun d hd => h d (List.mem_append_left _ hd), fun c₂ hs₂ => ?_⟩
      obtain rfl : c₁ = c₂ := Option.some.inj (hs.symm.trans hs₂)
      exact ih hrest fun d hd => h d (List.mem_append_right _ hd)

/-! ## Paths -/

/-- A name that a header frame of the run carries. -/
def PeerName (ds : List (DFileConn × DcEnv × Bytes)) (name : Bytes) : Prop :=
  ∃ d ∈ ds, ∃ h e, dfileDecodeFileHeader d.2.2 = some h ∧ e ∈ h.entries ∧ e.name = name

/-- Every path that was opened is the directory and a name with `Q`. -/
structure Opens (recvDir : Option Bytes) (Q : Bytes → Prop) (c : DFileConn) : Prop where
  fixed : c.recvDir = recvDir
  hdr : ∀ t, c.rx = some t → ∀ e ∈ t.hdr, Q e.name
  opened : ∀ p ∈ c.opened, ∃ dir name, recvDir = some dir ∧ Q name ∧ p = join dir name

theorem rxOpenFiles_opened (env : DcEnv) (dir : Bytes) (blockSize : ℕ)
    (hes : List DFileHeaderEntry) : ∀ (opened : List Bytes) (files : List DCFile),
      ∀ p ∈ (rxOpenFiles env dir blockSize opened files hes).1,
        p ∈ opened ∨ ∃ e ∈ hes, p = join dir e.name := by
  induction hes with
  | nil => intro opened files p hp; exact Or.inl hp
  | cons he hes ih =>
      intro opened files p hp
      have hone : ∀ p ∈ (rxOpenFile env dir blockSize opened he).1,
          p ∈ opened ∨ p = join dir he.name := by
        intro p hp
        unfold rxOpenFile at hp
        simp only at hp
        split at hp
        · exact Or.inl hp
        split at hp
        · simpa using hp
        split at hp
        · simpa using hp
        split at hp <;> simpa using hp
      have hfirst : p ∈ (rxOpenFile env dir blockSize opened he).1 →
          p ∈ opened ∨ ∃ e ∈ he :: hes, p = join dir e.name := fun hp =>
        (hone p hp).imp_right fun h => ⟨he, by simp, h⟩
      rcases hr : rxOpenFile env dir blockSize opened he with ⟨opened', f | why | -⟩
      · simp only [rxOpenFiles, hr] at hp
        rcases ih opened' (files ++ [f]) p hp with hp | ⟨e, he', hp⟩
        · exact hfirst (by rw [hr]; exact hp)
        · exact Or.inr ⟨e, List.mem_cons_of_mem _ he', hp⟩
      · simp only [rxOpenFiles, hr] at hp
        exact hfirst (by rw [hr]; exact hp)
      · simp only [rxOpenFiles, hr] at hp
        exact hfirst (by rw [hr]; exact hp)

theorem rxAddEntries_mem (node : ℕ) (es : List DFileHeaderEntry) :
    ∀ {hdr : List DFileHeaderEntry}, ∀ e ∈ (rxAddEntries node hdr es).1, e ∈ hdr ∨ e ∈ es := by
  induction es with
  | nil => intro hdr e he; exact Or.inl he
  | cons x es ih =>
      intro hdr e he
      unfold rxAddEntries at he
      split at he
      · exact (ih e he).imp_right (List.mem_cons_of_mem _)
      split at he
      · exact Or.inl he
      rcases ih e he with he | he
      · rcases List.mem_append.mp he with he | he
        · exact Or.inl he
        · exact Or.inr (List.mem_singleton.mp he ▸ List.mem_cons_self)
      · exact Or.inr (List.mem_cons_of_mem _ he)

theorem DcMove.opens {recvDir : Option Bytes} {Q : Bytes → Prop}
    (hfr : ∀ frame h, fr = some frame → dfileDecodeFileHeader frame = some h →
      ∀ e ∈ h.entries, Q e.name) {c c' : DFileConn} (h : Opens recvDir Q c)
    (hm : DcMove sha256Hex env late fr c c') : Opens recvDir Q c' := by
  have hkeep : ∀ {t t' : DCTrans}, c.rx = some t → t'.hdr = t.hdr →
      ∀ u, some t' = some u → ∀ e ∈ u.hdr, Q e.name := by
    rintro t t' ht hhdr u ⟨⟩ e he
    exact h.hdr t ht e (hhdr ▸ he)
  cases hm with
  | fail isSender reason sendRst =>
      rcases transFail_spec env isSender reason sendRst c with hsame | ⟨t, w, crash, ht, -, -, -, heq⟩
      · rw [hsame]
        exact h
      · rw [heq]
        cases isSender
        · exact ⟨h.fixed, hkeep ht rfl, h.opened⟩
        · exact ⟨h.fixed, h.hdr, h.opened⟩
  | header hf hframe _ hfrom =>
      refine ⟨h.fixed, ?_, h.opened⟩
      rintro u ⟨⟩ e he
      rcases rxAddEntries_mem _ _ e he with he | he
      · rcases hfrom with ⟨-, rfl⟩ | ⟨ht, -⟩
        · cases he
        · exact h.hdr _ ht e he
      · exact hfr _ _ hf hframe e he
  | opened _ _ ht _ _ _ hdir =>
      refine ⟨h.fixed, hkeep ht rfl, ?_⟩
      intro p hp
      rcases rxOpenFiles_opened _ _ _ _ _ _ p hp with hp | ⟨e, he, rfl⟩
      · exact h.opened p hp
      · exact ⟨_, e.name, h.fixed ▸ hdir, h.hdr _ ht e he, rfl⟩
  | waitData ht => exact ⟨h.fixed, hkeep ht rfl, h.opened⟩
  | write _ _ ht => exact ⟨h.fixed, hkeep ht rfl, h.opened⟩
  | flushNone ht => exact ⟨h.fixed, hkeep ht rfl, h.opened⟩
  | flush ht => exact ⟨h.fixed, hkeep ht rfl, h.opened⟩
  | digest ht => exact ⟨h.fixed, hkeep ht rfl, h.opened⟩
  | done ht => exact ⟨h.fixed, hkeep ht rfl, h.opened⟩
  | doneack _ ht => exact ⟨h.fixed, hkeep ht rfl, h.opened⟩
  | _ => exact ⟨h.fixed, h.hdr, h.opened⟩

theorem DFileConn.step_opens {recvDir : Option Bytes} {Q : Bytes → Prop} {c c' : DFileConn}
    {e : DcEv} (h : Opens recvDir Q c ∧ c.Sound)
    (hok : ∀ d ∈ e.dispatches c, ∀ x, dfileDecodeFileHeader d.2.2 = some x →
      ∀ y ∈ x.entries, Q y.name)
    (hs : c.step sha256Hex e = some c') : Opens recvDir Q c' ∧ c'.Sound := by
  refine DFileConn.step_keeps_where (Opens recvDir Q) True (fun _ => True)
    (fun _ _ frame => ∀ x, dfileDecodeFileHeader frame = some x → ∀ y ∈ x.entries, Q y.name)
    ?_ ?_ h.1 h.2 trivial hok (fun _ _ _ => trivial) hs
  · intro env c c' _ hc hm
    exact hm.opens (fun _ _ hf => by cases hf) hc
  · intro env c frame _ hc hidle hopen hnames
    have hmoves : ∀ {c'}, DcMoves id env True (some frame) c c' → Opens recvDir Q c' := by
      intro c' hm
      induction hm with
      | refl => exact hc
      | tail _ hlast ih =>
          refine hlast.opens ?_ ih
          rintro f x ⟨⟩ hx
          exact hnames x hx
    exact hmoves (handleFrame_moves hidle (DFileConn.stopped_eq_false hopen).2)

/-- **What the receiver opens.** In every run each path opened for writing is the
receive directory joined with a name that the peer's headers carry, and it lies
directly inside the directory exactly if the name comes back to it. -/
theorem DFileConn.opened_inside {now : UInt64} {dir : Bytes} {es : List DcEv} {c : DFileConn}
    (hrun : run (DFileConn.step sha256Hex) (dcAlloc now (some dir)) es = some c) {p : Bytes}
    (hp : p ∈ c.opened) (cwd : List Bytes) :
    ∃ name, PeerName ((dcAlloc now (some dir)).dispatches sha256Hex es) name ∧ p = join dir name ∧
      (DirectlyInside cwd dir p ↔ ComesBack (resolve cwd (dir ++ [slash])) name) := by
  set ds := (dcAlloc now (some dir)).dispatches sha256Hex es with hds
  have hinit : Opens (some dir) (PeerName ds) (dcAlloc now (some dir)) :=
    ⟨rfl, (by rintro t ⟨⟩), (by rintro p ⟨⟩)⟩
  have hmeets := DFileConn.meets_dispatches (P := fun d => ∀ x, dfileDecodeFileHeader d.2.2 = some x →
      ∀ y ∈ x.entries, PeerName ds y.name) es hrun
    fun d hd x hx y hy => ⟨d, hd, x, y, hx, hy, rfl⟩
  have h := (run_inv (fun c => Opens (some dir) (PeerName ds) c ∧ c.Sound) _
    (fun _ _ _ h hok hs => DFileConn.step_opens h hok hs) ⟨hinit, dcAlloc_sound now (some dir)⟩
    hmeets hrun).1
  obtain ⟨dir', name, hdir, hname, rfl⟩ := h.opened p hp
  cases hdir
  exact ⟨name, hname, rfl, directlyInside_join cwd dir name⟩

end

/-! ### A header before the setting, and a name that leads out -/

/-- What a peer sends for one one-byte file, up to its data. -/
def oneByteHeader (transId : UInt16) (name : Bytes) : Bytes :=
  ((dfileEncodeFileHeader (dfileFrameMaxSize + 16) transId 1 [⟨1, 1, name⟩] 0 1).map
    Prod.fst).getD []

/-- The peer's first frames. -/
def peerFrames (frames : List Bytes) : List DcEv :=
  let env := oneByteEnv 0 fun _ => dcTakesAll
  .start env :: frames.map fun f => .read env f

theorem dcNoEarlyHeader_of_block {c : DFileConn} {e : DcEv}
    (h : ((e.dispatches c).all fun d =>
      decide (d.1.blockSize ≠ 0) || (dfileDecodeFileHeader d.2.2).isNone) = true) :
    DcNoEarlyHeader c e := by
  rintro d hd ⟨x, t, he, hes, dir, hframe, -, -, -, -, -, -, -, -, hblock⟩
  have hd' := List.all_eq_true.mp h d hd
  rw [hframe, hblock] at hd'
  cases hd'

theorem DFileConn.no_divideByZero_setting :
    ∃ c, run (DFileConn.step id) (dcAlloc 0 (some (ascii "/d")))
        (peerFrames [dcPeerSetting, oneByteHeader 1 (ascii "f")]) = some c ∧ c.opened = [ascii "/d/f"] ∧
      c.crash ≠ some .divideByZero := by
  obtain ⟨c, hrun, hopened⟩ := Option.map_eq_some_iff.mp (show
    (run (DFileConn.step id) (dcAlloc 0 (some (ascii "/d")))
      (peerFrames [dcPeerSetting, oneByteHeader 1 (ascii "f")])).map (fun c => c.opened) =
        some [ascii "/d/f"] by decide +kernel)
  have hok : Meets (DFileConn.step id) DcNoEarlyHeader (dcAlloc 0 (some (ascii "/d")))
      (peerFrames [dcPeerSetting, oneByteHeader 1 (ascii "f")]) :=
    meets_of_test (fun _ _ => dcNoEarlyHeader_of_block) _ (by decide +kernel)
  exact ⟨c, hrun, hopened, DFileConn.no_divideByZero hok hrun⟩

/-- **A header that comes before the setting divides by zero.** -/
theorem DFileConn.not_no_divideByZero :
    ¬ ∀ (sha256Hex : Bytes → Bytes) (now : UInt64) (recvDir : Option Bytes) (es : List DcEv)
        (c : DFileConn), run (DFileConn.step sha256Hex) (dcAlloc now recvDir) es = some c →
      c.crash ≠ some .divideByZero := by
  intro h
  obtain ⟨c, hrun, hcrash⟩ := Option.map_eq_some_iff.mp (show
    (run (DFileConn.step id) (dcAlloc 0 (some (ascii "/d"))) (peerFrames [oneByteHeader 1 (ascii "f")])).map
      (fun c => c.crash) = some (some .divideByZero) by decide +kernel)
  exact h id 0 _ _ c hrun hcrash

theorem DFileConn.opened_inside_plain :
    ∃ c, run (DFileConn.step id) (dcAlloc 0 (some (ascii "/d")))
        (peerFrames [dcPeerSetting, oneByteHeader 1 (ascii "f")]) = some c ∧
      ∃ p ∈ c.opened, ∃ name,
        PeerName ((dcAlloc 0 (some (ascii "/d"))).dispatches id
          (peerFrames [dcPeerSetting, oneByteHeader 1 (ascii "f")])) name ∧
        p = join (ascii "/d") name ∧
        (DirectlyInside [] (ascii "/d") p ↔ ComesBack (resolve [] (ascii "/d" ++ [slash])) name) := by
  obtain ⟨c, hrun, hopened⟩ := Option.map_eq_some_iff.mp (show
    (run (DFileConn.step id) (dcAlloc 0 (some (ascii "/d")))
      (peerFrames [dcPeerSetting, oneByteHeader 1 (ascii "f")])).map (fun c => c.opened) =
        some [ascii "/d/f"] by decide +kernel)
  have hmem : ascii "/d/f" ∈ c.opened := by simp [hopened]
  exact ⟨c, hrun, _, hmem, DFileConn.opened_inside hrun hmem []⟩

/-- **A name with `..` leads out of the directory.** -/
theorem DFileConn.not_opened_inside :
    ¬ ∀ (sha256Hex : Bytes → Bytes) (now : UInt64) (dir : Bytes) (es : List DcEv) (c : DFileConn),
      run (DFileConn.step sha256Hex) (dcAlloc now (some dir)) es = some c →
      ∀ p ∈ c.opened, ∀ cwd, DirectlyInside cwd dir p := by
  intro h
  obtain ⟨c, hrun, hopened⟩ := Option.map_eq_some_iff.mp (show
    (run (DFileConn.step id) (dcAlloc 0 (some (ascii "/d")))
      (peerFrames [dcPeerSetting, oneByteHeader 1 (ascii "../x")])).map (fun c => c.opened) =
        some [ascii "/d/../x"] by decide +kernel)
  obtain ⟨n, hn⟩ := h id 0 _ _ c hrun (ascii "/d/../x") (by simp [hopened]) []
  have hout : resolve [] (ascii "/d/../x") = [ascii "x"] := by decide +kernel
  have hdir : resolve [] (ascii "/d" ++ [slash]) = [ascii "d"] := by decide +kernel
  rw [hout, hdir] at hn
  cases hn

end HwPhoneLink.DFile
