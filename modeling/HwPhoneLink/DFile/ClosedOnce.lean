import HwPhoneLink.DFile.Descriptors
import Mathlib.Algebra.Order.BigOperators.Group.List
import Mathlib.Data.List.Forall2

/-!
# Every descriptor is closed once

Between two events the open numbers are those that the files of the two transfers hold. A
file that is complete, or that could not be opened, holds none. The numbers that are held
are closed by the teardown.
-/

namespace HwPhoneLink.DFile

open BigEndian Path Framing Transitions Descriptors HwPhoneLink.Testfile

variable {ι : Type*} [DecidableEq ι] {os : Os ι} {env : DcEnv} {start : Kernel ι} {ok : Prop}

/-! ## The open numbers -/

/-- The calls led from `start` to the kernel, and cleanly if `ok`. -/
structure Fds.Good (start : Kernel ι) (ok : Prop) (d : Fds ι) : Prop where
  led : d.kernel = start.execAll d.calls
  clean : ok → Clean start d.calls

/-- Besides, the open numbers are these. -/
structure Fds.Holds (start : Kernel ι) (ok : Prop) (numbers : List ℕ) (d : Fds ι) : Prop where
  good : d.Good start ok
  perm : d.kernel.numbers.Perm numbers
  nodup : numbers.Nodup

section
variable {d : Fds ι} {numbers : List ℕ} {n : ℕ}

theorem Fds.Good.call {c : Call ι} (h : d.Good start ok) (hc : ok → d.kernel.Accepts c) :
    (d.call c).Good start ok where
  led := by
    show d.kernel.exec c = start.execAll (d.calls ++ [c])
    rw [Kernel.execAll_append, ← h.led]
    rfl
  clean hok := clean_append.mpr ⟨h.clean hok, h.led ▸ hc hok, trivial⟩

theorem Fds.Holds.congr {numbers' : List ℕ} (h : d.Holds start ok numbers)
    (hperm : numbers.Perm numbers') : d.Holds start ok numbers' :=
  ⟨h.good, h.perm.trans hperm, hperm.nodup_iff.mp h.nodup⟩

variable (os) in
theorem Fds.Holds.openFile (h : d.Holds start ok numbers) (path : Bytes) (truncate : Bool) :
    (d.openFile os path truncate).2.Holds start ok
      ((d.openFile os path truncate).1 :: numbers) := by
  have hfree : os.next d.calls.length d.kernel.numbers ∉ d.kernel.numbers := os.next_free _ _
  constructor
  · exact h.good.call fun _ => hfree
  · exact h.perm.cons _
  · exact List.nodup_cons.mpr ⟨fun hmem => hfree (h.perm.mem_iff.mpr hmem), h.nodup⟩

/-- A call on an open number that changes the file only. -/
theorem Fds.Holds.change {c : Call ι} (h : d.Holds start ok numbers) (hmem : c.fd ∈ numbers)
    (hc : c.isOpen = false) (hquiet : (d.kernel.exec c).table = d.kernel.table) :
    (d.call c).Holds start ok numbers := by
  constructor
  · apply h.good.call
    intro _
    rw [Kernel.Accepts, hc]
    exact h.perm.mem_iff.mpr hmem
  · show ((d.kernel.exec c).table.map Prod.fst).Perm numbers
    rw [hquiet]
    exact h.perm
  · exact h.nodup

theorem closed_numbers (d : Fds ι) (n : ℕ) :
    (d.call (.closed n)).kernel.numbers = d.kernel.numbers.filter fun m => m ≠ n := by
  show (d.kernel.table.filter _).map Prod.fst = (d.kernel.table.map Prod.fst).filter _
  rw [List.filter_map]
  rfl

theorem Fds.Holds.close (h : d.Holds start ok (n :: numbers)) :
    (d.call (.closed n)).Holds start ok numbers := by
  obtain ⟨hnot, hnodup⟩ := List.nodup_cons.mp h.nodup
  constructor
  · apply h.good.call
    intro _
    exact h.perm.mem_iff.mpr List.mem_cons_self
  · rw [closed_numbers]
    apply (h.perm.filter _).trans
    rw [List.filter_cons_of_neg (by simp), List.filter_eq_self.mpr]
    intro m hm
    exact decide_eq_true fun heq => hnot (heq ▸ hm)
  · exact hnodup

/-- Closing a number that is not open leaves the open ones, but the calls are not clean. -/
theorem Fds.Holds.close_again (h : d.Holds start ok numbers) (hnot : n ∉ numbers) (hok : ¬ ok) :
    (d.call (.closed n)).Holds start ok numbers := by
  constructor
  · exact h.good.call fun h => absurd h hok
  · rw [closed_numbers, List.filter_eq_self.mpr]
    · exact h.perm
    · intro m hm
      exact decide_eq_true fun heq => hnot (heq ▸ h.perm.mem_iff.mp hm)
  · exact h.nodup

theorem heldBy_append (files more : List DcFd) :
    heldBy (files ++ more) = heldBy files ++ heldBy more :=
  List.filterMap_append

theorem dcfileFree_holds {f : DcFd} (h : d.Holds start ok (f.fd.toList ++ numbers)) :
    (dcfileFree d f).Holds start ok numbers := by
  unfold dcfileFree
  split
  · rename_i hfd
    rw [hfd] at h
    exact h
  · rename_i n hfd
    rw [hfd] at h
    exact h.close

theorem transFree_holds (files : List DcFd) : ∀ {d : Fds ι},
    d.Holds start ok (heldBy files ++ numbers) → (transFree d files).Holds start ok numbers := by
  induction files with
  | nil => intro d h; exact h
  | cons f files ih =>
      intro d h
      apply ih
      apply dcfileFree_holds
      rw [← List.append_assoc]
      cases hfd : f.fd with
      | none => rwa [heldBy, List.filterMap_cons_none hfd] at h
      | some n => rwa [heldBy, List.filterMap_cons_some hfd] at h

variable (os env) in
/-- The loop of `send_files_impl` keeps what it has opened in its list. -/
theorem txOpenFds_holds (blockSize : ℕ) (items : List DFileSendItem) :
    ∀ (i : ℕ) (files : List DcFd) (d : Fds ι), d.Holds start ok (heldBy files ++ numbers) →
      let r := txOpenFds os env blockSize i files items d
      r.2.Holds start ok (heldBy r.1 ++ numbers) := by
  induction items with
  | nil => intro i files d h; exact h
  | cons item items ih =>
      intro i files d h
      simp only [txOpenFds]
      split
      · rw [heldBy_append, List.append_assoc]
        exact h
      · have hopened := h.openFile os item.path false
        set r := d.openFile os item.path false
        have hmore : r.2.Holds start ok
            (heldBy (files ++ [⟨UInt16.ofNat (i + 1), item.path, some r.1⟩]) ++ numbers) := by
          apply hopened.congr
          rw [heldBy_append]
          exact List.perm_middle.symm.trans (by rw [List.append_assoc]; rfl)
        split
        · exact ih _ _ _ hmore
        · exact hmore

end

/-! ## Opening the destinations -/

/-- The descriptor of a file that is received into the directory. -/
structure DcFd.Of (dir : Option Bytes) (f : DCFile) (d : DcFd) : Prop where
  fileId : d.fileId = f.fileId
  path : d.path = join (dir.getD []) f.name
  closed : d.fd = none → f.totalBlocks ≤ f.expectedSeq

/-- The destinations that the loop over the entries opens, each with the number of opens
before. -/
def rxOpens (env : DcEnv) (dir : Bytes) (blockSize : ℕ) :
    ℕ → List DFileHeaderEntry → List (ℕ × Bytes)
  | _, [] => []
  | n, he :: hes =>
      let dst := join dir he.name
      if he.fileSize.toNat ≤ dfileMaxFileSize ∧ env.openWrite n dst = true then
        (n, dst) :: if env.ftruncate n dst = true ∧ blockSize ≠ 0 then
          rxOpens env dir blockSize (n + 1) hes else []
      else []

/-- Every destination that is opened can be given its size. -/
def RxSized (env : DcEnv) (dir : Bytes) (blockSize opened : ℕ) (hes : List DFileHeaderEntry) :
    Prop :=
  ∀ p ∈ rxOpens env dir blockSize opened hes, env.ftruncate p.1 p.2 = true

/-- How one open ends, for the connection and for its descriptors. -/
inductive RxOpenFd (start : Kernel ι) (ok : Prop) (dir : Bytes) (numbers : List ℕ)
    (opened : List Bytes) (he : DFileHeaderEntry) :
    List Bytes × DcOpened DCFile → Fds ι × Option DcFd → Prop
  | ok (f : DCFile) (d : Fds ι) (n : ℕ) :
      DcFd.Of (some dir) f.undigested ⟨he.fileId, join dir he.name, some n⟩ →
      d.Holds start ok (n :: numbers) →
      RxOpenFd start ok dir numbers opened he (opened ++ [join dir he.name], .ok f)
        (d, some ⟨he.fileId, join dir he.name, some n⟩)
  | failed (opened' : List Bytes) (why : String) (d : Fds ι) :
      d.Holds start ok numbers →
      RxOpenFd start ok dir numbers opened he (opened', .failed why) (d, none)
  | crashed (opened' : List Bytes) (d : Fds ι) :
      d.Good start ok →
      RxOpenFd start ok dir numbers opened he (opened', .crashed) (d, none)

section
variable {d : Fds ι} {numbers : List ℕ} {dir : Bytes} {blockSize : ℕ}

theorem rxOpenFile_opens {dir : Bytes} {blockSize : ℕ} {opened opened' : List Bytes}
    {he : DFileHeaderEntry} {f : DCFile}
    (h : rxOpenFile env dir blockSize opened he = (opened', .ok f)) :
    (he.fileSize.toNat ≤ dfileMaxFileSize ∧
        env.openWrite opened.length (join dir he.name) = true) ∧
      env.ftruncate opened.length (join dir he.name) = true ∧ blockSize ≠ 0 := by
  simp only [rxOpenFile] at h
  split at h
  · cases h
  rename_i hsize
  split at h
  · cases h
  rename_i hopen
  split at h
  · cases h
  rename_i htrunc
  split at h
  · cases h
  rename_i hblock
  exact ⟨⟨Nat.le_of_not_gt hsize, by simpa using hopen⟩, by simpa using htrunc, hblock⟩

variable (os env blockSize) in
theorem rxOpenFd_holds {opened : List Bytes} {he : DFileHeaderEntry}
    (h : d.Holds start ok numbers)
    (hsized : ok → he.fileSize.toNat ≤ dfileMaxFileSize →
      env.openWrite opened.length (join dir he.name) = true →
      env.ftruncate opened.length (join dir he.name) = true) :
    RxOpenFd start ok dir numbers opened he (rxOpenFile env dir blockSize opened he)
      (rxOpenFd os env dir blockSize opened.length he d) := by
  simp only [rxOpenFile, rxOpenFd]
  by_cases hsize : he.fileSize.toNat > dfileMaxFileSize
  · rw [if_pos hsize, if_pos hsize]
    exact .failed _ _ _ h
  rw [if_neg hsize, if_neg hsize]
  cases hopen : env.openWrite opened.length (join dir he.name) with
  | false => exact .failed _ _ _ h
  | true =>
      have hopened := h.openFile os (join dir he.name) true
      set r := d.openFile os (join dir he.name) true
      simp only [Bool.not_true, Bool.false_eq_true, if_false]
      cases htrunc : env.ftruncate opened.length (join dir he.name) with
      | false =>
          apply RxOpenFd.failed
          have hclosed : (r.2.call (.closed r.1)).Holds start ok numbers := hopened.close
          apply hclosed.close_again (List.nodup_cons.mp hopened.nodup).1
          intro hok
          rw [hsized hok (Nat.le_of_not_gt hsize) hopen] at htrunc
          cases htrunc
      | true =>
          have hpresized : (r.2.call (.resized r.1 he.fileSize.toNat)).Holds start ok
              (r.1 :: numbers) :=
            hopened.change List.mem_cons_self rfl (Kernel.change_table ..)
          simp only [Bool.not_true, Bool.false_eq_true, if_false]
          by_cases hblock : blockSize = 0
          · rw [if_pos hblock, if_pos hblock]
            exact .crashed _ _ hpresized.good
          · rw [if_neg hblock, if_neg hblock]
            exact .ok _ _ _ ⟨rfl, rfl, fun h => by cases h⟩ hpresized

variable (os) in
/-- **Opening the destinations.** The descriptors of the files that are opened are held; the
connection dies where one is lost. -/
theorem rxOpenFds_holds (hes : List DFileHeaderEntry) :
    ∀ (opened : List Bytes) (files : List DCFile) (fds : List DcFd) (d : Fds ι),
      (ok → RxSized env dir blockSize opened.length hes) →
      List.Forall₂ (DcFd.Of (some dir)) (files.map DCFile.undigested) fds →
      d.Holds start ok (heldBy fds ++ numbers) →
      let r := rxOpenFiles env dir blockSize opened files hes
      let r' := rxOpenFds os env dir blockSize opened.length fds hes d
      List.Forall₂ (DcFd.Of (some dir)) (r.2.1.map DCFile.undigested) r'.1 ∧
        r'.2.Good start ok ∧ (r.2.2 ≠ .crashed → r'.2.Holds start ok (heldBy r'.1 ++ numbers)) := by
  induction hes with
  | nil =>
      intro opened files fds d _ hfiles h
      exact ⟨hfiles, h.good, fun _ => h⟩
  | cons he hes ih =>
      intro opened files fds d hsized hfiles h
      have hfirst : ok → he.fileSize.toNat ≤ dfileMaxFileSize →
          env.openWrite opened.length (join dir he.name) = true →
          env.ftruncate opened.length (join dir he.name) = true := by
        intro hok hsize hopen
        apply hsized hok (opened.length, join dir he.name)
        rw [rxOpens, if_pos ⟨hsize, hopen⟩]
        exact List.mem_cons_self
      have hone := rxOpenFd_holds os env blockSize h hfirst
      simp only [rxOpenFiles, rxOpenFds]
      rcases hr : rxOpenFile env dir blockSize opened he with ⟨opened', res⟩
      rcases hr' : rxOpenFd os env dir blockSize opened.length he d with ⟨d', fd⟩
      rw [hr, hr'] at hone
      cases hone with
      | ok f _ n hof hheld =>
          have hlength : (opened ++ [join dir he.name]).length = opened.length + 1 := by simp
          simp only
          rw [← hlength]
          apply ih
          · intro hok p hp
            rw [hlength] at hp
            refine hsized hok p ?_
            have hspec := rxOpenFile_opens hr
            rw [rxOpens, if_pos hspec.1, if_pos hspec.2]
            exact List.mem_cons_of_mem _ hp
          · rw [List.map_append]
            exact List.rel_append hfiles (.cons hof .nil)
          · apply hheld.congr
            rw [heldBy_append]
            exact List.perm_middle.symm.trans (by rw [List.append_assoc]; rfl)
      | failed _ why _ hheld => exact ⟨hfiles, hheld.good, fun _ => hheld⟩
      | crashed _ _ hgood => exact ⟨hfiles, hgood, fun h => absurd rfl h⟩

end

/-! ## A block of data -/

section
variable {d : Fds ι} {numbers : List ℕ} {dir : Option Bytes} {fileId : UInt16}
  {files : List DCFile} {fds : List DcFd}

theorem findFile_cons (f : DCFile) (files : List DCFile) :
    findFile (f :: files) fileId = if f.fileId = fileId then some f else findFile files fileId := by
  by_cases hid : f.fileId = fileId <;> simp [findFile, hid]

theorem findFd_cons (fd : DcFd) (fds : List DcFd) :
    findFd (fd :: fds) fileId = if fd.fileId = fileId then some fd else findFd fds fileId := by
  by_cases hid : fd.fileId = fileId <;> simp [findFd, hid]

theorem findFd_of (h : List.Forall₂ (DcFd.Of dir) files fds) {f : DCFile}
    (hf : findFile files fileId = some f) :
    ∃ fd, findFd fds fileId = some fd ∧ DcFd.Of dir f fd := by
  induction h with
  | nil => cases hf
  | @cons g fd files fds hof _ ih =>
      rw [findFile_cons] at hf
      rw [findFd_cons, hof.fileId]
      by_cases hid : g.fileId = fileId
      · rw [if_pos hid] at hf ⊢
        cases hf
        exact ⟨fd, rfl, hof⟩
      · rw [if_neg hid] at hf ⊢
        exact ih hf

/-- A block is written. -/
theorem forall₂_write (h : List.Forall₂ (DcFd.Of dir) files fds) (blockSize : ℕ)
    (payload : Bytes) :
    List.Forall₂ (DcFd.Of dir) (updateFile fileId (rxWriteBlock blockSize payload) files) fds := by
  induction h with
  | nil => exact .nil
  | @cons f fd files fds hof hrest ih =>
      rw [updateFile]
      split
      · refine .cons ⟨hof.fileId, hof.path, fun h => ?_⟩ hrest
        exact (hof.closed h).trans (Nat.le_succ _)
      · exact .cons hof ih

/-- The last block is written, and the descriptor closed. -/
theorem forall₂_close (h : List.Forall₂ (DcFd.Of dir) files fds) (blockSize : ℕ)
    (payload : Bytes) {f : DCFile} (hf : findFile files fileId = some f)
    (hlast : f.totalBlocks ≤ f.expectedSeq + 1) :
    List.Forall₂ (DcFd.Of dir) (updateFile fileId (rxWriteBlock blockSize payload) files)
      (closeFd fileId fds) := by
  induction h with
  | nil => cases hf
  | @cons g fd files fds hof hrest ih =>
      rw [findFile_cons] at hf
      rw [updateFile, closeFd, hof.fileId]
      by_cases hid : g.fileId = fileId
      · rw [if_pos hid] at hf
        cases hf
        rw [if_pos hid, if_pos hid]
        exact .cons ⟨rfl, hof.path, fun _ => hlast⟩ hrest
      · rw [if_neg hid] at hf
        rw [if_neg hid, if_neg hid]
        exact .cons hof (ih hf)

theorem heldBy_cons (fd : DcFd) (fds : List DcFd) :
    heldBy (fd :: fds) = fd.fd.toList ++ heldBy fds := by
  cases hfd : fd.fd with
  | none => rw [heldBy, List.filterMap_cons_none hfd]; rfl
  | some n => rw [heldBy, List.filterMap_cons_some hfd]; rfl

theorem heldBy_closeFd {n : ℕ} (h : (findFd fds fileId).bind DcFd.fd = some n) :
    (heldBy fds).Perm (n :: heldBy (closeFd fileId fds)) := by
  induction fds with
  | nil => cases h
  | cons fd fds ih =>
      rw [findFd_cons] at h
      rw [closeFd, heldBy_cons]
      by_cases hid : fd.fileId = fileId
      · rw [if_pos hid] at h
        have hfd : fd.fd = some n := h
        rw [if_pos hid, heldBy_cons, hfd]
        exact .refl _
      · rw [if_neg hid] at h
        rw [if_neg hid, heldBy_cons]
        exact ((ih h).append_left _).trans List.perm_middle

end

/-! ## What the connection keeps -/

/-- A transfer that is being sent has announced its files. -/
def DFileConn.Announced (c : DFileConn) : Prop := ∀ t, c.tx = some t → t.phase ≠ .idle

/-- What no event but `send_files` changes. -/
structure DcKept (c c' : DFileConn) : Prop where
  base : DcBase c'
  sound : c'.Sound
  recvDir : c'.recvDir = c.recvDir
  announced : c'.Announced
  tx : c'.tx.isSome = c.tx.isSome

section
variable {sha256Hex : Bytes → Bytes} {late : Prop} {fr : Option Bytes} {c c' : DFileConn}

theorem DcMove.recvDir (hm : DcMove sha256Hex env late fr c c') : c'.recvDir = c.recvDir := by
  cases hm with
  | fail isSender reason sendRst =>
      rcases transFail_spec env isSender reason sendRst c with hsame | ⟨t, w, crash, -, -, -, -, heq⟩
      · rw [hsame]
      · rw [heq]
        cases isSender <;> rfl
  | _ => rfl

theorem DcMoves.recvDir (hm : DcMoves sha256Hex env late fr c c') : c'.recvDir = c.recvDir := by
  induction hm with
  | refl => rfl
  | tail _ hlast ih => exact hlast.recvDir.trans ih

/-- Without a file to read, a transfer is neither started nor dropped. -/
theorem DcMove.announced (hshut : ∀ p, env.openRead p = false) (h : c.Announced)
    (hm : DcMove sha256Hex env late fr c c') :
    c'.Announced ∧ c'.tx.isSome = c.tx.isSome := by
  have hnext : ∀ {t t' : DCTrans}, c.tx = some t → c'.tx = some t' → t'.phase ≠ .idle →
      c'.Announced ∧ c'.tx.isSome = c.tx.isSome := by
    intro t t' ht ht' hphase
    rw [DFileConn.Announced, ht, ht']
    refine ⟨?_, rfl⟩
    rintro u ⟨⟩
    exact hphase
  have hsame : ∀ {t t' : DCTrans}, c.tx = some t → c'.tx = some t' → t'.phase = t.phase →
      c'.Announced ∧ c'.tx.isSome = c.tx.isSome :=
    fun ht ht' hphase => hnext ht ht' (hphase ▸ h _ ht)
  cases hm with
  | fail isSender reason sendRst =>
      rcases transFail_spec env isSender reason sendRst c with hsame | ⟨t, w, crash, ht, -, -, -, heq⟩
      · rw [hsame]
        exact ⟨h, rfl⟩
      · rw [heq]
        cases isSender with
        | false => exact ⟨h, rfl⟩
        | true =>
            have htx : c.tx = some t := ht
            rw [htx]
            refine ⟨?_, rfl⟩
            rintro u ⟨⟩
            exact DCPhase.noConfusion
  | startTx _ _ hne _ hopen => exact absurd hopen (txOpenFiles_shut hshut hne)
  | dropTx ht hphase => exact absurd hphase (h _ ht)
  | armed ht hphase => exact absurd hphase (h _ ht)
  | retry _ _ ht => exact hsame ht rfl rfl
  | ctrl _ ht hphase =>
      refine hnext ht rfl ?_
      rcases txCtrlUpdate_phase _ _ _ with hkept | hsend
      · rw [hkept]
        exact h _ ht
      · rw [hsend]
        exact DCPhase.noConfusion
  | newBlock ht => exact hsame ht rfl rfl
  | retran ht => exact hsame ht rfl rfl
  | allSent ht => exact hnext ht rfl DCPhase.noConfusion
  | ack _ ht => exact hsame ht rfl rfl
  | doneReceived _ ht =>
      refine hnext ht rfl ?_
      simp only
      split
      · exact DCPhase.noConfusion
      · exact h _ ht
  | finish ht => exact hnext ht rfl DCPhase.noConfusion
  | _ => exact ⟨h, rfl⟩

theorem DcMoves.kept (hshut : ∀ p, env.openRead p = false) (hbase : DcBase c)
    (hannounced : c.Announced) (hm : DcMoves sha256Hex env late fr c c') (hsound : c'.Sound) :
    DcKept c c' := by
  have hannounced : c'.Announced ∧ c'.tx.isSome = c.tx.isSome := by
    clear hsound
    induction hm with
    | refl => exact ⟨hannounced, rfl⟩
    | tail _ hlast ih =>
        obtain ⟨h, htx⟩ := hlast.announced hshut ih.1
        exact ⟨h, htx.trans ih.2⟩
  exact ⟨hm.base hbase, hsound, hm.recvDir, hannounced.1, hannounced.2⟩

end

/-! ## The invariant -/

/-- What holds between two events. -/
structure FdInv (start : Kernel ι) (ok : Prop) (s : FdConn ι) : Prop where
  base : DcBase s.conn
  sound : s.conn.Sound
  good : s.fds.Good start ok
  holds : s.conn.crash = none → s.fds.Holds start ok s.held
  files : s.torn = false → List.Forall₂ (DcFd.Of s.conn.recvDir) s.conn.rxFiles s.rx
  announced : s.conn.crash = none → s.conn.Announced
  unsent : s.conn.crash = none → s.conn.tx = none → s.tx = []
  torn : s.torn = true → s.conn.state = .closing ∧ s.held = [] ∧ s.conn.crash = none

section
variable {sha256Hex : Bytes → Bytes} {s : FdConn ι} {c' : DFileConn}

/-- An event that leaves the sender's descriptors. -/
theorem FdInv.next (h : FdInv start ok s) (hopen : s.conn.stopped = false)
    (hkept : DcKept s.conn c') {rx : List DcFd} {fds : Fds ι} (hgood : fds.Good start ok)
    (hholds : c'.crash = none → fds.Holds start ok (heldBy s.tx ++ heldBy rx))
    (hfiles : List.Forall₂ (DcFd.Of s.conn.recvDir) c'.rxFiles rx) :
    FdInv start ok { s with conn := c', rx := rx, fds := fds } := by
  obtain ⟨halive, hstate⟩ := DFileConn.stopped_eq_false hopen
  constructor
  · exact hkept.base
  · exact hkept.sound
  · exact hgood
  · exact hholds
  · intro _
    show List.Forall₂ (DcFd.Of c'.recvDir) c'.rxFiles rx
    rw [hkept.recvDir]
    exact hfiles
  · exact fun _ => hkept.announced
  · intro _ htx
    have hnone : c'.tx = none := htx
    apply h.unsent halive
    apply Option.not_isSome_iff_eq_none.mp
    rw [← hkept.tx, hnone]
    exact Bool.false_ne_true
  · exact fun htorn => absurd (h.torn htorn).1 hstate

theorem FdInv.not_torn (h : FdInv start ok s) (hopen : s.conn.stopped = false) :
    s.torn = false := by
  rw [← Bool.not_eq_true]
  exact fun htorn => (DFileConn.stopped_eq_false hopen).2 (h.torn htorn).1

/-- An event that touches no file of the receiver. -/
theorem FdInv.quiet (h : FdInv start ok s) (hopen : s.conn.stopped = false)
    (hkept : DcKept s.conn c') (hfiles : c'.rxFiles = s.conn.rxFiles) :
    FdInv start ok { s with conn := c' } := by
  apply h.next hopen hkept h.good
  · exact fun _ => h.holds (DFileConn.stopped_eq_false hopen).1
  · rw [hfiles]
    exact h.files (h.not_torn hopen)

/-! ## Frames -/

theorem FdInv.handleFileHeader {frame : Bytes} (h : FdInv start ok s)
    (hopen : s.conn.stopped = false)
    (hkept : DcKept s.conn (DFile.handleFileHeader env frame s.conn))
    (hsized : ok → ∀ t dir, rxHeaderTarget env frame s.conn = some (t, dir) →
      RxSized env dir s.conn.blockSize s.conn.opened.length t.hdr) :
    FdInv start ok (s.handleFileHeader os env frame) := by
  have halive := (DFileConn.stopped_eq_false hopen).1
  have hidle := h.sound halive
  have hfiles := @handleFileHeader_rxFiles env s.conn frame hidle
  unfold FdConn.handleFileHeader
  rcases htarget : rxHeaderTarget env frame s.conn with _ | ⟨t, dir⟩
  · rw [htarget] at hfiles
    exact h.quiet hopen hkept hfiles
  rw [htarget] at hfiles
  obtain ⟨hnone, hdir⟩ := rxHeaderTarget_some hidle htarget
  have hrx : s.rx = [] := by
    have hall := h.files (h.not_torn hopen)
    rw [hnone] at hall
    exact List.forall₂_nil_left_iff.mp hall
  have hheld : s.fds.Holds start ok (heldBy s.rx ++ heldBy s.tx) :=
    (h.holds halive).congr List.perm_append_comm
  have hall : List.Forall₂ (DcFd.Of (some dir)) (([] : List DCFile).map DCFile.undigested) s.rx := by
    rw [hrx]
    exact .nil
  obtain ⟨hopened, hgood, hholds⟩ := rxOpenFds_holds os t.hdr s.conn.opened [] s.rx s.fds
    (fun hok => hsized hok t dir htarget) hall hheld
  apply h.next hopen hkept hgood
  · intro hcrash
    apply Fds.Holds.congr _ List.perm_append_comm
    apply hholds
    intro hres
    have hdivides := handleFrame_divides (rxHeaderTarget_divides htarget hres)
    rw [handleFrame_target htarget, hcrash] at hdivides
    cases hdivides
  · rw [hdir, hfiles]
    exact hopened

theorem FdInv.handleData {frame : Bytes} (h : FdInv start ok s) (hopen : s.conn.stopped = false)
    (hkept : DcKept s.conn (DFile.handleData env frame s.conn)) :
    FdInv start ok (s.handleData os env frame) := by
  have hfiles := handleData_rxFiles env frame s.conn
  have hall := h.files (h.not_torn hopen)
  have hheld := h.holds (DFileConn.stopped_eq_false hopen).1
  unfold FdConn.handleData
  rcases htarget : rxDataTarget frame s.conn with _ | ⟨d, t, f⟩
  · rw [htarget] at hfiles
    exact h.quiet hopen hkept hfiles
  simp only [htarget] at hfiles
  obtain ⟨hfind, hseq, hrange, -⟩ := rxDataTarget_some htarget
  obtain ⟨fd, hfd, hof⟩ := findFd_of hall hfind
  simp only [hfd, Option.bind_some]
  cases hn : fd.fd with
  | none => exact absurd (hof.closed hn) (by rw [Nat.not_le]; exact hrange)
  | some n =>
      simp only
      have hperm : (heldBy s.rx).Perm (n :: heldBy (closeFd d.fileId s.rx)) :=
        heldBy_closeFd (by rw [hfd]; exact hn)
      have hmem : n ∈ s.held :=
        List.mem_append_right _ (hperm.mem_iff.mpr List.mem_cons_self)
      have hwrote : ∀ offset data, (s.fds.call (.wrote n offset data)).Holds start ok s.held :=
        fun offset data => hheld.change hmem rfl (Kernel.change_table ..)
      cases hpwrite : env.pwrite (f.fd.getD []) (d.blockSeq.toNat * s.conn.blockSize) d.payload with
      | false =>
          rw [hpwrite, if_neg Bool.false_ne_true] at hfiles
          rw [Bool.not_false, if_pos rfl]
          apply h.next hopen hkept (hwrote _ _).good fun _ => hwrote _ _
          rw [hfiles]
          exact hall
      | true =>
          rw [hpwrite, if_pos rfl] at hfiles
          rw [Bool.not_true, if_neg Bool.false_ne_true]
          split
          · rename_i hlast
            have hclosed : ((s.fds.call (.wrote n (d.blockSeq.toNat * s.conn.blockSize)
                d.payload)).call (.closed n)).Holds start ok
                (heldBy s.tx ++ heldBy (closeFd d.fileId s.rx)) := by
              apply Fds.Holds.close
              apply (hwrote _ _).congr
              exact (hperm.append_left _).trans List.perm_middle
            apply h.next hopen hkept hclosed.good fun _ => hclosed
            rw [hfiles]
            exact forall₂_close hall _ _ hfind (hseq ▸ hlast)
          · apply h.next hopen hkept (hwrote _ _).good fun _ => hwrote _ _
            rw [hfiles]
            exact forall₂_write hall _ _

end

/-- Every file whose destination the frame opens can be given its size. -/
def rxSized (env : DcEnv) (c : DFileConn) (frame : Bytes) : Bool :=
  (rxHeaderTarget env frame c).all fun r =>
    (rxOpens env r.2 c.blockSize c.opened.length r.1.hdr).all fun p => env.ftruncate p.1 p.2

section
variable {sha256Hex : Bytes → Bytes} {s s' : FdConn ι} {c' : DFileConn}

theorem FdInv.handleFrame {frame : Bytes} (h : FdInv start ok s) (hopen : s.conn.stopped = false)
    (hsized : ok → rxSized env s.conn frame = true) :
    FdInv start ok (s.handleFrame os env frame) := by
  obtain ⟨halive, hstate⟩ := DFileConn.stopped_eq_false hopen
  have hidle := h.sound halive
  have hmoves : DcMoves id env.shut True (some frame) s.conn (DFile.handleFrame env frame s.conn) := by
    rw [← handleFrame_shut]
    exact handleFrame_moves hidle hstate
  have hkept : DcKept s.conn (DFile.handleFrame env frame s.conn) :=
    hmoves.kept (fun _ => rfl) h.base (h.announced halive) (handleFrame_unopened hidle hstate)
  rcases FdConn.handleFrame_cases env frame s with ⟨heq, hframe⟩ | ⟨heq, hframe⟩ |
    ⟨hheader, hdata, hframe⟩
  · rw [hframe]
    apply h.handleFileHeader hopen (heq ▸ hkept)
    intro hok t dir htarget p hp
    have hall := hsized hok
    rw [rxSized, htarget, Option.all_some, List.all_eq_true] at hall
    exact hall p hp
  · rw [hframe]
    exact h.handleData hopen (heq ▸ hkept)
  · rw [hframe]
    apply h.quiet hopen hkept
    apply hmoves.rxFiles
    rintro f ⟨⟩
    exact ⟨hheader, hdata⟩

/-! ## Events -/

/-- What an event without frames does, but for `send_files`. -/
theorem FdInv.moves (h : FdInv start ok s) (hopen : s.conn.stopped = false)
    (hm : DcMoves sha256Hex env.shut True none s.conn c') :
    FdInv start ok { s with conn := c' } := by
  have halive := (DFileConn.stopped_eq_false hopen).1
  apply h.quiet hopen
  · exact hm.kept (fun _ => rfl) h.base (h.announced halive) fun _ => (h.sound halive).moves hm
  · exact hm.rxFiles fun _ hf => by cases hf

theorem FdInv.buffer (h : FdInv start ok s) (buf : Bytes) :
    FdInv start ok { s with conn := { s.conn with rxbuf := buf } } where
  base := ⟨h.base.tx, h.base.rx, h.base.ready, h.base.block⟩
  sound := h.sound
  good := h.good
  holds := h.holds
  files := h.files
  announced := h.announced
  unsent := h.unsent
  torn := h.torn

theorem FdInv.sendFiles (h : FdInv start ok s) (hopen : s.conn.stopped = false)
    (items : List DFileSendItem) : FdInv start ok (s.sendFiles os env items) := by
  obtain ⟨halive, hstate⟩ := DFileConn.stopped_eq_false hopen
  have hidle := h.sound halive
  have hmoves : DcMoves id env True none s.conn (sendFilesImpl env items s.conn).1 :=
    sendFilesImpl_moves items s.conn
  unfold FdConn.sendFiles
  split
  · rename_i hrefused
    have hsame : (sendFilesImpl env items s.conn).1 = s.conn := by
      unfold sendFilesImpl
      split
      · rfl
      split
      · rfl
      split
      · rfl
      · rename_i hready hfree hcount
        rcases hrefused with hr | hr | hr | hr
        · exact absurd hr hready
        · exact absurd hr hfree
        · exact absurd (Or.inl hr) hcount
        · exact absurd (Or.inr hr) hcount
    rw [hsame]
    exact h
  rename_i hgo
  rw [not_or, not_or] at hgo
  have htx : s.conn.tx = none := Option.not_isSome_iff_eq_none.mp hgo.2.1
  have hnone : s.tx = [] := h.unsent halive htx
  have hheld : s.fds.Holds start ok (heldBy [] ++ heldBy s.rx) := by
    have hheld := h.holds halive
    rw [FdConn.held, hnone] at hheld
    exact hheld
  have hopened := txOpenFds_holds os env s.conn.blockSize items 0 [] s.fds hheld
  simp only
  set r := txOpenFds os env s.conn.blockSize 0 [] items s.fds
  set c := (sendFilesImpl env items s.conn).1 with hc
  have hbase : DcBase c := hmoves.base h.base
  have hsound : c.Sound := fun _ => hidle.moves hmoves
  have hall : List.Forall₂ (DcFd.Of c.recvDir) c.rxFiles s.rx := by
    rw [hmoves.recvDir, rxFiles_quiet hmoves]
    exact h.files (h.not_torn hopen)
  split
  · rename_i hfailed
    rw [Bool.and_eq_true, Option.isNone_iff_eq_none, Option.isNone_iff_eq_none] at hfailed
    have hfreed := transFree_holds r.1 hopened
    refine ⟨hbase, hsound, hfreed.good, fun _ => ?_, fun _ => hall, fun _ => ?_, fun _ _ => hnone,
      fun ht => absurd (h.torn ht).1 hstate⟩
    · show Fds.Holds start ok (heldBy s.tx ++ heldBy s.rx) _
      rw [hnone]
      exact hfreed
    · intro t ht
      have hctx : c.tx = some t := ht
      rw [hfailed.1] at hctx
      cases hctx
  · rename_i hkeeps
    have hstays : c.crash = none → c.tx ≠ none := by
      intro hcrash hctx
      rw [hctx, hcrash] at hkeeps
      exact hkeeps rfl
    refine ⟨hbase, hsound, hopened.good, fun _ => hopened, fun _ => hall, fun hcrash => ?_,
      fun hcrash hctx => absurd hctx (hstays hcrash), fun ht => absurd (h.torn ht).1 hstate⟩
    have hcrashed : c.crash = none := hcrash
    cases sendFilesImpl_starts env items s.conn with
    | refused _ _ heq =>
        have hsame : c.tx = s.conn.tx := by rw [hc, heq]
        exact absurd (hsame.trans htx) (hstays hcrashed)
    | broken _ _ tx crash heq _ _ _ hgone =>
        rw [← hc] at heq
        have hlive : crash = none := by
          rw [heq] at hcrashed
          exact hcrashed
        exact absurd (by rw [heq]; exact hgone hlive) (hstays hcrashed)
    | started _ _ t _ _ _ _ _ ht _ _ heq =>
        rw [← hc] at heq
        show c.Announced
        rw [DFileConn.Announced, heq]
        rintro u ⟨⟩
        rw [ht]
        exact DCPhase.noConfusion

theorem FdInv.teardown (h : FdInv start ok s) (hstate : s.conn.state = .closing)
    (halive : s.conn.crash = none) :
    FdInv start ok { s with
      tx := [], rx := [], fds := transFree (transFree s.fds s.tx) s.rx, torn := true } := by
  have hfreed : (transFree (transFree s.fds s.tx) s.rx).Holds start ok [] := by
    apply transFree_holds
    rw [List.append_nil]
    exact transFree_holds s.tx (h.holds halive)
  exact ⟨h.base, h.sound, hfreed.good, fun _ => hfreed, fun ht => (by cases ht), h.announced,
    fun _ _ => rfl, fun _ => ⟨hstate, rfl, halive⟩⟩

/-- **Step lemma.** -/
theorem FdInv.step {e : FdEv} (h : FdInv start ok s) (hsized : ok → e.every rxSized s = true)
    (hs : s.step os sha256Hex e = some s') : FdInv start ok s' := by
  refine FdConn.step_keeps (fun env c frame => ok → rxSized env c frame = true) ?_ ?_ ?_ ?_ ?_ h
    ?_ hs
  · exact fun h hopen hm => h.moves hopen hm
  · exact fun buf h => h.buffer buf
  · exact fun h hopen hok => h.handleFrame hopen hok
  · exact fun items h hopen => h.sendFiles hopen items
  · exact fun h hstate halive => h.teardown hstate halive
  · intro d hd hok
    exact List.all_eq_true.mp (hsized hok) d hd

end

/-! ## Every run -/

/-- What a run owes to its descriptors. -/
structure ClosedOnce (disk : ι → Bytes) (s : FdConn ι) : Prop where
  /-- Every call but an open is on a number that is open then. -/
  clean : Clean ⟨[], disk⟩ s.fds.calls
  /-- After a close nothing is done with the number, before it is given out again. -/
  after : ∀ pre mid post c fd, s.fds.calls = pre ++ .closed fd :: mid ++ c :: post →
    c.isOpen = false → c.fd = fd → ∃ d ∈ mid, d.isOpen = true ∧ d.fd = fd
  /-- What has not been closed is held by a file. -/
  balance : s.conn.crash = none → ∀ fd,
    opens fd s.fds.calls = closes fd s.fds.calls + s.held.count fd
  torn : s.torn = true → ∀ fd, opens fd s.fds.calls = closes fd s.fds.calls

theorem fdAlloc_inv (now : UInt64) (recvDir : Option Bytes) (disk : ι → Bytes) :
    FdInv ⟨[], disk⟩ ok (fdAlloc now recvDir disk) where
  base := dcAlloc_base now recvDir
  sound := dcAlloc_sound now recvDir
  good := ⟨rfl, fun _ => trivial⟩
  holds _ := ⟨⟨rfl, fun _ => trivial⟩, .refl _, .nil⟩
  files _ := .nil
  announced _ _ ht := by cases ht
  unsent _ _ := rfl
  torn ht := by cases ht

section
variable {sha256Hex : Bytes → Bytes} {s : FdConn ι} {disk : ι → Bytes}

theorem FdInv.closedOnce (h : FdInv ⟨[], disk⟩ True s) : ClosedOnce disk s := by
  have hclean := h.good.clean trivial
  have hbalance : s.conn.crash = none → ∀ fd,
      opens fd s.fds.calls = closes fd s.fds.calls + s.held.count fd := by
    intro hcrash fd
    have hcount := Clean.balance fd (k := ⟨[], disk⟩) .nil hclean
    rw [← h.good.led, (h.holds hcrash).perm.count_eq] at hcount
    exact (Nat.zero_add _).symm.trans hcount
  constructor
  · exact hclean
  · rintro pre mid post c fd hcalls hc hfd
    rw [hcalls] at hclean
    exact hclean.no_use_after_close hc hfd
  · exact hbalance
  · intro htorn fd
    obtain ⟨-, hheld, halive⟩ := h.torn htorn
    rw [hbalance halive fd, hheld]
    rfl

/-- **Closed once.** In every run in which no destination fails to be given its size, every
descriptor is closed once, by the end, and not used after it. -/
theorem FdConn.closed_once {now : UInt64} {recvDir : Option Bytes} {es : List FdEv}
    (hok : Meets (FdConn.step os sha256Hex) (fun s e => e.every rxSized s = true)
      (fdAlloc now recvDir disk) es)
    (hrun : run (FdConn.step os sha256Hex) (fdAlloc now recvDir disk) es = some s) :
    ClosedOnce disk s := by
  apply FdInv.closedOnce
  apply run_inv (FdInv ⟨[], disk⟩ True) (fun s e => e.every rxSized s = true) _
    (fdAlloc_inv now recvDir disk) hok hrun
  intro s e s' h hsized hs
  exact h.step (fun _ => hsized) hs

end

/-! ### A destination that cannot be given its size -/

/-- Every path is a file of its own, and an open gives a number above the open ones. -/
def plainOs : Os Bytes where
  file := id
  next _ used := used.sum + 3
  next_free _ used hmem := by
    have hle := List.le_sum_of_mem hmem
    omega
  short _ := 0

/-- Receive a one-byte file; `ftruncate` is for its destination. -/
def receiveFds (ftruncate : Bool) : List FdEv :=
  let env := { oneByteEnv 0 fun _ => dcTakesAll with ftruncate := fun _ _ => ftruncate }
  [.event (.start env), .event (.read env dcPeerSetting),
    .event (.read env (oneByteHeader 1 (ascii "f"))), .event (.read env oneByteData),
    .event (.close env), .teardown]

theorem FdConn.closed_once_receive :
    ∃ s, run (FdConn.step plainOs id) (fdAlloc 0 (some (ascii "/d")) fun _ => [])
      (receiveFds true) = some s ∧ s.torn = true ∧ ClosedOnce (fun _ => []) s := by
  obtain ⟨s, hrun, htorn⟩ := Option.map_eq_some_iff.mp (show
    (run (FdConn.step plainOs id) (fdAlloc 0 (some (ascii "/d")) fun _ => [])
      (receiveFds true)).map FdConn.torn = some true by decide +kernel)
  have hok : Meets (FdConn.step plainOs id) (fun s e => e.every rxSized s = true)
      (fdAlloc 0 (some (ascii "/d")) fun _ => []) (receiveFds true) :=
    meets_of_test (fun _ _ h => h) _ (by decide +kernel)
  exact ⟨s, hrun, htorn, FdConn.closed_once hok hrun⟩

/-- **The destination is closed twice** when it cannot be given its size. -/
theorem FdConn.not_closed_once :
    ¬ ∀ (os : Os Bytes) (sha256Hex : Bytes → Bytes) (now : UInt64) (recvDir : Option Bytes)
        (disk : Bytes → Bytes) (es : List FdEv) (s : FdConn Bytes),
      run (FdConn.step os sha256Hex) (fdAlloc now recvDir disk) es = some s →
      ClosedOnce disk s := by
  intro h
  obtain ⟨s, hrun, hcalls⟩ := Option.map_eq_some_iff.mp (show
    (run (FdConn.step plainOs id) (fdAlloc 0 (some (ascii "/d")) fun _ => [])
      ((receiveFds false).take 3)).map (fun s => s.fds.calls) =
      some [.opened 3 (ascii "/d/f") true, .closed 3, .closed 3] by decide +kernel)
  obtain ⟨d, hd, -⟩ := (h plainOs id 0 _ _ _ s hrun).after
    [.opened 3 (ascii "/d/f") true] [] [] (.closed 3) 3 hcalls rfl rfl
  cases hd

end HwPhoneLink.DFile
