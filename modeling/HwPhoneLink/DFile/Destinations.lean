import HwPhoneLink.DFile.Blocks
import HwPhoneLink.DFile.ClosedOnce
import HwPhoneLink.DFile.Received

/-!
# What is on the disk

A file is opened by its name and written through its descriptor. Where the entries of a
transfer have destinations of their own, each destination holds what was received for it.
The list of entries has each id once; two of its names may be one.
-/

namespace HwPhoneLink.DFile

open BigEndian Path Framing Transitions Descriptors HwPhoneLink.Testfile

variable {ι : Type*} [DecidableEq ι] {os : Os ι} {env : DcEnv} {start : Kernel ι} {ok : Prop}

/-- The file that `dst_path` leads to. -/
def destination (os : Os ι) (dir : Option Bytes) (f : DCFile) : ι :=
  os.file (join (dir.getD []) f.name)

/-! ## The calls of a step -/

/-- The numbers stay on their files, and only the files that are touched change. -/
structure Fds.Keeps (numbers : List ℕ) (touched : List ι) (d d' : Fds ι) : Prop where
  table : ∀ e ∈ d.kernel.table, e.1 ∈ numbers → e ∈ d'.kernel.table
  disk : ∀ file, file ∉ touched → d'.kernel.disk file = d.kernel.disk file

section
variable {numbers : List ℕ} {touched : List ι} {d d' d'' : Fds ι}

omit [DecidableEq ι] in
theorem Fds.Keeps.refl (numbers : List ℕ) (touched : List ι) (d : Fds ι) :
    d.Keeps numbers touched d :=
  ⟨fun _ he _ => he, fun _ _ => rfl⟩

omit [DecidableEq ι] in
theorem Fds.Keeps.trans (h : d.Keeps numbers touched d') (h' : d'.Keeps numbers touched d'') :
    d.Keeps numbers touched d'' where
  table e he hn := h'.table e (h.table e he hn) hn
  disk file hout := (h'.disk file hout).trans (h.disk file hout)

variable (numbers touched d) in
theorem Fds.keeps_close {n : ℕ} (hn : n ∉ numbers) :
    d.Keeps numbers touched (d.call (.closed n)) where
  table e he hmem := by
    refine List.mem_filter.mpr ⟨he, decide_eq_true ?_⟩
    rintro rfl
    exact hn hmem
  disk _ _ := rfl

variable (os numbers d) in
theorem Fds.keeps_open (path : Bytes) : d.Keeps numbers touched (d.openFile os path false).2 where
  table _ he _ := List.mem_cons_of_mem _ he
  disk _ _ := rfl

theorem dcfileFree_keeps {f : DcFd} (h : ∀ n, f.fd = some n → n ∉ numbers) :
    d.Keeps numbers touched (dcfileFree d f) := by
  unfold dcfileFree
  split
  · exact .refl numbers touched d
  · rename_i n hfd
    exact Fds.keeps_close numbers touched d (h n hfd)

theorem transFree_keeps (files : List DcFd) : ∀ {d : Fds ι},
    (∀ n ∈ heldBy files, n ∉ numbers) → d.Keeps numbers touched (transFree d files) := by
  induction files with
  | nil => intro d _; exact .refl numbers touched d
  | cons f files ih =>
      intro d h
      have hfirst : d.Keeps numbers touched (dcfileFree d f) := by
        apply dcfileFree_keeps
        intro n hfd
        apply h
        rw [heldBy_cons, hfd]
        exact List.mem_cons_self
      apply hfirst.trans
      apply ih
      intro n hn
      apply h
      rw [heldBy_cons]
      exact List.mem_append_right _ hn

variable (os env numbers) in
theorem txOpenFds_keeps (blockSize : ℕ) (items : List DFileSendItem) :
    ∀ (i : ℕ) (files : List DcFd) (d : Fds ι),
      d.Keeps numbers touched (txOpenFds os env blockSize i files items d).2 := by
  induction items with
  | nil => intro i files d; exact .refl numbers touched d
  | cons item items ih =>
      intro i files d
      have hfirst : d.Keeps numbers touched (d.openFile os item.path false).2 :=
        Fds.keeps_open os numbers d item.path
      simp only [txOpenFds]
      split
      · exact .refl numbers touched d
      · split
        · exact hfirst.trans (ih _ _ _)
        · exact hfirst

end

/-! ## What a destination holds -/

/-- The blocks up to `expected_seq` are at the front of the file, which has its size. -/
structure Stored (os : Os ι) (disk : ι → Bytes) (dir : Option Bytes) (blockSize : ℕ) (f : DCFile) :
    Prop where
  front : f.sha <+: disk (destination os dir f)
  size : (disk (destination os dir f)).length = f.size
  received : f.sha.length = min (f.expectedSeq * blockSize) f.size
  total : f.totalBlocks = dcTotalBlocks f.size blockSize
  complete : f.writeComplete = true → f.totalBlocks ≤ f.expectedSeq

/-- The files of the receiver with their descriptors: each has a destination of its own. -/
structure Fds.Stores (os : Os ι) (dir : Option Bytes) (blockSize : ℕ) (files : List DCFile)
    (fds : List DcFd) (d : Fds ι) : Prop where
  distinct : (files.map (destination os dir)).Nodup
  stored : ∀ f ∈ files, Stored os d.kernel.disk dir blockSize f
  numbers : ∀ fd ∈ fds, ∀ n, fd.fd = some n → (n, os.file fd.path) ∈ d.kernel.table

section
variable {dir : Option Bytes} {blockSize : ℕ} {files : List DCFile} {fds : List DcFd}
  {numbers : List ℕ} {touched : List ι} {d d' : Fds ι}

theorem mem_heldBy {n : ℕ} {fd : DcFd} (hfd : fd ∈ fds) (hn : fd.fd = some n) : n ∈ heldBy fds :=
  List.mem_filterMap.mpr ⟨fd, hfd, hn⟩

omit [DecidableEq ι] in
theorem Stored.congr {disk disk' : ι → Bytes} {f : DCFile} (h : Stored os disk dir blockSize f)
    (heq : disk' (destination os dir f) = disk (destination os dir f)) :
    Stored os disk' dir blockSize f :=
  ⟨heq ▸ h.front, heq ▸ h.size, h.received, h.total, h.complete⟩

omit [DecidableEq ι] in
/-- Calls on other files. -/
theorem Fds.Stores.keeps (h : d.Stores os dir blockSize files fds)
    (hk : d.Keeps numbers touched d') (hheld : ∀ n ∈ heldBy fds, n ∈ numbers)
    (hout : ∀ f ∈ files, destination os dir f ∉ touched) :
    d'.Stores os dir blockSize files fds where
  distinct := h.distinct
  stored f hf := (h.stored f hf).congr (hk.disk _ (hout f hf))
  numbers fd hfd n hn := hk.table _ (h.numbers fd hfd n hn) (hheld n (mem_heldBy hfd hn))

omit [DecidableEq ι] in
/-- Without files the block size does not matter. -/
theorem Fds.Stores.blocks {blockSize' : ℕ} (h : d.Stores os dir blockSize files fds)
    (hblock : files ≠ [] → blockSize' = blockSize) : d.Stores os dir blockSize' files fds := by
  by_cases hfiles : files = []
  · subst hfiles
    exact ⟨h.distinct, fun f hf => absurd hf List.not_mem_nil, h.numbers⟩
  · rw [hblock hfiles]
    exact h

theorem Fds.Holds.numbers_nodup (h : d.Holds start ok numbers) : d.kernel.numbers.Nodup :=
  h.perm.nodup_iff.mpr h.nodup

end

/-! ## Opening the destinations -/

section
variable {dir : Bytes} {blockSize : ℕ} {numbers : List ℕ} {d : Fds ι} {opened : List Bytes}
  {he : DFileHeaderEntry}

variable (os env dir blockSize opened he) in
/-- A destination that is opened and given its size is all zeros. -/
theorem rxOpenFd_kernel (h : d.Holds start ok numbers) :
    let r := rxOpenFd os env dir blockSize opened.length he d
    d.Keeps numbers ((rxOpens env dir blockSize opened.length [he]).map fun p => os.file p.2) r.1 ∧
      ∀ fd, r.2 = some fd → ∀ n, fd.fd = some n →
        (n, os.file fd.path) ∈ r.1.kernel.table ∧
          r.1.kernel.disk (os.file fd.path) = List.replicate he.fileSize.toNat 0 := by
  simp only [rxOpenFd, rxOpens]
  by_cases hsize : he.fileSize.toNat > dfileMaxFileSize
  · rw [if_pos hsize]
    exact ⟨.refl _ _ d, fun fd hfd => by cases hfd⟩
  rw [if_neg hsize]
  cases hopen : env.openWrite opened.length (join dir he.name) with
  | false => exact ⟨.refl _ _ d, fun fd hfd => by cases hfd⟩
  | true =>
      have hopened := h.openFile os (join dir he.name) true
      have hfree := (List.nodup_cons.mp hopened.nodup).1
      rw [if_pos ⟨Nat.le_of_not_gt hsize, rfl⟩]
      simp only [ite_self, List.map_cons, List.map_nil]
      set r := d.openFile os (join dir he.name) true with hr
      have hfirst : d.Keeps numbers [os.file (join dir he.name)] r.2 := by
        constructor
        · exact fun e hmem _ => List.mem_cons_of_mem _ hmem
        · intro file hout
          exact Function.update_of_ne (List.ne_of_not_mem_cons hout) _ _
      simp only [Bool.not_true, Bool.false_eq_true, if_false]
      cases env.ftruncate opened.length (join dir he.name) with
      | false =>
          refine ⟨?_, fun fd hfd => by cases hfd⟩
          apply hfirst.trans
          exact (Fds.keeps_close _ _ _ hfree).trans (Fds.keeps_close _ _ _ hfree)
      | true =>
          have hmem : (r.1, os.file (join dir he.name)) ∈ r.2.kernel.table := List.mem_cons_self
          have hdisk := Kernel.change_disk hopened.numbers_nodup hmem
            fun content => resize content he.fileSize.toNat
          have hempty : r.2.kernel.disk (os.file (join dir he.name)) = [] :=
            Function.update_self ..
          have hresized : r.2.Keeps numbers [os.file (join dir he.name)]
              (r.2.call (.resized r.1 he.fileSize.toNat)) := by
            constructor
            · intro e hmem _
              show e ∈ (r.2.kernel.change _ _).table
              rw [Kernel.change_table]
              exact hmem
            · intro file hout
              show (r.2.kernel.change _ _).disk file = _
              rw [hdisk]
              exact Function.update_of_ne (List.ne_of_not_mem_cons hout) _ _
          simp only [Bool.not_true, Bool.false_eq_true, if_false]
          split
          · exact ⟨hfirst.trans hresized, fun fd hfd => by cases hfd⟩
          · refine ⟨hfirst.trans hresized, ?_⟩
            rintro fd ⟨⟩ n ⟨⟩
            constructor
            · show _ ∈ (r.2.kernel.change _ _).table
              rw [Kernel.change_table]
              exact hmem
            · show (r.2.kernel.change _ _).disk _ = _
              rw [hdisk, Function.update_self, hempty, resize_nil]

variable (env dir blockSize he) in
theorem rxOpens_cons (hes : List DFileHeaderEntry) (n : ℕ) :
    ∃ rest, rxOpens env dir blockSize n (he :: hes) = rxOpens env dir blockSize n [he] ++ rest := by
  rw [rxOpens, rxOpens]
  split
  · split <;> exact ⟨_, rfl⟩
  · exact ⟨[], rfl⟩

variable (os) in
/-- **Opening the destinations.** If none of them is the file of another, the files that have
been opened before are left alone, and each new one is all zeros. -/
theorem rxOpenFds_stores (hes : List DFileHeaderEntry) :
    ∀ (opened : List Bytes) (files : List DCFile) (fds : List DcFd) (d : Fds ι),
      d.Holds start False (heldBy fds ++ numbers) →
      d.Stores os (some dir) blockSize (files.map DCFile.undigested) fds →
      ((files.map DCFile.undigested).map (destination os (some dir)) ++
        (rxOpens env dir blockSize opened.length hes).map fun p => os.file p.2).Nodup →
      let r := rxOpenFiles env dir blockSize opened files hes
      let r' := rxOpenFds os env dir blockSize opened.length fds hes d
      r'.2.Stores os (some dir) blockSize (r.2.1.map DCFile.undigested) r'.1 := by
  induction hes with
  | nil => exact fun opened files fds d _ hs _ => hs
  | cons he hes ih =>
      intro opened files fds d h hs hnodup
      have hone : RxOpenFd start False dir (heldBy fds ++ numbers) opened he
          (rxOpenFile env dir blockSize opened he)
          (rxOpenFd os env dir blockSize opened.length he d) :=
        rxOpenFd_holds os env blockSize h fun hno => hno.elim
      obtain ⟨hkeeps, hfresh⟩ := rxOpenFd_kernel os env dir blockSize opened he h
      obtain ⟨rest, hrest⟩ := rxOpens_cons env dir blockSize he hes opened.length
      have hout : ∀ f ∈ files.map DCFile.undigested, destination os (some dir) f ∉
          (rxOpens env dir blockSize opened.length [he]).map fun p => os.file p.2 := by
        intro f hf hmem
        rw [hrest, List.map_append] at hnodup
        refine (List.nodup_append'.mp hnodup).2.2 (List.mem_map_of_mem hf) ?_
        exact List.mem_append_left _ hmem
      have hkept := hs.keeps hkeeps (fun n hn => List.mem_append_left _ hn) hout
      have hspec := (rxOpenFile_spec env dir blockSize opened he).1
      simp only [rxOpenFiles, rxOpenFds]
      rcases hr : rxOpenFile env dir blockSize opened he with ⟨opened', res⟩
      rcases hr' : rxOpenFd os env dir blockSize opened.length he d with ⟨d', fd⟩
      rw [hr, hr'] at hone
      rw [hr'] at hfresh hkept
      rw [hr] at hspec
      cases hone with
      | failed => exact hkept
      | crashed => exact hkept
      | ok f _ n hof hheld =>
          have hlength : (opened ++ [join dir he.name]).length = opened.length + 1 := by simp
          have hnew := hspec f rfl
          obtain ⟨htable, hzeros⟩ := hfresh _ rfl n rfl
          have hdest : destination os (some dir) f.undigested = os.file (join dir he.name) := by
            show os.file (join dir f.name) = _
            rw [hnew.name]
          obtain ⟨hopens, hsized⟩ := rxOpenFile_opens hr
          rw [rxOpens, if_pos hopens, if_pos hsized, List.map_cons] at hnodup
          simp only
          rw [← hlength]
          apply ih
          · apply hheld.congr
            rw [heldBy_append]
            exact List.perm_middle.symm.trans (by rw [List.append_assoc]; rfl)
          · rw [List.map_append, List.map_singleton]
            constructor
            · rw [List.map_append, List.map_singleton, hdest]
              have hsplit := hnodup
              rw [List.append_cons] at hsplit
              exact (List.nodup_append'.mp hsplit).1
            · intro g hg
              rcases List.mem_append.mp hg with hg | hg
              · exact hkept.stored g hg
              · obtain rfl := List.mem_singleton.mp hg
                have hdisk : d'.kernel.disk (destination os (some dir) f.undigested) =
                    List.replicate he.fileSize.toNat 0 := by
                  rw [hdest]
                  exact hzeros
                constructor
                · show f.sha <+: _
                  rw [hnew.sha]
                  exact List.nil_prefix
                · rw [hdisk, List.length_replicate]
                  exact hnew.size.symm
                · show f.sha.length = min (f.expectedSeq * blockSize) f.size
                  rw [hnew.sha, hnew.expectedSeq, Nat.zero_mul, Nat.zero_min]
                  rfl
                · exact hnew.total
                · intro hcomplete
                  have hzero : f.writeComplete = true := hcomplete
                  rw [hnew.writeComplete, decide_eq_true_eq] at hzero
                  show f.totalBlocks ≤ _
                  rw [hzero]
                  exact Nat.zero_le _
            · intro g hg m hm
              rcases List.mem_append.mp hg with hg | hg
              · exact hkept.numbers g hg m hm
              · obtain rfl := List.mem_singleton.mp hg
                cases hm
                exact htable
          · rw [hlength, List.map_append, List.map_append, List.append_assoc, List.map_singleton,
              List.map_singleton, hdest]
            exact hnodup

end

/-! ## A block of data -/

section
variable {dir : Option Bytes} {blockSize : ℕ} {fds : List DcFd} {d : Fds ι}

/-- A block in range begins inside the file. -/
theorem dcTotalBlocks_start {size seq : ℕ} (h : seq < dcTotalBlocks size blockSize) :
    seq * blockSize < size := by
  rw [dcTotalBlocks_eq] at h
  have hceil : seq < size ⌈/⌉ blockSize := h.trans_le (Nat.mod_le _ _)
  by_contra hle
  rcases Nat.eq_zero_or_pos blockSize with rfl | hblock
  · rw [ceilDiv_zero] at hceil
    cases hceil
  · rw [Nat.not_lt, Nat.mul_comm] at hle
    exact absurd ((ceilDiv_le_iff_le_mul hblock).mpr hle) (Nat.not_le.mpr hceil)

theorem updateFile_split {fileId : UInt16} {files : List DCFile} {f : DCFile}
    (g : DCFile → DCFile) (h : findFile files fileId = some f) :
    ∃ pre post, files = pre ++ f :: post ∧ updateFile fileId g files = pre ++ g f :: post := by
  induction files with
  | nil => cases h
  | cons f₁ fs ih =>
      rw [findFile_cons] at h
      rw [updateFile]
      by_cases hid : f₁.fileId = fileId
      · rw [if_pos hid] at h
        cases h
        rw [if_pos hid]
        exact ⟨[], fs, rfl, rfl⟩
      · rw [if_neg hid] at h
        rw [if_neg hid]
        obtain ⟨pre, post, hfiles, hupdate⟩ := ih h
        exact ⟨f₁ :: pre, post, by rw [hfiles]; rfl, by rw [hupdate]; rfl⟩

omit [DecidableEq ι] in
/-- Where the next block goes, and how far the file is filled after it. -/
theorem Stored.next {disk : ι → Bytes} {f : DCFile} {payload : Bytes}
    (h : Stored os disk dir blockSize f) (hrange : f.expectedSeq < f.totalBlocks)
    (hlen : payload.length = dcBlockLen f.size blockSize f.expectedSeq) :
    f.sha.length = f.expectedSeq * blockSize ∧
      f.sha.length + payload.length = min ((f.expectedSeq + 1) * blockSize) f.size := by
  have hinside : f.expectedSeq * blockSize < f.size := by
    apply dcTotalBlocks_start
    rw [← h.total]
    exact hrange
  have hstart : f.sha.length = f.expectedSeq * blockSize := by
    rw [h.received]
    exact Nat.min_eq_left hinside.le
  refine ⟨hstart, ?_⟩
  rw [hstart, hlen, dcBlockLen, Nat.add_one_mul]
  omega

/-- What is written behind the blocks of a file, through its descriptor. -/
theorem Stored.write {f : DCFile} (h : Stored os d.kernel.disk dir blockSize f)
    (hnodup : d.kernel.numbers.Nodup) {n : ℕ} (hn : (n, destination os dir f) ∈ d.kernel.table)
    {data : Bytes} (hfits : f.sha.length + data.length ≤ f.size) :
    let disk := (d.call (.wrote n f.sha.length data)).kernel.disk
    f.sha ++ data <+: disk (destination os dir f) ∧
      (disk (destination os dir f)).length = f.size := by
  show _ <+: (d.kernel.change n _).disk _ ∧ ((d.kernel.change n _).disk _).length = _
  rw [Kernel.change_disk hnodup hn, Function.update_self, ← h.size]
  exact writeAt_prefix h.front (h.size.symm ▸ hfits)

/-- The other files are left alone. -/
theorem Fds.Stores.wrote {pre post : List DCFile} {f f' : DCFile}
    (h : d.Stores os dir blockSize (pre ++ f :: post) fds) (hnodup : d.kernel.numbers.Nodup)
    {n offset : ℕ} {data : Bytes} (hn : (n, destination os dir f) ∈ d.kernel.table)
    (hdest : destination os dir f' = destination os dir f)
    (hf' : Stored os (d.call (.wrote n offset data)).kernel.disk dir blockSize f') :
    (d.call (.wrote n offset data)).Stores os dir blockSize (pre ++ f' :: post) fds := by
  have hdistinct := h.distinct
  rw [List.map_append, List.map_cons] at hdistinct
  have hout : destination os dir f ∉ (pre ++ post).map (destination os dir) := by
    rw [List.map_append]
    exact (List.nodup_middle.mp hdistinct).notMem
  have hother : ∀ g ∈ pre ++ post,
      Stored os (d.call (.wrote n offset data)).kernel.disk dir blockSize g := by
    intro g hg
    apply (h.stored g ?_).congr
    · show (d.kernel.change n _).disk _ = _
      rw [Kernel.change_disk hnodup hn]
      apply Function.update_of_ne
      intro heq
      exact hout (heq ▸ List.mem_map_of_mem hg)
    · rcases List.mem_append.mp hg with hg | hg
      · exact List.mem_append_left _ hg
      · exact List.mem_append_right _ (List.mem_cons_of_mem _ hg)
  constructor
  · rw [List.map_append, List.map_cons, hdest]
    exact hdistinct
  · intro g hg
    rcases List.mem_append.mp hg with hg | hg
    · exact hother g (List.mem_append_left _ hg)
    rcases List.mem_cons.mp hg with rfl | hg
    · exact hf'
    · exact hother g (List.mem_append_right _ hg)
  · intro fd hfd m hm
    show _ ∈ (d.kernel.change n _).table
    rw [Kernel.change_table]
    exact h.numbers fd hfd m hm

theorem mem_closeFd {fileId : UInt16} {fd : DcFd} {n : ℕ} (h : fd ∈ closeFd fileId fds)
    (hn : fd.fd = some n) : fd ∈ fds := by
  induction fds with
  | nil => cases h
  | cons fd₁ fds ih =>
      rw [closeFd] at h
      split at h
      · rcases List.mem_cons.mp h with rfl | h
        · cases hn
        · exact List.mem_cons_of_mem _ h
      · rcases List.mem_cons.mp h with rfl | h
        · exact List.mem_cons_self
        · exact List.mem_cons_of_mem _ (ih h)

/-- The descriptor of a complete file is closed. -/
theorem Fds.Stores.close {files : List DCFile} {fileId : UInt16} {n : ℕ}
    (h : d.Stores os dir blockSize files fds) (hn : n ∉ heldBy (closeFd fileId fds)) :
    (d.call (.closed n)).Stores os dir blockSize files (closeFd fileId fds) where
  distinct := h.distinct
  stored := h.stored
  numbers fd hfd m hm := by
    refine List.mem_filter.mpr ⟨h.numbers fd (mem_closeFd hfd hm) m hm, decide_eq_true ?_⟩
    rintro rfl
    exact hn (mem_heldBy hfd hm)

end

/-! ## The setting -/

/-- Before the setting of the peer there are no blocks and no files. -/
structure DcSet (c : DFileConn) : Prop where
  unset : c.negotiated = false → c.blockSize = 0
  files : c.rxFiles ≠ [] → c.negotiated = true

section
variable {sha256Hex : Bytes → Bytes} {late : Prop} {fr : Option Bytes} {c c' : DFileConn}

theorem DcMoves.set (hm : DcMoves sha256Hex env late fr c c') (hset : c.negotiated = true) :
    c'.blockSize = c.blockSize ∧ c'.negotiated = true := by
  induction hm with
  | refl => exact ⟨rfl, hset⟩
  | tail _ hlast ih =>
      obtain ⟨hblock, hset⟩ := hlast.blockSize_kept ih.2
      exact ⟨hblock.trans ih.1, hset⟩

theorem DcMove.unset (hm : DcMove sha256Hex env late fr c c')
    (h : c.negotiated = false → c.blockSize = 0) : c'.negotiated = false → c'.blockSize = 0 := by
  cases hm with
  | fail isSender reason sendRst =>
      rcases transFail_spec env isSender reason sendRst c with hsame |
        ⟨t, w, crash, -, -, -, -, heq⟩
      · rw [hsame]
        exact h
      · rw [heq]
        cases isSender <;> exact h
  | negotiate => exact fun hunset => by cases hunset
  | _ => exact h

theorem DcMoves.unset (hm : DcMoves sha256Hex env late fr c c')
    (h : c.negotiated = false → c.blockSize = 0) : c'.negotiated = false → c'.blockSize = 0 := by
  induction hm with
  | refl => exact h
  | tail _ hlast ih => exact hlast.unset ih

/-- Files are opened only after the setting. -/
theorem DcSet.next (h : DcSet c) (hm : DcMoves sha256Hex env late fr c c')
    (hfiles : c'.rxFiles ≠ [] → c.blockSize ≠ 0) :
    DcSet c' ∧ (c'.rxFiles ≠ [] → c'.blockSize = c.blockSize) := by
  have hset : c'.rxFiles ≠ [] → c.negotiated = true := by
    intro hne
    by_contra hunset
    exact hfiles hne (h.unset (Bool.eq_false_iff.mpr hunset))
  exact ⟨⟨hm.unset h.unset, fun hne => (hm.set (hset hne)).2⟩, fun hne => (hm.set (hset hne)).1⟩

end

/-! ## The invariant -/

/-- What holds between two events. -/
structure DiskInv (os : Os ι) (start : Kernel ι) (s : FdConn ι) : Prop where
  base : FdInv start False s
  set : DcSet s.conn
  stores : s.fds.Stores os s.conn.recvDir s.conn.blockSize s.conn.rxFiles s.rx

/-- No destination that the frame opens is the file of another. -/
def rxDistinct (os : Os ι) (env : DcEnv) (c : DFileConn) (frame : Bytes) : Bool :=
  (rxHeaderTarget env frame c).all fun r =>
    decide ((rxOpens env r.2 c.blockSize c.opened.length r.1.hdr).map fun p => os.file p.2).Nodup

section
variable {sha256Hex : Bytes → Bytes} {fr : Option Bytes} {s s' : FdConn ι} {c' : DFileConn}

theorem DiskInv.next {late : Prop} (h : DiskInv os start s) (hbase : FdInv start False s')
    (hm : DcMoves sha256Hex env late fr s.conn s'.conn)
    (hfiles : s'.conn.rxFiles ≠ [] → s.conn.blockSize ≠ 0)
    (hstores : s'.fds.Stores os s.conn.recvDir s.conn.blockSize s'.conn.rxFiles s'.rx) :
    DiskInv os start s' := by
  obtain ⟨hset, hblock⟩ := h.set.next hm hfiles
  refine ⟨hbase, hset, ?_⟩
  rw [hm.recvDir]
  exact hstores.blocks hblock

/-- While there are files the block size is set. -/
theorem DiskInv.block (h : DiskInv os start s) (hne : s.conn.rxFiles ≠ []) :
    s.conn.blockSize ≠ 0 :=
  h.base.base.block (h.set.files hne)

/-! ## Frames -/

theorem DiskInv.header {frame : Bytes} (h : DiskInv os start s) (hopen : s.conn.stopped = false)
    (hdistinct : rxDistinct os env s.conn frame = true) :
    (s.handleFileHeader os env frame).fds.Stores os s.conn.recvDir s.conn.blockSize
        (s.handleFileHeader os env frame).conn.rxFiles (s.handleFileHeader os env frame).rx ∧
      ((s.handleFileHeader os env frame).conn.rxFiles ≠ [] → s.conn.blockSize ≠ 0) := by
  have halive := (DFileConn.stopped_eq_false hopen).1
  have hidle := h.base.sound halive
  have hfiles := @handleFileHeader_rxFiles env s.conn frame hidle
  rw [FdConn.handleFileHeader_conn]
  unfold FdConn.handleFileHeader
  rcases htarget : rxHeaderTarget env frame s.conn with _ | ⟨t, dir⟩
  · rw [htarget] at hfiles
    rw [hfiles]
    exact ⟨h.stores, h.block⟩
  simp only [htarget] at hfiles
  obtain ⟨hnone, hdir⟩ := rxHeaderTarget_some hidle htarget
  rw [rxDistinct, htarget, Option.all_some, decide_eq_true_eq] at hdistinct
  have hheld : s.fds.Holds start False (heldBy s.rx ++ heldBy s.tx) :=
    (h.base.holds halive).congr List.perm_append_comm
  have hstores : s.fds.Stores os (some dir) s.conn.blockSize
      (([] : List DCFile).map DCFile.undigested) s.rx := by
    have hstores := h.stores
    rw [hnone, hdir] at hstores
    exact hstores
  rw [hfiles, hdir]
  constructor
  · exact rxOpenFds_stores os t.hdr s.conn.opened [] s.rx s.fds hheld hstores hdistinct
  · intro hne
    obtain ⟨new, hnew, -, -, -, hall⟩ :=
      rxOpenFiles_spec env dir s.conn.blockSize t.hdr s.conn.opened []
    rw [hnew, List.nil_append] at hne
    obtain ⟨f, hf⟩ := List.exists_mem_of_ne_nil _ hne
    obtain ⟨g, hg, -⟩ := List.mem_map.mp hf
    obtain ⟨e, -, hfresh⟩ := hall g hg
    exact hfresh.block

theorem DiskInv.data (h : DiskInv os start s) (env : DcEnv) (frame : Bytes)
    (hopen : s.conn.stopped = false) :
    (s.handleData os env frame).fds.Stores os s.conn.recvDir s.conn.blockSize
        (s.handleData os env frame).conn.rxFiles (s.handleData os env frame).rx ∧
      ((s.handleData os env frame).conn.rxFiles ≠ [] → s.conn.blockSize ≠ 0) := by
  have hfiles := handleData_rxFiles env frame s.conn
  have hheld := h.base.holds (DFileConn.stopped_eq_false hopen).1
  have hnodup := hheld.numbers_nodup
  rw [FdConn.handleData_conn]
  unfold FdConn.handleData
  rcases htarget : rxDataTarget frame s.conn with _ | ⟨d, t, f⟩
  · rw [htarget] at hfiles
    rw [hfiles]
    exact ⟨h.stores, h.block⟩
  simp only [htarget] at hfiles
  obtain ⟨hfind, hseq, hrange, hlen⟩ := rxDataTarget_some htarget
  obtain ⟨fd, hfd, hof⟩ := findFd_of (h.base.files (h.base.not_torn hopen)) hfind
  obtain ⟨pre, post, hsplit, hupdate⟩ :=
    updateFile_split (rxWriteBlock s.conn.blockSize d.payload) hfind
  have hstores := h.stores
  rw [hsplit] at hstores
  have hstored := hstores.stored f.undigested (by simp)
  have hblock : s.conn.blockSize ≠ 0 := h.block (by rw [hsplit]; simp)
  simp only [hfd, Option.bind_some]
  cases hn : fd.fd with
  | none => exact absurd (hof.closed hn) (by rw [Nat.not_le]; exact hrange)
  | some n =>
      simp only
      have hmem : (n, destination os s.conn.recvDir f.undigested) ∈ s.fds.kernel.table := by
        have hmem := h.stores.numbers fd (List.mem_of_find?_eq_some hfd) n hn
        rw [hof.path] at hmem
        exact hmem
      obtain ⟨hlength, hfilled⟩ := hstored.next hrange hlen
      have hstart : d.blockSeq.toNat * s.conn.blockSize = f.sha.length := by
        rw [hseq]
        exact hlength.symm
      have hroom : f.sha.length + d.payload.length ≤ f.size :=
        hfilled.trans_le (Nat.min_le_right ..)
      rw [hstart] at hfiles ⊢
      cases hpwrite : env.pwrite (f.fd.getD []) f.sha.length d.payload with
      | false =>
          rw [hpwrite, if_neg Bool.false_ne_true] at hfiles
          rw [Bool.not_false, if_pos rfl, hfiles]
          refine ⟨?_, fun _ => hblock⟩
          rw [hsplit]
          apply hstores.wrote hnodup hmem rfl
          have hpart : f.sha.length + (d.payload.take (min (os.short s.fds.calls.length)
              (d.payload.length - 1))).length ≤ f.size := by
            rw [List.length_take]
            omega
          obtain ⟨hfront, hsize⟩ := hstored.write hnodup hmem hpart
          constructor
          · exact (List.prefix_append _ _).trans hfront
          · exact hsize
          · exact hstored.received
          · exact hstored.total
          · exact hstored.complete
      | true =>
          rw [hpwrite, if_pos rfl, hupdate] at hfiles
          rw [Bool.not_true, if_neg Bool.false_ne_true]
          have hwrote : (s.fds.call (.wrote n f.sha.length d.payload)).Stores os s.conn.recvDir
              s.conn.blockSize (DFile.handleData env frame s.conn).rxFiles s.rx := by
            rw [hfiles]
            obtain ⟨hfront, hsize⟩ := hstored.write hnodup hmem hroom
            have hdest : destination os s.conn.recvDir
                (rxWriteBlock s.conn.blockSize d.payload f.undigested) =
                  destination os s.conn.recvDir f.undigested := rfl
            apply hstores.wrote hnodup hmem hdest
            constructor
            · exact hfront
            · exact hsize
            · exact (List.length_append ..).trans hfilled
            · exact hstored.total
            · intro hcomplete
              rcases Bool.or_eq_true_iff.mp hcomplete with hbefore | hlast
              · exact (hstored.complete hbefore).trans (Nat.le_succ _)
              · exact of_decide_eq_true hlast
          split
          · refine ⟨hwrote.close ?_, fun _ => hblock⟩
            have hperm : (heldBy s.rx).Perm (n :: heldBy (closeFd d.fileId s.rx)) :=
              heldBy_closeFd (by rw [hfd]; exact hn)
            have hrx : (heldBy s.rx).Nodup := (List.nodup_append'.mp hheld.nodup).2.1
            exact (List.nodup_cons.mp (hperm.nodup_iff.mp hrx)).1
          · exact ⟨hwrote, fun _ => hblock⟩

/-- A step that touches no file of the receiver. -/
theorem DiskInv.quiet {late : Prop} (h : DiskInv os start s) (hbase : FdInv start False s')
    (hm : DcMoves sha256Hex env late fr s.conn s'.conn) (hfiles : s'.conn.rxFiles = s.conn.rxFiles)
    (hstores : s'.fds.Stores os s.conn.recvDir s.conn.blockSize s.conn.rxFiles s'.rx) :
    DiskInv os start s' := by
  apply h.next hbase hm
  · rw [hfiles]
    exact h.block
  · rw [hfiles]
    exact hstores

theorem DiskInv.handleFrame {frame : Bytes} (h : DiskInv os start s)
    (hopen : s.conn.stopped = false) (hdistinct : rxDistinct os env s.conn frame = true) :
    DiskInv os start (s.handleFrame os env frame) := by
  obtain ⟨halive, hstate⟩ := DFileConn.stopped_eq_false hopen
  have hbase : FdInv start False (s.handleFrame os env frame) :=
    h.base.handleFrame hopen fun hno => hno.elim
  have hmoves : DcMoves id env.shut True (some frame) s.conn
      (s.handleFrame os env frame).conn := by
    rw [FdConn.handleFrame_conn, ← handleFrame_shut]
    exact handleFrame_moves (h.base.sound halive) hstate
  rcases @FdConn.handleFrame_cases ι _ os env frame s with ⟨-, hframe⟩ | ⟨-, hframe⟩ |
    ⟨hheader, hdata, hframe⟩
  · obtain ⟨hstores, hblock⟩ := h.header hopen hdistinct
    rw [hframe] at hbase hmoves ⊢
    exact h.next hbase hmoves hblock hstores
  · obtain ⟨hstores, hblock⟩ := h.data env frame hopen
    rw [hframe] at hbase hmoves ⊢
    exact h.next hbase hmoves hblock hstores
  · rw [hframe] at hbase hmoves ⊢
    refine h.quiet hbase hmoves ?_ h.stores
    apply hmoves.rxFiles
    rintro f ⟨⟩
    exact ⟨hheader, hdata⟩

/-! ## Events -/

theorem DiskInv.sendFiles (h : DiskInv os start s) (hopen : s.conn.stopped = false)
    (items : List DFileSendItem) : DiskInv os start (s.sendFiles os env items) := by
  have halive := (DFileConn.stopped_eq_false hopen).1
  have hmoves : DcMoves id env True none s.conn (s.sendFiles os env items).conn := by
    rw [FdConn.sendFiles_conn]
    exact sendFilesImpl_moves items s.conn
  refine h.quiet (h.base.sendFiles hopen items) hmoves (rxFiles_quiet hmoves) ?_
  have hnone : ∀ f ∈ s.conn.rxFiles, destination os s.conn.recvDir f ∉ ([] : List ι) :=
    fun _ _ => List.not_mem_nil
  unfold FdConn.sendFiles
  split
  · exact h.stores
  have hopened : s.fds.Keeps (heldBy s.rx) []
      (txOpenFds os env s.conn.blockSize 0 [] items s.fds).2 :=
    txOpenFds_keeps os env _ s.conn.blockSize items 0 [] s.fds
  simp only
  split
  · rename_i hgo hfailed
    rw [not_or, not_or] at hgo
    have htx : s.tx = [] := h.base.unsent halive (Option.not_isSome_iff_eq_none.mp hgo.2.1)
    have hheld : s.fds.Holds start False (heldBy [] ++ heldBy s.rx) := by
      have hheld := h.base.holds halive
      rw [FdConn.held, htx] at hheld
      exact hheld
    have hnodup := (txOpenFds_holds os env s.conn.blockSize items 0 [] s.fds hheld).nodup
    have hfreed : Fds.Keeps (heldBy s.rx) []
        (txOpenFds os env s.conn.blockSize 0 [] items s.fds).2
        (transFree (txOpenFds os env s.conn.blockSize 0 [] items s.fds).2
          (txOpenFds os env s.conn.blockSize 0 [] items s.fds).1) :=
      transFree_keeps _ fun n hn => (List.nodup_append'.mp hnodup).2.2 hn
    exact h.stores.keeps (hopened.trans hfreed) (fun _ hn => hn) hnone
  · exact h.stores.keeps hopened (fun _ hn => hn) hnone

theorem DiskInv.teardown (h : DiskInv os start s) (hstate : s.conn.state = .closing)
    (halive : s.conn.crash = none) :
    DiskInv os start { s with
      tx := [], rx := [], fds := transFree (transFree s.fds s.tx) s.rx, torn := true } := by
  refine ⟨h.base.teardown hstate halive, h.set, ?_⟩
  have hkeeps : s.fds.Keeps [] [] (transFree (transFree s.fds s.tx) s.rx) :=
    (transFree_keeps s.tx fun _ _ => List.not_mem_nil).trans
      (transFree_keeps s.rx fun _ _ => List.not_mem_nil)
  have hstores : s.fds.Stores os s.conn.recvDir s.conn.blockSize s.conn.rxFiles [] :=
    ⟨h.stores.distinct, h.stores.stored, fun fd hfd => absurd hfd List.not_mem_nil⟩
  exact hstores.keeps hkeeps (fun _ hn => hn) fun _ _ => List.not_mem_nil

/-- **Step lemma.** -/
theorem DiskInv.step {e : FdEv} (h : DiskInv os start s)
    (hdistinct : e.every (rxDistinct os) s = true) (hs : s.step os sha256Hex e = some s') :
    DiskInv os start s' := by
  refine FdConn.step_keeps (fun env c frame => rxDistinct os env c frame = true) ?_ ?_ ?_ ?_ ?_ h
    ?_ hs
  · intro env s c' h hopen hm
    have hquiet : c'.rxFiles = s.conn.rxFiles := hm.rxFiles fun _ hf => by cases hf
    exact h.quiet (h.base.moves hopen hm) hm hquiet h.stores
  · intro s buf h
    exact ⟨h.base.buffer buf, ⟨h.set.unset, h.set.files⟩, h.stores⟩
  · exact fun h hopen hok => h.handleFrame hopen hok
  · exact fun items h hopen => h.sendFiles hopen items
  · exact fun h hstate halive => h.teardown hstate halive
  · exact fun d hd => List.all_eq_true.mp hdistinct d hd

end

/-! ## Every run -/

/-- What the receiver owes to its entries. `sha` is what was received for a file. -/
structure OwnContent (os : Os ι) (s : FdConn ι) : Prop where
  distinct : (s.conn.rxFiles.map (destination os s.conn.recvDir)).Nodup
  /-- What has been written is there. -/
  kept : ∀ f ∈ s.conn.rxFiles,
    f.sha <+: s.fds.kernel.disk (destination os s.conn.recvDir f) ∧
      (s.fds.kernel.disk (destination os s.conn.recvDir f)).length = f.size
  /-- A confirmed transfer has a file for each entry. -/
  confirmed : ∀ t, s.conn.rx = some t →
    t.phase = .rxWaitData ∨ t.phase = .rxWaitDoneack ∨ t.phase = .rxDone →
    t.files.map DCFile.headerEntry = t.hdr ∧
      (t.hdr.map fun e => os.file (join (s.conn.recvDir.getD []) e.name)).Nodup
  /-- A transfer that is reported ok has all its files on the disk. -/
  told : ∀ n m, (n, DcEvent.result false true m) ∈ s.conn.events →
    ∃ t, s.conn.rx = some t ∧ t.files.map DCFile.headerEntry = t.hdr ∧
      ∀ f ∈ t.files, f.writeComplete = true ∧
        (f.size ≤ (2 ^ 32 - 1) * s.conn.blockSize →
          s.fds.kernel.disk (destination os s.conn.recvDir f) = f.sha)

section
variable {sha256Hex : Bytes → Bytes} {s : FdConn ι}

omit [DecidableEq ι] in
/-- A complete file is what was received, if the number of its blocks fits. -/
theorem Stored.whole {disk : ι → Bytes} {dir : Option Bytes} {blockSize : ℕ} {f : DCFile}
    (h : Stored os disk dir blockSize f) (hblock : blockSize ≠ 0)
    (hcomplete : f.writeComplete = true) (hfits : f.size ≤ (2 ^ 32 - 1) * blockSize) :
    disk (destination os dir f) = f.sha := by
  have htotal := (dcTotalBlocks_exact (Nat.pos_of_ne_zero hblock)).mpr hfits
  have hcovers : f.size ≤ f.expectedSeq * blockSize := by
    rw [Nat.mul_comm, ← ceilDiv_le_iff_le_mul (Nat.pos_of_ne_zero hblock), ← htotal, ← h.total]
    exact h.complete hcomplete
  refine (h.front.eq_of_length ?_).symm
  rw [h.received, h.size]
  exact Nat.min_eq_right hcovers

theorem DiskInv.ownContent (h : DiskInv os start s) (hreported : RxReported s.conn) :
    OwnContent os s := by
  have hmem : ∀ {t : DCTrans} {f : DCFile}, s.conn.rx = some t → f ∈ t.files →
      f.undigested ∈ s.conn.rxFiles := by
    intro t f ht hf
    rw [DFileConn.rxFiles_of ht]
    exact List.mem_map_of_mem hf
  constructor
  · exact h.stores.distinct
  · intro f hf
    exact ⟨(h.stores.stored f hf).front, (h.stores.stored f hf).size⟩
  · intro t ht hphase
    have hall : Confirmed t := by
      rcases hphase with hwait | hend
      · exact hreported.receiving t ht hwait
      · exact (hreported.finishing t ht hend).1
    refine ⟨hall.files, ?_⟩
    have hdistinct := h.stores.distinct
    rw [DFileConn.rxFiles_of ht, List.map_map] at hdistinct
    rw [← hall.files, List.map_map]
    exact hdistinct
  · intro n m htold
    obtain ⟨t, ht, hdone⟩ := hreported.told n m htold
    obtain ⟨hall, -, hcomplete⟩ := hreported.finishing t ht (Or.inr hdone)
    refine ⟨t, ht, hall.files, ?_⟩
    intro f hf
    have hwritten : f.writeComplete = true :=
      List.all_eq_true.mp (Bool.and_eq_true_iff.mp hcomplete).2 f hf
    have hstored := h.stores.stored f.undigested (hmem ht hf)
    have hblock := h.block (List.ne_nil_of_mem (hmem ht hf))
    exact ⟨hwritten, fun hfits => hstored.whole hblock hwritten hfits⟩

theorem fdAlloc_disk (now : UInt64) (recvDir : Option Bytes) (disk : ι → Bytes) :
    DiskInv os ⟨[], disk⟩ (fdAlloc now recvDir disk) where
  base := fdAlloc_inv now recvDir disk
  set := ⟨fun _ => rfl, fun hne => absurd rfl hne⟩
  stores := ⟨.nil, fun _ hf => absurd hf List.not_mem_nil, fun _ hfd => absurd hfd List.not_mem_nil⟩

/-- **Own content.** In every run in which no header opens two destinations that are one file,
each destination holds what was received for its entry, and a transfer that is reported ok has
left the whole of it. -/
theorem FdConn.own_content {now : UInt64} {recvDir : Option Bytes} {disk : ι → Bytes}
    {es : List FdEv}
    (hok : Meets (FdConn.step os sha256Hex) (fun s e => e.every (rxDistinct os) s = true)
      (fdAlloc now recvDir disk) es)
    (hrun : run (FdConn.step os sha256Hex) (fdAlloc now recvDir disk) es = some s) :
    OwnContent os s := by
  have hinv : DiskInv os ⟨[], disk⟩ s ∧ RxReported s.conn := by
    apply run_inv (fun s : FdConn ι => DiskInv os ⟨[], disk⟩ s ∧ RxReported s.conn)
      (fun s e => e.every (rxDistinct os) s = true) _
      ⟨fdAlloc_disk now recvDir disk, dcAlloc_reported now recvDir⟩ hok hrun
    rintro s e s' ⟨h, hreported⟩ hdistinct hs
    refine ⟨h.step hdistinct hs, ?_⟩
    cases e with
    | event e => exact (DFileConn.step_reported ⟨hreported, h.base.sound⟩ (FdConn.step_conn hs)).1
    | teardown =>
        rw [FdConn.step] at hs
        split at hs
        · cases hs
          exact hreported
        · cases hs
  exact hinv.1.ownContent hinv.2

end

/-! ### Two entries with one name -/

/-- Receive two files of one byte each, an A and a B. -/
def receiveTwo (name name' : Bytes) : List FdEv :=
  let env := oneByteEnv 0 fun _ => dcTakesAll
  let header := ((dfileEncodeFileHeader (dfileFrameMaxSize + 16) 1 2
    [⟨1, 1, name⟩, ⟨2, 1, name'⟩] 0 2).map Prod.fst).getD []
  let block := fun id b =>
    (dfileEncodeData (dfileFrameMaxSize + 16) 1 dfileFlagDataEnd id 0 [b]).getD []
  let doneAck := (dfileEncodeIdlist dcIdlistCap .fileTransferDoneAck 0 1 [1, 2]).getD []
  [.event (.start env), .event (.read env dcPeerSetting), .event (.read env header),
    .event (.read env (block 1 65)), .event (.read env (block 2 66)), .event (.tick env),
    .event (.read env doneAck)]

theorem FdConn.own_content_two :
    ∃ s, run (FdConn.step plainOs id) (fdAlloc 0 (some (ascii "/d")) fun _ => [])
        (receiveTwo (ascii "f") (ascii "g")) = some s ∧
      s.fds.kernel.disk (ascii "/d/f") = [65] ∧ s.fds.kernel.disk (ascii "/d/g") = [66] ∧
      OwnContent plainOs s := by
  obtain ⟨s, hrun, hdisk⟩ := Option.map_eq_some_iff.mp (show
    (run (FdConn.step plainOs id) (fdAlloc 0 (some (ascii "/d")) fun _ => [])
      (receiveTwo (ascii "f") (ascii "g"))).map (fun s =>
        (s.fds.kernel.disk (ascii "/d/f"), s.fds.kernel.disk (ascii "/d/g"))) =
      some ([65], [66]) by decide +kernel)
  have hok : Meets (FdConn.step plainOs id) (fun s e => e.every (rxDistinct plainOs) s = true)
      (fdAlloc 0 (some (ascii "/d")) fun _ => []) (receiveTwo (ascii "f") (ascii "g")) :=
    meets_of_test (fun _ _ h => h) _ (by decide +kernel)
  exact ⟨s, hrun, congrArg Prod.fst hdisk, congrArg Prod.snd hdisk, FdConn.own_content hok hrun⟩

/-- **The second entry overwrites the first**, and the transfer is reported ok. -/
theorem FdConn.not_own_content :
    ∃ s, run (FdConn.step plainOs id) (fdAlloc 0 (some (ascii "/d")) fun _ => [])
        (receiveTwo (ascii "f") (ascii "f")) = some s ∧
      s.conn.events.getLast? =
        some (5, .result false true "received: f sha256=A (unverified) f sha256=B (unverified)") ∧
      ¬ OwnContent plainOs s := by
  obtain ⟨s, hrun, hend⟩ := Option.map_eq_some_iff.mp (show
    (run (FdConn.step plainOs id) (fdAlloc 0 (some (ascii "/d")) fun _ => [])
      (receiveTwo (ascii "f") (ascii "f"))).map (fun s =>
        (s.conn.events.getLast?, s.conn.rxFiles.map fun f =>
          decide (f.sha <+: s.fds.kernel.disk (destination plainOs s.conn.recvDir f)))) =
      some (some (5, .result false true
        "received: f sha256=A (unverified) f sha256=B (unverified)"), [false, true])
      by decide +kernel)
  refine ⟨s, hrun, congrArg Prod.fst hend, ?_⟩
  intro h
  have hfiles : (s.conn.rxFiles.map fun f =>
      decide (f.sha <+: s.fds.kernel.disk (destination plainOs s.conn.recvDir f))) =
      [false, true] := congrArg Prod.snd hend
  have hlost : false ∈ s.conn.rxFiles.map fun f =>
      decide (f.sha <+: s.fds.kernel.disk (destination plainOs s.conn.recvDir f)) := by
    exact hfiles.symm ▸ List.mem_cons_self
  obtain ⟨f, hf, hnot⟩ := List.mem_map.mp hlost
  exact of_decide_eq_false hnot (h.kept f hf).1

end HwPhoneLink.DFile
