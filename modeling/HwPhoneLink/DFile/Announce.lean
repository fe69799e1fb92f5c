import HwPhoneLink.DFile.Delivery

/-!
# Announcing the files

The header of a transfer is cut into frames, and sent again while the peer has not confirmed
it. The receiver puts the entries of the frames together, drops those it has, and takes the
list once it is complete.
-/

namespace HwPhoneLink.DFile

open BigEndian Path HwPhoneLink.Testfile

/-! ## The list of the sender -/

/-- What the two sides have to agree about: id, size and name. -/
def DCFile.listed (f : DCFile) : UInt16 × ℕ × Bytes := (f.fileId, f.size, f.name)

def DFileHeaderEntry.listed (e : DFileHeaderEntry) : UInt16 × ℕ × Bytes :=
  (e.fileId, e.fileSize.toNat, e.name)

/-- The name that `send_files_impl` gives an item. -/
def DFileSendItem.sentName (item : DFileSendItem) : Bytes :=
  cString (item.name.getD (ascii "unnamed"))

/-- A list that can be announced. -/
structure Announceable (ents : List DFileHeaderEntry) : Prop where
  ne_nil : ents ≠ []
  length_le : ents.length ≤ dfileMaxFileNum
  sendable : ∀ e ∈ ents, e.Sendable
  ids : (ents.map fun e => e.fileId).Nodup
  size_le : ∀ e ∈ ents, e.fileSize.toNat ≤ dfileMaxFileSize

/-- The node number of the list is its length. -/
theorem Announceable.node_toNat {ents : List DFileHeaderEntry} (h : Announceable ents) :
    (UInt16.ofNat ents.length).toNat = ents.length := by
  have hle : ents.length ≤ 500 := h.length_le
  rw [UInt16.toNat_ofNat', Nat.mod_eq_of_lt (by omega)]

theorem txOpenFile_listed {env : DcEnv} {blockSize i : ℕ} {item : DFileSendItem} {f : DCFile}
    (h : txOpenFile env blockSize i item = .ok f) :
    f.fileId = UInt16.ofNat (i + 1) ∧ f.name = item.sentName ∧ f.size ≤ dfileMaxFileSize := by
  unfold txOpenFile at h
  split at h
  · cases h
  split at h
  · cases h
  split at h
  · cases h
  split at h
  · cases h
  rename_i hsize
  split at h
  · cases h
  · cases h
    exact ⟨rfl, rfl, Nat.le_of_not_gt hsize⟩

/-- The files are numbered in the order of the items. -/
theorem txOpenFiles_ids {env : DcEnv} {blockSize : ℕ} (items : List DFileSendItem) :
    ∀ {i : ℕ} {files : List DCFile}, txOpenFiles env blockSize i items = .ok files →
      files.map (fun f => f.fileId) = (List.range' (i + 1) items.length).map UInt16.ofNat := by
  induction items with
  | nil =>
      intro i files h
      cases h
      rfl
  | cons item items ih =>
      intro i files h
      unfold txOpenFiles at h
      split at h
      · cases h
      · cases h
      · rename_i f hf
        split at h
        · cases h
        · cases h
        · rename_i fs hfs
          cases h
          rw [List.map_cons, ih hfs, (txOpenFile_listed hf).1, List.length_cons, List.range'_succ,
            List.map_cons]

/-- The numbers of at most 500 files differ. -/
theorem nodup_ids {n : ℕ} (hn : n ≤ dfileMaxFileNum) :
    ((List.range' 1 n).map UInt16.ofNat).Nodup := by
  rw [dfileMaxFileNum] at hn
  apply List.Nodup.map_on
  · intro a ha b hb hab
    rw [List.mem_range'_1] at ha hb
    have hnat := congrArg UInt16.toNat hab
    rw [UInt16.toNat_ofNat', UInt16.toNat_ofNat', Nat.mod_eq_of_lt (by omega),
      Nat.mod_eq_of_lt (by omega)] at hnat
    exact hnat
  · exact List.nodup_range'

/-- What can be announced of the files opened for the items, if their names fit. -/
theorem txOpenFiles_announceable {env : DcEnv} {blockSize : ℕ} {items : List DFileSendItem}
    {files : List DCFile} (h : txOpenFiles env blockSize 0 items = .ok files)
    (hne : items.length ≠ 0) (hmax : items.length ≤ dfileMaxFileNum)
    (hnames : ∀ item ∈ items, item.sentName ≠ [])
    (hshort : ∀ f ∈ files, f.name.length < dfileMaxFileNameLen) :
    Announceable (files.map DCFile.headerEntry) ∧
      (files.map DCFile.headerEntry).map DFileHeaderEntry.listed = files.map DCFile.listed := by
  have hids := txOpenFiles_ids items h
  have hlen : files.length = items.length := by
    have hlens := congrArg List.length hids
    simpa using hlens
  have hfile : ∀ f ∈ files, f.fileId ≠ 0 ∧ f.name ≠ [] ∧ (0 : UInt8) ∉ f.name ∧
      (UInt64.ofNat f.size).toNat = f.size ∧ f.size ≤ dfileMaxFileSize := by
    intro f hf
    obtain ⟨j, item, hitem, hj⟩ := txOpenFiles_mem items h f hf
    obtain ⟨-, hname, hsize⟩ := txOpenFile_listed hj
    have hid : f.fileId ∈ files.map fun f => f.fileId := List.mem_map_of_mem hf
    rw [hids, List.mem_map] at hid
    obtain ⟨a, ha, hid⟩ := hid
    rw [List.mem_range'_1] at ha
    have hword : (UInt16.ofNat a).toNat = a := by
      rw [UInt16.toNat_ofNat', Nat.mod_eq_of_lt]
      rw [dfileMaxFileNum] at hmax
      omega
    refine ⟨?_, hname ▸ hnames item hitem, hname ▸ cString_no_nul _, ?_, hsize⟩
    · intro hzero
      rw [hzero] at hid
      rw [hid] at hword
      have : (0 : UInt16).toNat = 0 := rfl
      omega
    · rw [UInt64.toNat_ofNat', Nat.mod_eq_of_lt]
      rw [dfileMaxFileSize] at hsize
      omega
  constructor
  · constructor
    · intro hnil
      rw [List.map_eq_nil_iff] at hnil
      rw [hnil] at hlen
      exact hne hlen.symm
    · rw [List.length_map, hlen]
      exact hmax
    · intro e he
      obtain ⟨f, hf, rfl⟩ := List.mem_map.mp he
      obtain ⟨hid, hname, hnul, -, -⟩ := hfile f hf
      exact ⟨hid, hname, hshort f hf, hnul⟩
    · rw [List.map_map]
      show (files.map fun f => f.fileId).Nodup
      rw [hids]
      exact nodup_ids hmax
    · intro e he
      obtain ⟨f, hf, rfl⟩ := List.mem_map.mp he
      obtain ⟨-, -, -, hsize, hle⟩ := hfile f hf
      show (UInt64.ofNat f.size).toNat ≤ dfileMaxFileSize
      rw [hsize]
      exact hle
  · rw [List.map_map]
    apply List.map_congr_left
    intro f hf
    show (f.fileId, (UInt64.ofNat f.size).toNat, f.name) = (f.fileId, f.size, f.name)
    rw [(hfile f hf).2.2.2.1]

/-! ## The frames of a round -/

/-- Names are measured as far as entries are taken. -/
theorem fileHeaderFits_short {cap : ℕ} (es : List DFileHeaderEntry) : ∀ {pos n : ℕ},
    fileHeaderFits cap pos es = some n →
      ∀ e ∈ es.take n, e.name.length < dfileMaxFileNameLen := by
  induction es with
  | nil =>
      intro pos n _ e he
      rw [List.take_nil] at he
      cases he
  | cons x es ih =>
      intro pos n h e he
      unfold fileHeaderFits at h
      split at h
      · cases h
      rename_i hshort
      split at h
      · cases h
        cases he
      · obtain ⟨m, hm, rfl⟩ := Option.map_eq_some_iff.mp h
        rw [List.take_succ_cons] at he
        rcases List.mem_cons.mp he with rfl | he
        · exact Nat.lt_of_not_ge hshort
        · exact ih hm e he

theorem dfileEncodeFileHeader_short {transId node : UInt16} {ents : List DFileHeaderEntry}
    {start count written cap : ℕ} {f : Bytes}
    (h : dfileEncodeFileHeader cap transId node ents start count = some (f, written)) :
    ∀ e ∈ (ents.drop start).take written, e.name.length < dfileMaxFileNameLen := by
  simp only [dfileEncodeFileHeader] at h
  split at h
  · cases h
  split at h
  · cases h
  · cases h
  rename_i m hfits
  cases h
  obtain ⟨hle, -⟩ := fileHeaderFits_le _ hfits
  rw [List.length_take] at hle
  have hshort := fileHeaderFits_short _ hfits
  rw [List.take_take, Nat.min_eq_left (by omega)] at hshort
  exact hshort

/-- The entries of a list, cut into the frames of a round. -/
structure HeaderRound (transId node : UInt16) (ents : List DFileHeaderEntry)
    (parts : List (List DFileHeaderEntry)) (frames : List Bytes) : Prop where
  flatten : parts.flatten = ents
  nonempty : ∀ p ∈ parts, p ≠ []
  decode : frames.map dfileDecodeFileHeader = parts.map fun p => some ⟨transId, node, p⟩

theorem txHeaderFramesFrom_short {transId : UInt16} {ents : List DFileHeaderEntry} (fuel : ℕ) :
    ∀ {start : ℕ} {frames : List Bytes}, ents.length - start ≤ fuel →
      txHeaderFramesFrom transId ents fuel start = some frames →
      ∀ e ∈ ents.drop start, e.name.length < dfileMaxFileNameLen := by
  induction fuel with
  | zero =>
      intro start frames hfuel _ e he
      rw [List.drop_eq_nil_of_le (by omega)] at he
      cases he
  | succ fuel ih =>
      intro start frames hfuel h e he
      unfold txHeaderFramesFrom at h
      split at h
      swap
      · rw [List.drop_eq_nil_of_le (by omega)] at he
        cases he
      split at h
      · cases h
      rename_i f written hf
      obtain ⟨rest, hrest, -⟩ := Option.map_eq_some_iff.mp h
      obtain ⟨-, -, hpos, -, -⟩ := dfileEncodeFileHeader_frame (by decide) hf
      rw [← List.take_append_drop written (ents.drop start), List.drop_drop] at he
      rcases List.mem_append.mp he with he | he
      · exact dfileEncodeFileHeader_short hf e he
      · exact ih (by omega) hrest e he

/-- The header loop cuts the list. -/
theorem txHeaderFramesFrom_round {transId : UInt16} {ents : List DFileHeaderEntry}
    (hents : Announceable ents) (fuel : ℕ) : ∀ {start : ℕ} {frames : List Bytes},
      ents.length - start ≤ fuel → txHeaderFramesFrom transId ents fuel start = some frames →
      ∃ parts, HeaderRound transId (UInt16.ofNat ents.length) (ents.drop start) parts frames := by
  have hpos := List.length_pos_iff.mpr hents.ne_nil
  have hnode := hents.node_toNat
  induction fuel with
  | zero =>
      intro start frames hfuel h
      cases h
      refine ⟨[], ?_, fun p hp => absurd hp List.not_mem_nil, rfl⟩
      rw [List.drop_eq_nil_of_le (by omega)]
      rfl
  | succ fuel ih =>
      intro start frames hfuel h
      unfold txHeaderFramesFrom at h
      split at h
      swap
      · cases h
        refine ⟨[], ?_, fun p hp => absurd hp List.not_mem_nil, rfl⟩
        rw [List.drop_eq_nil_of_le (by omega)]
        rfl
      split at h
      · cases h
      rename_i f written hf
      obtain ⟨rest, hrest, rfl⟩ := Option.map_eq_some_iff.mp h
      obtain ⟨-, -, hwritten, -, hle⟩ := dfileEncodeFileHeader_frame (by decide) hf
      have hdecode := dfileDecodeFileHeader_encode (by decide) hents.sendable (by omega) (by omega)
        hf
      obtain ⟨parts, hparts⟩ := ih (by omega) hrest
      refine ⟨(ents.drop start).take written :: parts, ?_, ?_, ?_⟩
      · rw [List.flatten_cons, hparts.flatten, ← List.drop_drop, List.take_append_drop]
      · intro p hp
        rcases List.mem_cons.mp hp with rfl | hp
        · intro hnil
          have hlen := congrArg List.length hnil
          rw [List.length_take, List.length_drop, List.length_nil] at hlen
          omega
        · exact hparts.nonempty p hp
      · rw [List.map_cons, List.map_cons, hdecode, hparts.decode]

/-- An accepted send: the transfer that waits, and its header among the writes. -/
theorem sendFilesImpl_accepted {env : DcEnv} {items : List DFileSendItem} {s s' : DFileConn}
    {t : DCTrans} (h : sendFilesImpl env items s = (s', none)) (ht : s'.tx = some t) :
    items.length ≠ 0 ∧ items.length ≤ dfileMaxFileNum ∧
      txOpenFiles env s.blockSize 0 items = .ok t.files ∧
      ∃ frames, txHeaderFrames t = some frames ∧ s'.out = s.out ++ frames := by
  unfold sendFilesImpl at h
  split at h
  · cases h
  split at h
  · cases h
  rename_i hfree
  split at h
  · cases h
  rename_i hcount
  simp only at h
  split at h
  · cases h
  · cases h
    rw [ht] at hfree
    exact absurd rfl hfree
  · rename_i files hopen
    split at h
    · cases h
    rename_i c hsent
    cases h
    cases ht
    refine ⟨by omega, by omega, hopen, ?_⟩
    rcases txSendHeaderFrom_spec env s.nextTransId (files.map DCFile.headerEntry) files.length 0
      { s with
        nextTransId := s.nextTransId + 1
        tx := some { transNew true s.nextTransId env.now with files := files } } with
      ⟨-, frames, hframes, hout, -⟩ | ⟨hbroken, -⟩
    · refine ⟨frames, hframes, ?_⟩
      exact congrArg DFileConn.out ((congrArg Prod.fst hsent).symm.trans hout)
    · have hok := hbroken.symm.trans (congrArg Prod.snd hsent)
      cases hok

/-! ## The list of the receiver -/

/-- Entries that are new are all taken, as long as there is room. -/
theorem rxAddEntries_fresh {node : ℕ} (es : List DFileHeaderEntry) :
    ∀ {hdr : List DFileHeaderEntry}, ((hdr ++ es).map fun e => e.fileId).Nodup →
      hdr.length + es.length ≤ node → rxAddEntries node hdr es = (hdr ++ es, true) := by
  induction es with
  | nil =>
      intro hdr _ _
      rw [rxAddEntries, List.append_nil]
  | cons e es ih =>
      intro hdr hids hroom
      rw [List.length_cons] at hroom
      have hnew : ¬ (hdr.any fun h => h.fileId = e.fileId) = true := by
        intro hany
        obtain ⟨h, hh, hsame⟩ := List.any_eq_true.mp hany
        rw [List.map_append] at hids
        exact (List.nodup_append.mp hids).2.2 _ (List.mem_map_of_mem hh) _
          (List.mem_map_of_mem List.mem_cons_self) (of_decide_eq_true hsame)
      have hnext : hdr ++ e :: es = (hdr ++ [e]) ++ es := by simp
      rw [hnext] at hids
      rw [rxAddEntries, if_neg hnew, if_neg (by omega), hnext]
      apply ih hids
      rw [List.length_append, List.length_singleton]
      omega

/-- Entries that are known are all dropped. -/
theorem rxAddEntries_known {node : ℕ} {hdr : List DFileHeaderEntry} (es : List DFileHeaderEntry) :
    es ⊆ hdr → rxAddEntries node hdr es = (hdr, true) := by
  induction es with
  | nil => intro _; rfl
  | cons e es ih =>
      intro hsub
      have hany : (hdr.any fun h => h.fileId = e.fileId) = true :=
        List.any_eq_true.mpr ⟨e, hsub List.mem_cons_self, decide_eq_true rfl⟩
      rw [rxAddEntries, if_pos hany]
      exact ih fun x hx => hsub (List.mem_cons_of_mem e hx)

/-- The destinations of a list can be opened and sized. -/
def Openable (env : DcEnv) (dir : Bytes) (names : List Bytes) : Prop :=
  ∀ name ∈ names, ∀ n, env.openWrite n (join dir name) = true ∧
    env.ftruncate n (join dir name) = true

theorem rxOpenFiles_ok {env : DcEnv} {dir : Bytes} {blockSize : ℕ} (hblock : blockSize ≠ 0)
    (hes : List DFileHeaderEntry) : Openable env dir (hes.map fun e => e.name) →
      (∀ e ∈ hes, e.fileSize.toNat ≤ dfileMaxFileSize) → ∀ opened files, ∃ new,
        rxOpenFiles env dir blockSize opened files hes =
          (opened ++ hes.map (fun e => join dir e.name), files ++ new, .ok ()) ∧
        new.map DCFile.listed = hes.map DFileHeaderEntry.listed := by
  induction hes with
  | nil =>
      intro _ _ opened files
      exact ⟨[], by simp [rxOpenFiles], rfl⟩
  | cons he hes ih =>
      intro hopen hsize opened files
      obtain ⟨hcreate, htrunc⟩ := hopen he.name (by simp) opened.length
      have hfits : ¬ he.fileSize.toNat > dfileMaxFileSize :=
        Nat.not_lt.mpr (hsize he List.mem_cons_self)
      obtain ⟨f, hf, hlisted⟩ : ∃ f, rxOpenFile env dir blockSize opened he =
          (opened ++ [join dir he.name], .ok f) ∧ f.listed = he.listed := by
        simp only [rxOpenFile, hfits, hcreate, htrunc, hblock, Bool.not_true, Bool.false_eq_true,
          if_false]
        exact ⟨_, rfl, rfl⟩
      obtain ⟨new, hnew, hsame⟩ := ih
        (fun name hname => hopen name (List.mem_cons_of_mem _ hname))
        (fun e he' => hsize e (List.mem_cons_of_mem _ he')) (opened ++ [join dir he.name])
        (files ++ [f])
      refine ⟨f :: new, ?_, ?_⟩
      · simp only [rxOpenFiles, hf, hnew, List.map_cons, List.append_assoc, List.singleton_append]
      · rw [List.map_cons, List.map_cons, hlisted, hsame]

/-! ## What the receiver does with the frames -/

/-- Frames that come in, handled one after the other while the connection is open. -/
def dcHandleAll (c : DFileConn) (ds : List (DcEnv × Bytes)) : DFileConn :=
  ds.foldl (fun c d => c.whileOpen (handleFrame d.1 d.2)) c

/-- The writes of two frames in turn, the second only after all of the first. -/
def sentInTurn (env : DcEnv) (n : ℕ) (f g : Bytes) : List Bytes :=
  let r := dcSendLoop (env.send n) f
  if r.2 = .sent then [r.1, (dcSendLoop (env.send (n + 1)) g).1] else [r.1]

/-- Entries are missing: they are gathered, and that is all. -/
structure Gathering (t : DCTrans) (c c' : DFileConn) : Prop where
  quiet : c' = { c with rx := c'.rx }
  missing : ∀ u, c'.rx = some u → u.phase = .idle ∧ u.files = [] ∧
    ∃ rest, rest ≠ [] ∧ u.hdr.map DFileHeaderEntry.listed ++ rest = t.files.map DCFile.listed

/-- The list is complete, and has been taken once: the destinations are open, the
application is told, and the peer's files are confirmed and requested. -/
structure Taken (t : DCTrans) (dir : Bytes) (env : DcEnv) (c c' : DFileConn) : Prop where
  header : ∃ u, c'.rx = some u ∧ u.transId = t.transId ∧
    u.hdr.map DFileHeaderEntry.listed = t.files.map DCFile.listed ∧
    u.files.map DCFile.listed = t.files.map DCFile.listed
  opened : c'.opened = c.opened ++ t.files.map fun f => join dir f.name
  told : ∃ hdr more, hdr.map DFileHeaderEntry.listed = t.files.map DCFile.listed ∧
    c'.events = c.events ++ (c.out.length, .fileList hdr) :: more ∧
    ∀ e ∈ more, ∀ l, e.2 ≠ .fileList l
  pulled : ∃ confirm req,
    dfileDecodeIdlist confirm .fileHeaderConfirm =
      some ⟨t.transId, 0, t.files.map fun f => f.fileId⟩ ∧
    dfileDecodeIdlist req .fileTransferReq = some ⟨t.transId, 0, t.files.map fun f => f.fileId⟩ ∧
    c'.out = c.out ++ sentInTurn env c.out.length confirm req

/-- The announcement of a transfer whose header takes `m` frames: nothing happens before
the last of them, and everything at it. -/
structure Announced (t : DCTrans) (m : ℕ) (c : DFileConn) (ds : List (DcEnv × Bytes)) : Prop where
  accepted : ∀ d ∈ ds, (dfileDecodeFileHeader d.2).isSome = true
  gathering : ∀ n < m, Gathering t c (dcHandleAll c (ds.take n))
  taken : ∃ dir d, c.recvDir = some dir ∧ ds[m - 1]? = some d ∧
    ∀ n, m ≤ n → Taken t dir d.1 c (dcHandleAll c (ds.take n))

section
variable {env : DcEnv} {c : DFileConn}

/-- One `dc_send` of an open connection. -/
theorem dcSend_open (hopen : c.stopped = false) (f : Bytes) :
    let r := dcSendLoop (env.send c.out.length) f
    ∃ crash, dcSend env c f =
        ({ c with out := c.out ++ [r.1], crash := crash }, decide (r.2 = .sent)) ∧
      (r.2 = .sent → crash = none) := by
  have hwrite : dcWrite env c f = ([(dcSendLoop (env.send c.out.length) f).1],
      (dcSendLoop (env.send c.out.length) f).2) := by
    rw [dcWrite, if_neg (by simp [hopen])]
  refine ⟨(dcSend env c f).1.crash, ?_, ?_⟩
  · simp only [dcSend, dcSendRaw, hwrite]
  · intro hsent
    have hs : (dcSend env c f).2 = true := by
      simp only [dcSend, dcSendRaw, hwrite, hsent, decide_true]
    rw [(dcSend_sent hs).2]
    exact (DFileConn.stopped_eq_false hopen).1

/-- What confirming and requesting leave of the connection and of the transfer. -/
structure Confirms (t : DCTrans) (ws : List Bytes) (c c' : DFileConn) : Prop where
  out : c'.out = c.out ++ ws
  opened : c'.opened = c.opened
  told : ∃ more, c'.events = c.events ++ more ∧ ∀ e ∈ more, ∀ l, e.2 ≠ .fileList l
  rx : ∃ u, c'.rx = some u ∧ u.transId = t.transId ∧ u.nodeNumber = t.nodeNumber ∧
    u.hdr = t.hdr ∧ u.files = t.files ∧
    (c'.stopped = true ∨ u.phase = .failed ∨ u.phase = .rxWaitData)

/-- The process died of the send. -/
theorem Confirms.dead {t : DCTrans} (ws : List Bytes) (k : DcCrash) (hrx : c.rx = some t) :
    Confirms t ws c { c with out := c.out ++ ws, crash := some k } where
  out := rfl
  opened := rfl
  told := ⟨[], by simp, by simp⟩
  rx := ⟨t, hrx, rfl, rfl, rfl, rfl, Or.inl rfl⟩

/-- The send broke off. -/
theorem Confirms.failed {t : DCTrans} (ws : List Bytes) (hrx : c.rx = some t)
    (hphase : t.phase = .idle) (why : String) :
    Confirms t ws c (transFail env false why false { c with out := c.out ++ ws, crash := none }) := by
  have hterm : t.phase.terminal = false := by
    rw [hphase]
    rfl
  have htrans : ({ c with out := c.out ++ ws, crash := none } : DFileConn).trans false = some t :=
    hrx
  rw [transFail_plain htrans hterm rfl why]
  refine ⟨rfl, rfl, ⟨_, rfl, ?_⟩, ⟨_, rfl, rfl, rfl, rfl, rfl, Or.inr (Or.inl rfl)⟩⟩
  intro e he l
  rw [List.mem_singleton.mp he]
  exact DcEvent.noConfusion

theorem rxConfirm_confirms {t : DCTrans} {confirm req : Bytes} (hopen : c.stopped = false)
    (hrx : c.rx = some t) (hphase : t.phase = .idle)
    (hconfirm : dfileEncodeIdlist dcIdlistCap .fileHeaderConfirm 0 t.transId
      (t.hdr.map fun e => e.fileId) = some confirm)
    (hreq : dfileEncodeIdlist dcIdlistCap .fileTransferReq 0 t.transId
      (t.hdr.map fun e => e.fileId) = some req) :
    Confirms t (sentInTurn env c.out.length confirm req) c (rxConfirm env t c) := by
  have hone : dcSendIdlist env .fileHeaderConfirm t.transId (t.hdr.map fun e => e.fileId) c =
      dcSend env c confirm := by
    rw [dcSendIdlist, hconfirm]
  have htwo : ∀ c₁, dcSendIdlist env .fileTransferReq t.transId (t.hdr.map fun e => e.fileId) c₁ =
      dcSend env c₁ req := by
    intro c₁
    rw [dcSendIdlist, hreq]
  obtain ⟨crash, hfirst, hlive⟩ := @dcSend_open env c hopen confirm
  simp only [rxConfirm, hone, htwo, hfirst, sentInTurn]
  by_cases hsent : (dcSendLoop (env.send c.out.length) confirm).2 = .sent
  swap
  · simp only [hsent, decide_false, Bool.false_eq_true, if_false]
    cases crash with
    | some k => exact Confirms.dead _ k hrx
    | none => exact Confirms.failed _ hrx hphase _
  obtain rfl := hlive hsent
  set c₁ := { c with
    out := c.out ++ [(dcSendLoop (env.send c.out.length) confirm).1], crash := none } with hc₁
  have hopen₁ : c₁.stopped = false := decide_eq_false (DFileConn.stopped_eq_false hopen).2
  have hlen : c₁.out.length = c.out.length + 1 := List.length_append
  obtain ⟨crash, hsecond, -⟩ := @dcSend_open env c₁ hopen₁ req
  have hout : c₁.out ++ [(dcSendLoop (env.send (c.out.length + 1)) req).1] =
      c.out ++ [(dcSendLoop (env.send c.out.length) confirm).1,
        (dcSendLoop (env.send (c.out.length + 1)) req).1] := by
    rw [hc₁, List.append_assoc]
    rfl
  rw [hlen, hout] at hsecond
  simp only [hsent, decide_true, if_true, DFileConn.andThen, hsecond]
  rw [if_neg (by simp [hc₁])]
  by_cases hwhole : (dcSendLoop (env.send (c.out.length + 1)) req).2 = .sent
  · simp only [hwhole, decide_true, if_true]
    exact ⟨rfl, rfl, ⟨[], by simp [hc₁], by simp⟩,
      ⟨_, rfl, rfl, rfl, rfl, rfl, Or.inr (Or.inr rfl)⟩⟩
  · simp only [hwhole, decide_false, Bool.false_eq_true, if_false]
    cases crash with
    | some k => exact Confirms.dead _ k hrx
    | none => exact Confirms.failed _ hrx hphase _

/-- The id lists of at most 500 files can be encoded. -/
theorem dfileEncodeIdlist_ids (type : DFileFrameType) (transId : UInt16) {ids : List UInt16}
    (hmax : ids.length ≤ dfileMaxFileNum) :
    ∃ f, dfileEncodeIdlist dcIdlistCap type 0 transId ids = some f := by
  have hcap : ¬ dcIdlistCap < dfileFrameHeaderLen + 2 * ids.length := by
    rw [dcIdlistCap]
    omega
  rw [dfileEncodeIdlist, if_neg (Nat.not_lt.mpr hmax), if_neg hcap]
  exact ⟨_, rfl⟩

end

/-! ## One frame -/

/-- The transfer while entries are missing. -/
structure Gathers (transId node : UInt16) (hdr : List DFileHeaderEntry) (u : DCTrans) : Prop where
  phase : u.phase = .idle
  files : u.files = []
  transId : u.transId = transId
  nodeNumber : u.nodeNumber = node
  hdr : u.hdr = hdr

/-- Frames with these entries change nothing any more. -/
def Settled (transId node : UInt16) (ents : List DFileHeaderEntry) (c : DFileConn) : Prop :=
  c.stopped = true ∨ ∃ u, c.rx = some u ∧ (u.phase = .failed ∨
    (u.phase = .rxWaitData ∧ u.transId = transId ∧ u.nodeNumber = node ∧ u.hdr = ents))

section
variable {env : DcEnv} {c : DFileConn} {transId node : UInt16} {frame : Bytes}
  {p : List DFileHeaderEntry}

theorem whileOpen_open (hopen : c.stopped = false) (k : DFileConn → DFileConn) :
    c.whileOpen k = k c := by
  obtain ⟨hlive, hstate⟩ := DFileConn.stopped_eq_false hopen
  rw [DFileConn.whileOpen, if_neg]
  rintro (hcrash | hclosing)
  · rw [hlive] at hcrash
    cases hcrash
  · exact hstate hclosing

theorem whileOpen_stopped (hstop : c.stopped = true) (k : DFileConn → DFileConn) :
    c.whileOpen k = c := by
  rw [DFileConn.whileOpen, if_pos]
  rw [DFileConn.stopped, Bool.or_eq_true, decide_eq_true_eq] at hstop
  exact hstop

/-- A frame for a transfer that gathers, which the first frame starts. -/
theorem handleFrame_gathers (hframe : dfileDecodeFileHeader frame = some ⟨transId, node, p⟩)
    (hnode : node ≠ 0) {hdr : List DFileHeaderEntry}
    (hrx : (c.rx = none ∧ hdr = []) ∨ ∃ u, c.rx = some u ∧ Gathers transId node hdr u) :
    ∃ u, Gathers transId node hdr u ∧
      handleFrame env frame c = rxAddHeader env ⟨transId, node, p⟩ u c := by
  rw [handleFrame_fileHeader hframe]
  rcases hrx with ⟨hrx, rfl⟩ | ⟨u, hrx, hu⟩
  · refine ⟨{ transNew false transId env.now with nodeNumber := node }, ⟨rfl, rfl, rfl, rfl, rfl⟩, ?_⟩
    simp only [handleFileHeader, hrx, Option.any_none, Bool.false_eq_true, if_false, hframe, hnode]
  · refine ⟨u, hu, ?_⟩
    simp only [handleFileHeader, hrx, Option.any_some, hu.phase, hframe, hnode, hu.transId,
      hu.nodeNumber, ne_eq, not_true_eq_false, or_self, if_false, reduceCtorEq, decide_false,
      Bool.false_eq_true]

/-- Entries of a list that has been taken are all known. -/
theorem handleFrame_settled {ents : List DFileHeaderEntry}
    (hframe : dfileDecodeFileHeader frame = some ⟨transId, node, p⟩) (hnode : node ≠ 0)
    (hp : p ⊆ ents) (hsettled : Settled transId node ents c) :
    c.whileOpen (handleFrame env frame) = c := by
  rcases hstop : c.stopped with _ | _
  swap
  · exact whileOpen_stopped hstop _
  rw [whileOpen_open hstop, handleFrame_fileHeader hframe]
  rcases hsettled with hstopped | ⟨u, hrx, hfailed | ⟨hwait, rfl, rfl, rfl⟩⟩
  · rw [hstop] at hstopped
    cases hstopped
  · simp only [handleFileHeader, hrx, Option.any_some, hfailed, true_or, decide_true, if_true]
  · have hadd : rxAddEntries u.nodeNumber.toNat u.hdr p = (u.hdr, true) := rxAddEntries_known p hp
    have hsame' : ({ c with rx := some u } : DFileConn) = c := by rw [← hrx]
    simp only [handleFileHeader, hrx, Option.any_some, hwait, hframe, hnode, ne_eq,
      not_true_eq_false, or_self, if_false, reduceCtorEq, decide_false, Bool.false_eq_true,
      rxAddHeader, hadd, if_true, rxHeaderComplete, not_false_eq_true, ite_self]
    rw [← hwait]
    exact hsame'

/-- Entries before the last: they are gathered. -/
theorem rxAddHeader_missing {u : DCTrans} {hdr : List DFileHeaderEntry}
    (hu : Gathers transId node hdr u) (hids : ((hdr ++ p).map fun e => e.fileId).Nodup)
    (hroom : (hdr ++ p).length < node.toNat) :
    rxAddHeader env ⟨transId, node, p⟩ u c = { c with rx := some { u with hdr := hdr ++ p } } := by
  have hadd : rxAddEntries node.toNat u.hdr p = (hdr ++ p, true) := by
    rw [hu.hdr]
    apply rxAddEntries_fresh p hids
    rw [← List.length_append]
    exact Nat.le_of_lt hroom
  simp only [rxAddHeader, hadd, if_true, ge_iff_le, Nat.not_le.mpr hroom, if_false]

/-- The last entry: the list is complete. -/
theorem rxAddHeader_complete {u : DCTrans} {hdr : List DFileHeaderEntry}
    (hu : Gathers transId node hdr u) (hids : ((hdr ++ p).map fun e => e.fileId).Nodup)
    (hfull : (hdr ++ p).length = node.toNat) :
    rxAddHeader env ⟨transId, node, p⟩ u c =
      rxHeaderComplete env { c with rx := some { u with hdr := hdr ++ p } } := by
  have hadd : rxAddEntries node.toNat u.hdr p = (hdr ++ p, true) := by
    rw [hu.hdr]
    apply rxAddEntries_fresh p hids
    rw [← List.length_append]
    exact Nat.le_of_eq hfull
  simp only [rxAddHeader, hadd, if_true, ge_iff_le, Nat.le_of_eq hfull.symm]

end

/-! ## A complete list -/

section
variable {env : DcEnv} {c : DFileConn} {transId node : UInt16} {ents : List DFileHeaderEntry}
  {u : DCTrans} {dir : Bytes}

/-- With a block size the list is taken: opened, told, confirmed and requested. -/
theorem rxHeaderComplete_takes (hents : Announceable ents) (hu : Gathers transId node ents u)
    (hopen : c.stopped = false) (hdir : c.recvDir = some dir)
    (hcreate : Openable env dir (ents.map fun e => e.name)) (hblock : c.blockSize ≠ 0) :
    ∃ new confirm req, new.map DCFile.listed = ents.map DFileHeaderEntry.listed ∧
      dfileDecodeIdlist confirm .fileHeaderConfirm =
        some ⟨transId, 0, ents.map fun e => e.fileId⟩ ∧
      dfileDecodeIdlist req .fileTransferReq = some ⟨transId, 0, ents.map fun e => e.fileId⟩ ∧
      Confirms { u with files := new } (sentInTurn env c.out.length confirm req)
        (({ c with
          opened := c.opened ++ ents.map fun e : DFileHeaderEntry => join dir e.name
          rx := some { u with files := new } }).emit (.fileList ents))
        (rxHeaderComplete env { c with rx := some u }) := by
  obtain ⟨new, hnew, hlisted⟩ :=
    rxOpenFiles_ok hblock ents hcreate hents.size_le c.opened []
  have hne : (ents.map fun e => e.fileId) ≠ [] := by
    rw [ne_eq, List.map_eq_nil_iff]
    exact hents.ne_nil
  have hmax : (ents.map fun e => e.fileId).length ≤ dfileMaxFileNum := by
    rw [List.length_map]
    exact hents.length_le
  obtain ⟨confirm, hconfirm⟩ := dfileEncodeIdlist_ids .fileHeaderConfirm transId hmax
  obtain ⟨req, hreq⟩ := dfileEncodeIdlist_ids .fileTransferReq transId hmax
  refine ⟨new, confirm, req, hlisted, dfileDecodeIdlist_encode hne hconfirm,
    dfileDecodeIdlist_encode hne hreq, ?_⟩
  have hcomplete : rxHeaderComplete env { c with rx := some u } =
      rxConfirm env { u with files := new } (({ c with
        opened := c.opened ++ ents.map fun e : DFileHeaderEntry => join dir e.name
        rx := some { u with files := new } }).emit (.fileList ents)) := by
    simp only [rxHeaderComplete, hu.phase, ne_eq, not_true_eq_false, if_false, hdir, hu.hdr, hu.files,
      hnew, List.nil_append]
  rw [hcomplete]
  set c₁ := ({ c with
    opened := c.opened ++ ents.map fun e : DFileHeaderEntry => join dir e.name
    rx := some { u with files := new } }).emit (.fileList ents) with hc₁
  show Confirms _ (sentInTurn env c₁.out.length confirm req) c₁ _
  apply rxConfirm_confirms
  · exact hopen
  · rfl
  · exact hu.phase
  · rw [← hu.transId, ← hu.hdr] at hconfirm
    exact hconfirm
  · rw [← hu.transId, ← hu.hdr] at hreq
    exact hreq

/-- Without one, the first file kills the process and nobody is told. -/
theorem rxHeaderComplete_untold (hents : Announceable ents) (hu : Gathers transId node ents u)
    (hdir : c.recvDir = some dir) (hcreate : Openable env dir (ents.map fun e => e.name))
    (hblock : c.blockSize = 0) :
    (rxHeaderComplete env { c with rx := some u }).events = c.events := by
  obtain ⟨e, es, rfl⟩ := List.exists_cons_of_ne_nil hents.ne_nil
  obtain ⟨hwrite, htrunc⟩ := hcreate e.name (by simp) c.opened.length
  have hcrash : (rxOpenFiles env dir 0 c.opened [] (e :: es)).2.2 = .crashed :=
    rxOpenFiles_zero.mpr ⟨hents.size_le e List.mem_cons_self, hwrite, htrunc⟩
  simp only [rxHeaderComplete, hu.phase, ne_eq, not_true_eq_false, if_false, hdir, hu.hdr, hu.files,
    hblock, hcrash]

end

/-! ## All the frames -/

/-- Frames that start with a round of the list and go on with frames of it. -/
structure Rounds (transId node : UInt16) (parts : List (List DFileHeaderEntry))
    (ds : List (DcEnv × Bytes)) : Prop where
  first : ∀ (n : ℕ) p, parts[n]? = some p →
    ∃ d : DcEnv × Bytes, ds[n]? = some d ∧
      dfileDecodeFileHeader d.2 = some ⟨transId, node, p⟩
  all : ∀ d ∈ ds, ∃ p ∈ parts, dfileDecodeFileHeader d.2 = some ⟨transId, node, p⟩

theorem HeaderRound.rounds {transId node : UInt16} {ents : List DFileHeaderEntry}
    {parts : List (List DFileHeaderEntry)} {frames : List Bytes} {ds : List (DcEnv × Bytes)} {k : ℕ}
    (h : HeaderRound transId node ents parts frames)
    (hds : ds.map Prod.snd = (List.replicate (k + 1) frames).flatten) :
    Rounds transId node parts ds := by
  constructor
  · intro n p hp
    have hdecode : (frames[n]?).map dfileDecodeFileHeader = some (some ⟨transId, node, p⟩) := by
      rw [← List.getElem?_map, h.decode, List.getElem?_map, hp, Option.map_some]
    obtain ⟨f, hf, hfp⟩ := Option.map_eq_some_iff.mp hdecode
    have hn : n < frames.length := (List.getElem?_eq_some_iff.mp hf).1
    have hd : (ds[n]?).map Prod.snd = some f := by
      rw [← List.getElem?_map, hds, List.replicate_succ, List.flatten_cons,
        List.getElem?_append_left hn, hf]
    obtain ⟨d, hget, rfl⟩ := Option.map_eq_some_iff.mp hd
    exact ⟨d, hget, hfp⟩
  · intro d hd
    have hmem : d.2 ∈ ds.map Prod.snd := List.mem_map_of_mem hd
    rw [hds] at hmem
    obtain ⟨fs, hfs, hf⟩ := List.mem_flatten.mp hmem
    rw [List.eq_of_mem_replicate hfs] at hf
    have hdecode : dfileDecodeFileHeader d.2 ∈ frames.map dfileDecodeFileHeader :=
      List.mem_map_of_mem hf
    rw [h.decode] at hdecode
    obtain ⟨p, hp, hpd⟩ := List.mem_map.mp hdecode
    exact ⟨p, hp, hpd.symm⟩

theorem dcHandleAll_succ (c : DFileConn) {ds : List (DcEnv × Bytes)} {n : ℕ} {d : DcEnv × Bytes}
    (hd : ds[n]? = some d) : dcHandleAll c (ds.take (n + 1)) =
      (dcHandleAll c (ds.take n)).whileOpen (handleFrame d.1 d.2) := by
  rw [List.take_add_one, hd]
  simp only [dcHandleAll, Option.toList_some, List.foldl_append, List.foldl_cons, List.foldl_nil]

section
variable {α : Type} {parts : List (List α)} {n : ℕ} {p : List α}

theorem flatten_take_succ (hp : parts[n]? = some p) :
    (parts.take (n + 1)).flatten = (parts.take n).flatten ++ p := by
  rw [List.take_add_one, hp, List.flatten_append, Option.toList_some, List.flatten_singleton]

/-- As long as a part is missing, so is an element. -/
theorem flatten_drop_ne_nil (hparts : ∀ p ∈ parts, p ≠ []) (hn : n < parts.length) :
    (parts.drop n).flatten ≠ [] := by
  rw [List.drop_eq_getElem_cons hn, List.flatten_cons]
  intro hnil
  exact hparts _ (List.getElem_mem hn) (List.append_eq_nil_iff.mp hnil).1

theorem flatten_take_drop (n : ℕ) :
    (parts.take n).flatten ++ (parts.drop n).flatten = parts.flatten := by
  rw [← List.flatten_append, List.take_append_drop]

end

/-- The connection after some frames of the first round. -/
structure Gathered (transId node : UInt16) (hdr : List DFileHeaderEntry) (c c' : DFileConn) :
    Prop where
  quiet : c' = { c with rx := c'.rx }
  rx : (c'.rx = none ∧ hdr = []) ∨ ∃ u, c'.rx = some u ∧ Gathers transId node hdr u

section
variable {c : DFileConn} {transId node : UInt16} {ents : List DFileHeaderEntry}
  {parts : List (List DFileHeaderEntry)} {frames : List Bytes} {ds : List (DcEnv × Bytes)}

/-- One more frame: what it adds, and the connection it is added to. -/
theorem Gathered.frame (hrounds : Rounds transId node parts ds) (hnode : node ≠ 0)
    (hopen : c.stopped = false) {n : ℕ} {p : List DFileHeaderEntry} (hp : parts[n]? = some p)
    (h : Gathered transId node (parts.take n).flatten c (dcHandleAll c (ds.take n))) :
    ∃ d u, ds[n]? = some d ∧ Gathers transId node (parts.take n).flatten u ∧
      dcHandleAll c (ds.take (n + 1)) = rxAddHeader d.1 ⟨transId, node, p⟩ u
        { c with rx := (dcHandleAll c (ds.take n)).rx } := by
  obtain ⟨d, hd, hframe⟩ := hrounds.first n p hp
  have hopen' : (dcHandleAll c (ds.take n)).stopped = false := by
    rw [h.quiet]
    exact hopen
  obtain ⟨u, hu, hadd⟩ := @handleFrame_gathers d.1 _ _ _ _ _ hframe hnode _ h.rx
  refine ⟨d, u, hd, hu, ?_⟩
  rw [dcHandleAll_succ c hd, whileOpen_open hopen', hadd, ← h.quiet]

theorem dcHandleAll_gathered (hents : Announceable ents)
    (hround : HeaderRound transId node ents parts frames) (hrounds : Rounds transId node parts ds)
    (hlen : node.toNat = ents.length) (hnode : node ≠ 0) (hopen : c.stopped = false)
    (hrx : c.rx = none) : ∀ n < parts.length,
      Gathered transId node (parts.take n).flatten c (dcHandleAll c (ds.take n)) := by
  intro n
  induction n with
  | zero =>
      intro _
      refine ⟨rfl, Or.inl ⟨hrx, ?_⟩⟩
      rw [List.take_zero, List.flatten_nil]
  | succ n ih =>
      intro hn
      have hp : parts[n]? = some parts[n] := List.getElem?_eq_getElem (by omega)
      obtain ⟨d, u, -, hu, hnext⟩ := (ih (by omega)).frame hrounds hnode hopen hp
      have hall := hround.flatten
      rw [← flatten_take_drop (n + 1), flatten_take_succ hp] at hall
      have hids := hents.ids
      rw [← hall, List.map_append] at hids
      have hroom : ((parts.take n).flatten ++ parts[n]).length < node.toNat := by
        have hrest := List.length_pos_iff.mpr (flatten_drop_ne_nil hround.nonempty hn)
        have htotal := congrArg List.length hall
        rw [List.length_append] at htotal
        omega
      rw [rxAddHeader_missing hu (List.nodup_append.mp hids).1 hroom] at hnext
      rw [hnext, flatten_take_succ hp]
      exact ⟨rfl, Or.inr ⟨_, rfl, ⟨hu.phase, hu.files, hu.transId, hu.nodeNumber, rfl⟩⟩⟩

/-- The last frame of the first round completes the list. -/
theorem dcHandleAll_complete (hents : Announceable ents)
    (hround : HeaderRound transId node ents parts frames) (hrounds : Rounds transId node parts ds)
    (hlen : node.toNat = ents.length) (hnode : node ≠ 0) (hopen : c.stopped = false)
    (hrx : c.rx = none) {m : ℕ} (hm : parts.length = m + 1) :
    ∃ d u, ds[m]? = some d ∧ Gathers transId node ents u ∧
      dcHandleAll c (ds.take (m + 1)) = rxHeaderComplete d.1 { c with rx := some u } := by
  have hp : parts[m]? = some parts[m] := List.getElem?_eq_getElem (by omega)
  have hgathered := dcHandleAll_gathered hents hround hrounds hlen hnode hopen hrx m (by omega)
  obtain ⟨d, u, hd, hu, hnext⟩ := hgathered.frame hrounds hnode hopen hp
  have hall := hround.flatten
  rw [← flatten_take_drop (m + 1), flatten_take_succ hp, ← hm, List.drop_length, List.flatten_nil,
    List.append_nil] at hall
  rw [rxAddHeader_complete hu (hall ▸ hents.ids) (by rw [hall, hlen]), hall] at hnext
  exact ⟨d, { u with hdr := ents }, hd, ⟨hu.phase, hu.files, hu.transId, hu.nodeNumber, rfl⟩,
    hnext⟩

/-- Rounds after the first change nothing. -/
theorem dcHandleAll_settled (hround : HeaderRound transId node ents parts frames)
    (hrounds : Rounds transId node parts ds) (hnode : node ≠ 0) {m : ℕ}
    (hsettled : Settled transId node ents (dcHandleAll c (ds.take m))) :
    ∀ n, m ≤ n → dcHandleAll c (ds.take n) = dcHandleAll c (ds.take m) := by
  intro n hn
  induction n, hn using Nat.le_induction with
  | base => rfl
  | succ n hn ih =>
      cases hd : ds[n]? with
      | none =>
          rw [List.take_add_one, hd, Option.toList_none, List.append_nil]
          exact ih
      | some d =>
          obtain ⟨p, hp, hframe⟩ := hrounds.all d (List.mem_of_getElem? hd)
          have hsub : p ⊆ ents := by
            rw [← hround.flatten]
            intro e he
            exact List.mem_flatten_of_mem hp he
          rw [dcHandleAll_succ c hd, ih]
          exact handleFrame_settled hframe hnode hsub hsettled

end

/-! ## The announcement -/

section
variable {t : DCTrans} {ents : List DFileHeaderEntry} {node : UInt16} {u : DCTrans} {dir : Bytes}
  {env : DcEnv} {c : DFileConn}

/-- A list that is complete, is taken. -/
theorem rxHeaderComplete_taken (hents : Announceable ents)
    (hlisted : ents.map DFileHeaderEntry.listed = t.files.map DCFile.listed)
    (hu : Gathers t.transId node ents u) (hopen : c.stopped = false) (hdir : c.recvDir = some dir)
    (hcreate : Openable env dir (ents.map fun e => e.name)) (hblock : c.blockSize ≠ 0) :
    Taken t dir env c (rxHeaderComplete env { c with rx := some u }) ∧
      Settled t.transId node ents (rxHeaderComplete env { c with rx := some u }) := by
  obtain ⟨new, confirm, req, hnew, hconfirm, hreq, hdone⟩ :=
    rxHeaderComplete_takes hents hu hopen hdir hcreate hblock
  have hids : (ents.map fun e => e.fileId) = t.files.map fun f => f.fileId := by
    have hfst := congrArg (List.map Prod.fst) hlisted
    rw [List.map_map, List.map_map] at hfst
    exact hfst
  have hnames : (ents.map fun e => join dir e.name) = t.files.map fun f => join dir f.name := by
    have hsnd := congrArg (List.map fun l => join dir l.2.2) hlisted
    rw [List.map_map, List.map_map] at hsnd
    exact hsnd
  obtain ⟨v, hv, hid, hnode, hhdr, hfiles, hphase⟩ := hdone.rx
  constructor
  · constructor
    · refine ⟨v, hv, hid.trans hu.transId, ?_, ?_⟩
      · rw [hhdr]
        show u.hdr.map _ = _
        rw [hu.hdr, hlisted]
      · rw [hfiles]
        exact hnew.trans hlisted
    · rw [hdone.opened, ← hnames]
      rfl
    · obtain ⟨more, hmore, hquiet⟩ := hdone.told
      refine ⟨ents, more, hlisted, ?_, hquiet⟩
      rw [hmore]
      show c.events ++ [(c.out.length, .fileList ents)] ++ more = _
      rw [List.append_assoc, List.singleton_append]
    · refine ⟨confirm, req, ?_, ?_, hdone.out⟩
      · rw [hconfirm, hids]
      · rw [hreq, hids]
  · rcases hphase with hstop | hfailed | hwait
    · exact Or.inl hstop
    · exact Or.inr ⟨v, hv, Or.inl hfailed⟩
    · exact Or.inr ⟨v, hv, Or.inr
        ⟨hwait, hid.trans hu.transId, hnode.trans hu.nodeNumber, hhdr.trans hu.hdr⟩⟩

end

/-- **Announcing a list of files.** An accepted list, sent any number of times to a receiver
without a transfer, is taken once and whole, exactly if the receiver has a block size. -/
theorem announced_iff {env : DcEnv} {items : List DFileSendItem} {s s' c : DFileConn} {t : DCTrans}
    {frames : List Bytes} {ds : List (DcEnv × Bytes)} {k : ℕ} {dir : Bytes}
    (hsend : sendFilesImpl env items s = (s', none)) (ht : s'.tx = some t)
    (hout : s'.out = s.out ++ frames) (hnames : ∀ item ∈ items, item.sentName ≠ [])
    (hopen : c.stopped = false) (hrx : c.rx = none) (hdir : c.recvDir = some dir)
    (hcreate : ∀ d ∈ ds, Openable d.1 dir (t.files.map fun f => f.name))
    (hds : ds.map Prod.snd = (List.replicate (k + 1) frames).flatten) :
    Announced t frames.length c ds ↔ c.blockSize ≠ 0 := by
  obtain ⟨hne, hmax, hfiles, frames', hframes, hout'⟩ := sendFilesImpl_accepted hsend ht
  obtain rfl : frames' = frames := List.append_cancel_left (hout'.symm.trans hout)
  set ents := t.files.map DCFile.headerEntry with hentries
  have hfuel : ents.length - 0 ≤ t.files.length := by rw [hentries, List.length_map, Nat.sub_zero]
  obtain ⟨hents, hlisted⟩ := txOpenFiles_announceable hfiles hne hmax hnames fun f hf =>
    txHeaderFramesFrom_short _ hfuel hframes f.headerEntry (List.mem_map_of_mem hf)
  obtain ⟨parts, hround⟩ := txHeaderFramesFrom_round hents _ hfuel hframes
  rw [List.drop_zero] at hround
  have hpos := List.length_pos_iff.mpr hents.ne_nil
  have hlen := hents.node_toNat
  set node := UInt16.ofNat ents.length with hnodeEq
  have hnode : node ≠ 0 := by
    intro hzero
    rw [hzero] at hlen
    exact absurd hlen (Nat.ne_of_lt hpos)
  have hrounds := hround.rounds hds
  have hsame : parts.length = frames'.length := by
    have hlens := congrArg List.length hround.decode
    rw [List.length_map, List.length_map] at hlens
    exact hlens.symm
  obtain ⟨m, hm⟩ : ∃ m, parts.length = m + 1 := by
    apply Nat.exists_eq_succ_of_ne_zero
    intro hzero
    have hnil := hround.flatten
    rw [List.length_eq_zero_iff.mp hzero] at hnil
    exact hents.ne_nil hnil.symm
  obtain ⟨d, u, hd, hu, hcomplete⟩ :=
    dcHandleAll_complete hents hround hrounds hlen hnode hopen hrx hm
  have hentNames : (ents.map fun e => e.name) = t.files.map fun f => f.name := by
    rw [hentries, List.map_map]
    rfl
  have hcreate' := hcreate d (List.mem_of_getElem? hd)
  rw [← hentNames] at hcreate'
  rw [← hsame, hm]
  constructor
  · rintro ⟨-, -, dir', d', -, -, htaken⟩ hblock
    obtain ⟨hdr, more, -, htold, -⟩ := (htaken (m + 1) (Nat.le_refl _)).told
    rw [hcomplete, rxHeaderComplete_untold hents hu hdir hcreate' hblock] at htold
    have hlens := congrArg List.length htold
    rw [List.length_append, List.length_cons] at hlens
    omega
  · intro hblock
    obtain ⟨htaken, hsettled⟩ :=
      rxHeaderComplete_taken hents hlisted hu hopen hdir hcreate' hblock
    rw [← hcomplete] at htaken hsettled
    constructor
    · intro d hd
      obtain ⟨p, -, hframe⟩ := hrounds.all d hd
      rw [hframe]
      rfl
    · intro n hn
      have hgathered := dcHandleAll_gathered hents hround hrounds hlen hnode hopen hrx n
        (by omega)
      refine ⟨hgathered.quiet, ?_⟩
      intro v hv
      rcases hgathered.rx with ⟨hnone, -⟩ | ⟨w, hw, hgathers⟩
      · rw [hnone] at hv
        cases hv
      obtain rfl := Option.some.inj (hw.symm.trans hv)
      refine ⟨hgathers.phase, hgathers.files, (parts.drop n).flatten.map DFileHeaderEntry.listed,
        ?_, ?_⟩
      · rw [ne_eq, List.map_eq_nil_iff]
        exact flatten_drop_ne_nil hround.nonempty (by omega)
      · rw [hgathers.hdr, ← List.map_append, flatten_take_drop, hround.flatten, hlisted]
    · refine ⟨dir, d, hdir, hd, ?_⟩
      intro n hn
      rw [dcHandleAll_settled hround hrounds hnode hsettled n hn]
      exact htaken

/-! ### Before the setting of the peer -/

/-- A connection after the setting of a peer that runs the same program. -/
def readyConn (recvDir : Option Bytes) : DFileConn :=
  { dcAlloc 0 recvDir with
    state := .ready, negotiated := true, blockSize := dcBlockSize dcLocalSetting }

/-- The one-byte file, accepted for sending. -/
def oneByteSent : DFileConn × Option String :=
  sendFilesImpl (oneByteEnv 0 fun _ => dcTakesAll) [oneByteItem] (readyConn none)

/-- Its header, twice. -/
def oneByteRounds : List (DcEnv × Bytes) :=
  (List.replicate 2 oneByteSent.1.out).flatten.map fun f => (oneByteEnv 0 fun _ => dcTakesAll, f)

theorem oneByteRounds_snd :
    oneByteRounds.map Prod.snd = (List.replicate (1 + 1) oneByteSent.1.out).flatten := by
  rw [oneByteRounds, List.map_map]
  exact List.map_id _

theorem oneByteRounds_openable (dir : Bytes) (names : List Bytes) :
    ∀ d ∈ oneByteRounds, Openable d.1 dir names := by
  intro d hd name _ n
  obtain ⟨f, -, rfl⟩ := List.mem_map.mp hd
  exact ⟨rfl, rfl⟩

theorem oneByteSent_facts : oneByteSent.2 = none ∧
    (∃ t, oneByteSent.1.tx = some t) ∧ oneByteSent.1.out = (readyConn none).out ++ oneByteSent.1.out ∧
    ∀ item ∈ [oneByteItem], item.sentName ≠ [] :=
  ⟨by decide +kernel, Option.isSome_iff_exists.mp (by decide +kernel), rfl, by decide +kernel⟩

theorem announced_oneByte : ∃ t, oneByteSent.1.tx = some t ∧
    (Announced t oneByteSent.1.out.length (readyConn (some (ascii "/d"))) oneByteRounds ↔
      (readyConn (some (ascii "/d"))).blockSize ≠ 0) := by
  obtain ⟨hnone, ⟨t, ht⟩, hout, hnames⟩ := oneByteSent_facts
  exact ⟨t, ht, announced_iff (Prod.ext rfl hnone) ht hout hnames rfl rfl rfl
    (oneByteRounds_openable _ _) oneByteRounds_snd⟩

/-- **Announced too early.** A receiver without the setting of its peer divides by zero. -/
theorem not_announced :
    ¬ ∀ (env : DcEnv) (items : List DFileSendItem) (s s' c : DFileConn) (t : DCTrans)
        (frames : List Bytes) (ds : List (DcEnv × Bytes)) (k : ℕ) (dir : Bytes),
      sendFilesImpl env items s = (s', none) → s'.tx = some t → s'.out = s.out ++ frames →
      (∀ item ∈ items, item.sentName ≠ []) → c.stopped = false → c.rx = none →
      c.recvDir = some dir → (∀ d ∈ ds, Openable d.1 dir (t.files.map fun f => f.name)) →
      ds.map Prod.snd = (List.replicate (k + 1) frames).flatten →
      Announced t frames.length c ds := by
  intro h
  obtain ⟨hnone, ⟨t, ht⟩, hout, hnames⟩ := oneByteSent_facts
  have hannounced := h _ _ _ _ (dcAlloc 0 (some (ascii "/d"))) t _ _ 1 _ (Prod.ext rfl hnone) ht
    hout hnames rfl rfl rfl (oneByteRounds_openable _ _) oneByteRounds_snd
  obtain ⟨dir, d, -, -, htaken⟩ := hannounced.taken
  obtain ⟨hdr, more, -, htold, -⟩ := (htaken _ (Nat.le_refl _)).told
  have hquiet : (dcHandleAll (dcAlloc 0 (some (ascii "/d")))
      (oneByteRounds.take oneByteSent.1.out.length)).events = [] := by decide +kernel
  rw [hquiet] at htold
  cases htold

end HwPhoneLink.DFile
