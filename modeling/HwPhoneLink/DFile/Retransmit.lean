import HwPhoneLink.DFile.BlockSteps
import HwPhoneLink.DFile.Delivery

/-!
# Each block once, and once more

`retrans` holds the blocks that have been sent once and are neither acknowledged nor sent
again. `tx_pump` appends to it what it sends and takes its retransmission from the head;
`handle_ack` only ever looks at the head, which is enough because the list ascends.
-/

namespace HwPhoneLink.DFile

open BigEndian Path Framing Transitions Relation HwPhoneLink.Testfile

/-! ## The blocks on the wire -/

def DFileData.isRetran (d : DFileData) : Bool := decide (d.flag &&& dfileFlagDataRetran ≠ 0)

/-- The block of the file in a data frame, sent for the first time or again. -/
def blockOf (again : Bool) (transId fileId : UInt16) (w : Bytes) : Option ℕ :=
  (dfileDecodeData w).bind fun d =>
    if d.transId = transId ∧ d.fileId = fileId ∧ d.isRetran = again then some d.blockSeq.toNat
    else none

/-- The blocks of the file among the frames, in the order they were sent. -/
def blocksSent (again : Bool) (transId fileId : UInt16) (out : List Bytes) : List ℕ :=
  out.filterMap (blockOf again transId fileId)

section
variable {again : Bool} {transId fileId : UInt16} {out ws : List Bytes} {w : Bytes}

theorem blocksSent_append : blocksSent again transId fileId (out ++ ws) =
    blocksSent again transId fileId out ++ blocksSent again transId fileId ws :=
  List.filterMap_append

theorem blocksSent_none (h : ∀ w ∈ ws, dfileDecodeData w = none) :
    blocksSent again transId fileId ws = [] := by
  refine List.filterMap_eq_nil_iff.mpr fun w hw => ?_
  rw [blockOf, h w hw]
  rfl

/-- Frames without blocks add nothing. -/
theorem blocksSent_quiet (h : ∀ w ∈ ws, dfileDecodeData w = none) :
    blocksSent again transId fileId (out ++ ws) = blocksSent again transId fileId out := by
  rw [blocksSent_append, blocksSent_none h, List.append_nil]

/-- One more block of the file. -/
theorem blocksSent_same {flag : UInt8} {seq : UInt32} {block : Bytes}
    (h : dfileDecodeData w = some ⟨transId, flag, fileId, seq, block⟩)
    (hflag : decide (flag &&& dfileFlagDataRetran ≠ 0) = again) :
    blocksSent again transId fileId (out ++ [w]) =
      blocksSent again transId fileId out ++ [seq.toNat] := by
  have hblock : blockOf again transId fileId w = some seq.toNat := by
    rw [blockOf, h, Option.bind_some, if_pos ⟨rfl, rfl, hflag⟩]
  rw [blocksSent_append, blocksSent, blocksSent, List.filterMap_cons_some hblock,
    List.filterMap_nil]

/-- A block of another file, or of the other kind. -/
theorem blocksSent_other {d : DFileData} (h : dfileDecodeData w = some d)
    (hother : d.fileId ≠ fileId ∨ d.isRetran ≠ again) :
    blocksSent again transId fileId (out ++ [w]) = blocksSent again transId fileId out := by
  have hblock : blockOf again transId fileId w = none := by
    rw [blockOf, h, Option.bind_some, if_neg]
    rintro ⟨-, hfile, hagain⟩
    rcases hother with hne | hne
    · exact hne hfile
    · exact hne hagain
  rw [blocksSent_append, blocksSent, blocksSent, List.filterMap_cons_none hblock,
    List.filterMap_nil, List.append_nil]

end

/-- New blocks do not carry the flag of a retransmission. -/
theorem txBlockFlag_new (f : DCFile) :
    decide (txBlockFlag f &&& dfileFlagDataRetran ≠ 0) = false := by
  unfold txBlockFlag
  split <;> split <;> decide

/-! ## One file -/

/-- An ACK has come in for this block or a later one. -/
def DCFile.Acked (f : DCFile) (seq : ℕ) : Prop := ∃ l, f.lastAcked = some l ∧ seq ≤ l

/-- Where the blocks of a file are: `0, …, nextSeq - 1` have been sent, in this order, and
of these `retrans` has, ascending, what is neither acknowledged nor sent again. -/
structure FileBlocks (out : List Bytes) (blockSize : ℕ) (transId : UInt16) (f : DCFile) :
    Prop where
  total : f.totalBlocks = dcTotalBlocks f.size blockSize
  next : f.nextSeq ≤ f.totalBlocks
  new : blocksSent false transId f.fileId out = List.range f.nextSeq
  ascending : f.retrans.Pairwise (· < ·)
  pending : ∀ seq, seq ∈ f.retrans ↔
    seq < f.nextSeq ∧ ¬ f.Acked seq ∧ seq ∉ blocksSent true transId f.fileId out
  once : (blocksSent true transId f.fileId out).Nodup
  again : ∀ seq ∈ blocksSent true transId f.fileId out, seq < f.nextSeq
  acked : ∀ seq, f.Acked seq → seq < f.nextSeq
  complete : f.ackedAll = true → f.nextSeq = f.totalBlocks

section
variable {out ws : List Bytes} {blockSize : ℕ} {transId : UInt16} {f : DCFile}

theorem FileBlocks.fits (h : FileBlocks out blockSize transId f) : f.totalBlocks < 2 ^ 32 := by
  rw [h.total, dcTotalBlocks_eq]
  exact Nat.mod_lt _ (by decide)

/-- Only the blocks among the frames count. -/
theorem FileBlocks.congr {out' : List Bytes} (h : FileBlocks out blockSize transId f)
    (hout : ∀ again, blocksSent again transId f.fileId out' =
      blocksSent again transId f.fileId out) : FileBlocks out' blockSize transId f where
  total := h.total
  next := h.next
  new := (hout false).trans h.new
  ascending := h.ascending
  pending seq := by rw [hout true]; exact h.pending seq
  once := by rw [hout true]; exact h.once
  again := by rw [hout true]; exact h.again
  acked := h.acked
  complete := h.complete

theorem FileBlocks.confirmed (h : FileBlocks out blockSize transId f) :
    FileBlocks out blockSize transId { f with confirmed := true } where
  total := h.total
  next := h.next
  new := h.new
  ascending := h.ascending
  pending := h.pending
  once := h.once
  again := h.again
  acked := h.acked
  complete := h.complete

/-- **A file that has just been opened.** -/
theorem TxFresh.fileBlocks (h : TxFresh blockSize f) (hnone : ∀ w ∈ out, dfileDecodeData w = none) :
    FileBlocks out blockSize transId f := by
  have hsent : ∀ again, blocksSent again transId f.fileId out = [] := fun _ => blocksSent_none hnone
  have hacked : ∀ seq, ¬ f.Acked seq := by
    rintro seq ⟨l, hl, -⟩
    rw [h.lastAcked] at hl
    cases hl
  constructor
  · exact h.total
  · rw [h.nextSeq]
    exact Nat.zero_le _
  · rw [hsent, h.nextSeq]
    rfl
  · rw [h.retrans]
    exact List.Pairwise.nil
  · intro seq
    rw [h.retrans, h.nextSeq]
    constructor
    · intro hmem
      cases hmem
    · rintro ⟨hlt, -⟩
      exact absurd hlt (Nat.not_lt_zero seq)
  · rw [hsent]
    exact List.nodup_nil
  · rw [hsent]
    intro seq hseq
    cases hseq
  · intro seq hseq
    exact absurd hseq (hacked seq)
  · intro hall
    rw [h.nextSeq, h.complete hall]

/-- **A new block.** -/
theorem FileBlocks.newBlock {w block : Bytes} (h : FileBlocks out blockSize transId f)
    (hmore : f.nextSeq < f.totalBlocks)
    (hw : dfileDecodeData w =
      some ⟨transId, txBlockFlag f, f.fileId, UInt32.ofNat f.nextSeq, block⟩) :
    FileBlocks (out ++ [w]) blockSize transId
      { f with retrans := f.retrans ++ [f.nextSeq], nextSeq := f.nextSeq + 1 } := by
  have hnum : (UInt32.ofNat f.nextSeq).toNat = f.nextSeq :=
    UInt32.toNat_ofNat_of_lt' (hmore.trans h.fits)
  have hagain : blocksSent true transId f.fileId (out ++ [w]) =
      blocksSent true transId f.fileId out := by
    refine blocksSent_other hw (Or.inr ?_)
    have hnew := txBlockFlag_new f
    rw [DFileData.isRetran, hnew]
    decide
  have hacked : ¬ f.Acked f.nextSeq := fun hack => Nat.lt_irrefl _ (h.acked _ hack)
  have hunsent : f.nextSeq ∉ blocksSent true transId f.fileId out := fun hmem =>
    Nat.lt_irrefl _ (h.again _ hmem)
  constructor
  · exact h.total
  · exact hmore
  · show blocksSent false transId f.fileId (out ++ [w]) = List.range (f.nextSeq + 1)
    rw [blocksSent_same hw (txBlockFlag_new f), hnum, h.new, List.range_succ]
  · refine List.pairwise_append.mpr ⟨h.ascending, List.pairwise_singleton _ _, ?_⟩
    intro a ha b hb
    rw [List.mem_singleton.mp hb]
    exact ((h.pending a).mp ha).1
  · intro seq
    show seq ∈ f.retrans ++ [f.nextSeq] ↔ seq < f.nextSeq + 1 ∧ ¬ f.Acked seq ∧
      seq ∉ blocksSent true transId f.fileId (out ++ [w])
    rw [hagain, List.mem_append, List.mem_singleton, h.pending seq]
    constructor
    · rintro (⟨hlt, hrest⟩ | rfl)
      · exact ⟨Nat.lt_succ_of_lt hlt, hrest⟩
      · exact ⟨Nat.lt_succ_self _, hacked, hunsent⟩
    · rintro ⟨hlt, hrest⟩
      rcases Nat.lt_succ_iff_lt_or_eq.mp hlt with hlt | heq
      · exact Or.inl ⟨hlt, hrest⟩
      · exact Or.inr heq
  · show (blocksSent true transId f.fileId (out ++ [w])).Nodup
    rw [hagain]
    exact h.once
  · show ∀ seq ∈ blocksSent true transId f.fileId (out ++ [w]), seq < f.nextSeq + 1
    rw [hagain]
    exact fun seq hseq => Nat.lt_succ_of_lt (h.again seq hseq)
  · exact fun seq hseq => Nat.lt_succ_of_lt (h.acked seq hseq)
  · intro hall
    exact absurd (h.complete hall) (Nat.ne_of_lt hmore)

/-- **A retransmission**, of the oldest pending block. -/
theorem FileBlocks.retran {w block : Bytes} {seq : ℕ} {retrans : List ℕ}
    (h : FileBlocks out blockSize transId f) (hretrans : f.retrans = seq :: retrans)
    (hw : dfileDecodeData w = some ⟨transId, dfileFlagDataRetran ||| dfileFlagDataContinue,
      f.fileId, UInt32.ofNat seq, block⟩) :
    FileBlocks (out ++ [w]) blockSize transId { f with retrans := retrans } := by
  obtain ⟨hlt, hunacked, hunsent⟩ := (h.pending seq).mp (hretrans ▸ List.mem_cons_self)
  have hnum : (UInt32.ofNat seq).toNat = seq :=
    UInt32.toNat_ofNat_of_lt' ((hlt.trans_le h.next).trans h.fits)
  have hagain : blocksSent true transId f.fileId (out ++ [w]) =
      blocksSent true transId f.fileId out ++ [seq] := by
    rw [blocksSent_same hw (by decide), hnum]
  have hnew : blocksSent false transId f.fileId (out ++ [w]) =
      blocksSent false transId f.fileId out := by
    refine blocksSent_other hw (Or.inr ?_)
    show decide ((dfileFlagDataRetran ||| dfileFlagDataContinue) &&& dfileFlagDataRetran ≠ 0) ≠
      false
    decide
  have hsorted := h.ascending
  rw [hretrans, List.pairwise_cons] at hsorted
  have hpending := h.pending
  rw [hretrans] at hpending
  constructor
  · exact h.total
  · exact h.next
  · exact hnew.trans h.new
  · exact hsorted.2
  · intro seq'
    show seq' ∈ retrans ↔ seq' < f.nextSeq ∧ ¬ f.Acked seq' ∧
      seq' ∉ blocksSent true transId f.fileId (out ++ [w])
    rw [hagain, List.mem_append, List.mem_singleton, not_or]
    constructor
    · intro hmem
      obtain ⟨hlt', hacked', hsent'⟩ := (hpending seq').mp (List.mem_cons_of_mem seq hmem)
      exact ⟨hlt', hacked', hsent', Nat.ne_of_gt (hsorted.1 seq' hmem)⟩
    · rintro ⟨hlt', hacked', hsent', hne⟩
      rcases List.mem_cons.mp ((hpending seq').mpr ⟨hlt', hacked', hsent'⟩) with heq | hmem
      · exact absurd heq hne
      · exact hmem
  · show (blocksSent true transId f.fileId (out ++ [w])).Nodup
    rw [hagain, ← List.concat_eq_append]
    exact h.once.concat hunsent
  · show ∀ seq' ∈ blocksSent true transId f.fileId (out ++ [w]), seq' < f.nextSeq
    rw [hagain]
    intro seq' hmem
    rcases List.mem_append.mp hmem with hmem | hmem
    · exact h.again seq' hmem
    · rw [List.mem_singleton.mp hmem]
      exact hlt
  · exact h.acked
  · exact h.complete

end

/-! ## Acknowledgements -/

/-- Of an ascending list, taking off the head takes off all that is small. -/
theorem mem_dropWhile_le {l : List ℕ} (h : l.Pairwise (· < ·)) (last x : ℕ) :
    x ∈ l.dropWhile (fun a => decide (a ≤ last)) ↔ x ∈ l ∧ last < x := by
  induction l with
  | nil => simp
  | cons a l ih =>
      obtain ⟨hhead, htail⟩ := List.pairwise_cons.mp h
      by_cases ha : a ≤ last
      · have hpos : decide (a ≤ last) = true := decide_eq_true ha
        rw [List.dropWhile_cons, if_pos hpos, ih htail, List.mem_cons]
        constructor
        · rintro ⟨hx, hlast⟩
          exact ⟨Or.inr hx, hlast⟩
        · rintro ⟨rfl | hx, hlast⟩
          · exact absurd ha (Nat.not_le_of_lt hlast)
          · exact ⟨hx, hlast⟩
      · have hneg : ¬ decide (a ≤ last) = true := by rwa [decide_eq_true_eq]
        rw [List.dropWhile_cons, if_neg hneg]
        refine ⟨fun hx => ⟨hx, ?_⟩, And.left⟩
        rcases List.mem_cons.mp hx with rfl | hx
        · exact Nat.lt_of_not_le ha
        · exact (Nat.lt_of_not_le ha).trans (hhead x hx)

theorem ackFile_acked {lastSeq seq : ℕ} {f : DCFile} (h : f.Acked seq) :
    (ackFile lastSeq f).Acked seq := by
  obtain ⟨l, hl, hle⟩ := h
  unfold ackFile
  split
  · rename_i hnewer
    rw [hl] at hnewer
    exact ⟨lastSeq, rfl, hle.trans (of_decide_eq_true hnewer).le⟩
  · exact ⟨l, hl, hle⟩

/-- **An ACK** of a block that has been sent. -/
theorem FileBlocks.ack {out : List Bytes} {blockSize : ℕ} {transId : UInt16} {f : DCFile}
    {lastSeq : ℕ} (h : FileBlocks out blockSize transId f) (hsent : lastSeq < f.nextSeq) :
    FileBlocks out blockSize transId (ackFile lastSeq f) := by
  unfold ackFile
  split
  swap
  · exact h
  rename_i hnewer
  set f' : DCFile := { f with
    lastAcked := some lastSeq
    retrans := f.retrans.dropWhile fun seq => decide (seq ≤ lastSeq)
    ackedAll := f.ackedAll || decide (f.totalBlocks = 0 ∨ lastSeq + 1 ≥ f.totalBlocks) } with hf'
  have hacked : ∀ seq, f'.Acked seq ↔ seq ≤ lastSeq := by
    intro seq
    constructor
    · rintro ⟨l, hl, hle⟩
      rw [← Option.some.inj hl] at hle
      exact hle
    · exact fun hle => ⟨lastSeq, rfl, hle⟩
  have hbefore : ∀ seq, f.Acked seq → seq ≤ lastSeq := by
    rintro seq ⟨l, hl, hle⟩
    rw [hl] at hnewer
    exact hle.trans (of_decide_eq_true hnewer).le
  constructor
  · exact h.total
  · exact h.next
  · exact h.new
  · exact h.ascending.sublist (List.dropWhile_sublist _)
  · intro seq
    rw [hacked seq]
    show seq ∈ f.retrans.dropWhile (fun seq => decide (seq ≤ lastSeq)) ↔ seq < f.nextSeq ∧
      ¬ seq ≤ lastSeq ∧ seq ∉ blocksSent true transId f.fileId out
    rw [mem_dropWhile_le h.ascending, h.pending seq]
    constructor
    · rintro ⟨⟨hlt, -, hunsent⟩, hlast⟩
      exact ⟨hlt, Nat.not_le_of_lt hlast, hunsent⟩
    · rintro ⟨hlt, hlast, hunsent⟩
      exact ⟨⟨hlt, fun hack => hlast (hbefore seq hack), hunsent⟩, Nat.lt_of_not_le hlast⟩
  · exact h.once
  · exact h.again
  · intro seq hack
    exact ((hacked seq).mp hack).trans_lt hsent
  · intro hall
    rcases Bool.or_eq_true_iff.mp hall with hall | hlast
    · exact h.complete hall
    · have hnext := h.next
      show f.nextSeq = f.totalBlocks
      rcases of_decide_eq_true hlast with hzero | hle
      · omega
      · omega

/-- What every entry keeps of its file, an ACK keeps. -/
theorem foldl_ackEntry_keeps {P : DCFile → Prop} (es : List DFileAckEntry)
    (hack : ∀ e ∈ es, e.lastSeq.toNat ≠ 2 ^ 32 - 1 → ∀ f, P f → f.fileId = e.fileId →
      P (ackFile e.lastSeq.toNat f)) :
    ∀ {files : List DCFile}, (∀ f ∈ files, P f) → ∀ f ∈ es.foldl ackEntry files, P f := by
  induction es with
  | nil =>
      intro files h
      exact h
  | cons e es ih =>
      intro files h
      refine ih (fun e' he' => hack e' (List.mem_cons_of_mem e he')) fun f hf => ?_
      unfold ackEntry at hf
      split at hf
      · exact h f hf
      · rename_i hseq
        rcases updateFile_mem hf with hf | ⟨f₀, hf₀, hid, rfl⟩
        · exact h f hf
        · exact hack e List.mem_cons_self hseq f₀ (h f₀ hf₀) hid

theorem updateFile_ids {g : DCFile → DCFile} (hg : ∀ f, (g f).fileId = f.fileId)
    (fileId : UInt16) (files : List DCFile) :
    ((updateFile fileId g files).map fun f => f.fileId) = files.map fun f => f.fileId := by
  induction files with
  | nil => rfl
  | cons f fs ih =>
      rw [updateFile]
      split
      · rw [List.map_cons, List.map_cons, hg]
      · rw [List.map_cons, List.map_cons, ih]

theorem ackFile_fileId (lastSeq : ℕ) (f : DCFile) : (ackFile lastSeq f).fileId = f.fileId := by
  unfold ackFile
  split <;> rfl

theorem ackFile_nextSeq (lastSeq : ℕ) (f : DCFile) : (ackFile lastSeq f).nextSeq = f.nextSeq := by
  unfold ackFile
  split <;> rfl

theorem foldl_ackEntry_ids (es : List DFileAckEntry) : ∀ files : List DCFile,
    ((es.foldl ackEntry files).map fun f => f.fileId) = files.map fun f => f.fileId := by
  induction es with
  | nil =>
      intro files
      rfl
  | cons e es ih =>
      intro files
      rw [List.foldl_cons, ih]
      unfold ackEntry
      split
      · rfl
      · exact updateFile_ids (ackFile_fileId _) _ _

/-- **An ACK frame** whose entries are for blocks that have been sent. -/
theorem FileBlocks.ackFrame {out : List Bytes} {blockSize : ℕ} {t : DCTrans}
    {es : List DFileAckEntry} (h : ∀ f ∈ t.files, FileBlocks out blockSize t.transId f)
    (hsent : AckedSent t es) :
    ∀ f ∈ es.foldl ackEntry t.files, FileBlocks out blockSize t.transId f := by
  -- the condition on the entries still to come is carried along with the file
  refine fun f hf => (foldl_ackEntry_keeps (P := fun f =>
    FileBlocks out blockSize t.transId f ∧ ∀ e ∈ es, e.lastSeq.toNat ≠ 2 ^ 32 - 1 →
      f.fileId = e.fileId → e.lastSeq.toNat < f.nextSeq) es ?_ ?_ f hf).1
  · rintro e he hseq f ⟨hblocks, hlater⟩ hid
    refine ⟨hblocks.ack (hlater e he hseq hid), ?_⟩
    rw [ackFile_fileId, ackFile_nextSeq]
    exact hlater
  · exact fun f hf => ⟨h f hf, fun e he hseq hid => hsent e he hseq f hf hid⟩

/-! ## The transfer -/

/-- Where the blocks of the sending transfer are; before its first step nothing has been
sent. -/
structure TxBlocks (c : DFileConn) : Prop where
  set : ∀ t, c.tx = some t → c.negotiated = true
  ids : ∀ t, c.tx = some t → (t.files.map fun f => f.fileId).Nodup
  files : ∀ t, c.tx = some t → ∀ f ∈ t.files, FileBlocks c.out c.blockSize t.transId f
  silent : (∀ t, c.tx = some t → t.phase = .idle) → ∀ w ∈ c.out, dfileDecodeData w = none

section
variable {c c' : DFileConn}

theorem map_fileId_exchanged {pre post : List DCFile} {x y : DCFile} (h : y.fileId = x.fileId) :
    ((pre ++ y :: post).map fun f => f.fileId) = (pre ++ x :: post).map fun f => f.fileId := by
  rw [List.map_append, List.map_append, List.map_cons, List.map_cons, h]

theorem mem_fileId_exchanged {fileId : UInt16} {pre post : List DCFile} {x y : DCFile}
    (h : fileId ∈ (pre ++ x :: post).map fun f => f.fileId) (hid : y.fileId = x.fileId) :
    fileId ∈ (pre ++ y :: post).map fun f => f.fileId := by
  rwa [map_fileId_exchanged hid]

/-- The other files of the transfer have other numbers. -/
theorem fileId_ne_of_nodup {pre post : List DCFile} {x : DCFile}
    (h : ((pre ++ x :: post).map fun f => f.fileId).Nodup) :
    ∀ f ∈ pre ++ post, f.fileId ≠ x.fileId := by
  rw [List.map_append, List.map_cons, List.nodup_middle, List.nodup_cons, ← List.map_append] at h
  intro f hf heq
  exact h.1 (heq ▸ List.mem_map_of_mem hf)

/-- A step of a transfer that has begun, as far as the records go. -/
theorem TxBlocks.next {t t' : DCTrans} (h : TxBlocks c) (hs : BlockStep c c')
    (htx : c.tx = some t) (htx' : c'.tx = some t') (hphase : t'.phase ≠ .idle)
    (hids : (t'.files.map fun f => f.fileId) = t.files.map fun f => f.fileId)
    (hfiles : ∀ f ∈ t'.files, FileBlocks c'.out c.blockSize t'.transId f) : TxBlocks c' := by
  obtain ⟨hsize, hset⟩ := hs.blockSize (h.set t htx)
  constructor
  · intro _ _
    exact hset
  · intro t₁ ht₁
    rw [htx'] at ht₁
    cases ht₁
    rw [hids]
    exact h.ids t htx
  · intro t₁ ht₁
    rw [htx'] at ht₁
    cases ht₁
    rw [hsize]
    exact hfiles
  · intro hidle
    exact absurd (hidle t' htx') hphase

/-- One file of the transfer has sent a block. -/
theorem TxBlocks.exchanged {t : DCTrans} {pre post : List DCFile} {file file' : DCFile}
    {w : Bytes} {d : DFileData} (h : TxBlocks c) (htx : c.tx = some t)
    (hsplit : t.files = pre ++ file :: post) (hw : dfileDecodeData w = some d)
    (hid : d.fileId = file.fileId)
    (hfile : FileBlocks (c.out ++ [w]) c.blockSize t.transId file') :
    ∀ f ∈ pre ++ file' :: post, FileBlocks (c.out ++ [w]) c.blockSize t.transId f := by
  have hids := h.ids t htx
  have hfiles := h.files t htx
  rw [hsplit] at hids hfiles
  have hother := fileId_ne_of_nodup hids
  intro f hf
  have hrest : f ∈ pre ++ post → FileBlocks (c.out ++ [w]) c.blockSize t.transId f := by
    intro hf
    refine (hfiles f ?_).congr fun _ => blocksSent_other hw (Or.inl ?_)
    · exact (List.mem_append.mp hf).elim (List.mem_append_left _)
        fun hpost => List.mem_append_right _ (List.mem_cons_of_mem file hpost)
    · rw [hid]
      exact (hother f hf).symm
  rcases List.mem_append.mp hf with hpre | hpost
  · exact hrest (List.mem_append_left _ hpre)
  · rcases List.mem_cons.mp hpost with rfl | hpost
    · exact hfile
    · exact hrest (List.mem_append_right _ hpost)

/-- **One step.** -/
theorem BlockStep.txBlocks (hs : BlockStep c c') (h : TxBlocks c) : TxBlocks c' := by
  cases hs.change with
  | quiet ws hout hno hsame =>
      constructor
      · intro t' ht'
        obtain ⟨t, ht, -⟩ := rel_some_right hsame ht'
        exact (hs.blockSize (h.set t ht)).2
      · intro t' ht'
        obtain ⟨t, ht, hkept⟩ := rel_some_right hsame ht'
        rw [hkept.ids]
        exact h.ids t ht
      · intro t' ht' f hf
        obtain ⟨t, ht, hkept⟩ := rel_some_right hsame ht'
        obtain ⟨f₀, hf₀, hf⟩ := hkept.files f hf
        have hblocks : FileBlocks c'.out c'.blockSize t'.transId f₀ := by
          rw [hout, (hs.blockSize (h.set t ht)).1, hkept.transId]
          exact (h.files t ht f₀ hf₀).congr fun _ => blocksSent_quiet hno
        rcases hf with rfl | rfl
        · exact hblocks
        · exact hblocks.confirmed
      · intro hidle w hw
        rw [hout] at hw
        rcases List.mem_append.mp hw with hw | hw
        · refine h.silent (fun t ht => ?_) w hw
          obtain ⟨t', ht', hkept⟩ := rel_some_left hsame ht
          exact hkept.phase (hidle t' ht')
        · exact hno w hw
  | @dropped t htx hphase hout htx' =>
      have hgone : ∀ t', c'.tx ≠ some t' := by
        rw [htx']
        rintro t' ⟨⟩
      constructor
      · exact fun t' ht' => absurd ht' (hgone t')
      · exact fun t' ht' => absurd ht' (hgone t')
      · exact fun t' ht' => absurd ht' (hgone t')
      · intro _
        rw [hout]
        refine h.silent fun t' ht' => ?_
        rw [htx] at ht'
        cases ht'
        exact hphase
  | @begun t ws htx hset hout hno htx' hfresh hids =>
      have hnone : ∀ w ∈ c'.out, dfileDecodeData w = none := by
        intro w hw
        rw [hout] at hw
        rcases List.mem_append.mp hw with hw | hw
        · refine h.silent (fun t ht => ?_) w hw
          rw [htx] at ht
          cases ht
        · exact hno w hw
      obtain ⟨hsize, hset'⟩ := hs.blockSize hset
      constructor
      · intro _ _
        exact hset'
      · intro t' ht'
        rw [htx'] at ht'
        cases ht'
        exact hids
      · intro t' ht' f hf
        rw [htx'] at ht'
        cases ht'
        rw [hsize]
        exact (hfresh f hf).fileBlocks hnone
      · intro _
        exact hnone
  | @newBlock t pre post file block w htx hphase hsplit hmore hw hout htx' =>
      have hfile : file ∈ t.files := by rw [hsplit]; exact List.mem_append_cons_self
      refine h.next hs htx htx' hphase ?_ ?_
      · rw [hsplit]
        exact map_fileId_exchanged rfl
      · have hall := h.exchanged htx hsplit hw rfl ((h.files t htx file hfile).newBlock hmore hw)
        rw [hout]
        exact hall
  | @retran t pre post file seq retrans block w lastRetranMs htx hphase hsplit hretrans hw hout
      htx' =>
      have hfile : file ∈ t.files := by rw [hsplit]; exact List.mem_append_cons_self
      refine h.next hs htx htx' hphase ?_ ?_
      · rw [hsplit]
        exact map_fileId_exchanged rfl
      · have hall := h.exchanged htx hsplit hw rfl ((h.files t htx file hfile).retran hretrans hw)
        rw [hout]
        exact hall
  | @ack t es htx hphase hsent hout htx' =>
      refine h.next hs htx htx' hphase (foldl_ackEntry_ids es t.files) ?_
      rw [hout]
      exact FileBlocks.ackFrame (h.files t htx) hsent

/-- Once block `l` of the file is acknowledged, after the frames `before`, only later blocks
are sent again. -/
structure RetransAbove (before : List Bytes) (transId fileId : UInt16) (l : ℕ) (c : DFileConn) :
    Prop where
  tx : ∃ t, c.tx = some t ∧ t.transId = transId ∧ (fileId ∈ t.files.map fun f => f.fileId) ∧
    ∀ f ∈ t.files, f.fileId = fileId → f.Acked l
  later : ∃ ws, c.out = before ++ ws ∧ ∀ seq ∈ blocksSent true transId fileId ws, l < seq

/-- An acknowledged block has been sent, so the transfer has begun. -/
theorem TxBlocks.begun {t : DCTrans} {f : DCFile} {seq : ℕ} (h : TxBlocks c) (htx : c.tx = some t)
    (hf : f ∈ t.files) (hack : f.Acked seq) : t.phase ≠ .idle := by
  intro hidle
  have hnone : ∀ w ∈ c.out, dfileDecodeData w = none := by
    refine h.silent fun t' ht' => ?_
    rw [htx] at ht'
    cases ht'
    exact hidle
  have hblocks := h.files t htx f hf
  have hnew := hblocks.new
  rw [blocksSent_none hnone] at hnew
  have hzero : f.nextSeq = 0 := List.range_eq_nil.mp hnew.symm
  exact absurd (hblocks.acked seq hack) (by rw [hzero]; exact Nat.not_lt_zero seq)

/-- **One step.** -/
theorem BlockStep.retransAbove {before : List Bytes} {transId fileId : UInt16} {l : ℕ}
    (hs : BlockStep c c') (hblocks : TxBlocks c) (h : RetransAbove before transId fileId l c) :
    RetransAbove before transId fileId l c' := by
  obtain ⟨t, htx, rfl, hmem, hall⟩ := h.tx
  obtain ⟨ws, hws, habove⟩ := h.later
  have hadd : ∀ ws', c'.out = c.out ++ ws' →
      (∀ seq ∈ blocksSent true t.transId fileId ws', l < seq) →
      ∃ ws, c'.out = before ++ ws ∧ ∀ seq ∈ blocksSent true t.transId fileId ws, l < seq := by
    intro ws' hout hnew
    refine ⟨ws ++ ws', by rw [hout, hws, List.append_assoc], fun seq hseq => ?_⟩
    rw [blocksSent_append] at hseq
    exact (List.mem_append.mp hseq).elim (habove seq) (hnew seq)
  cases hs.change with
  | quiet ws' hout hno hsame =>
      obtain ⟨t', htx', hkept⟩ := rel_some_left hsame htx
      refine ⟨⟨t', htx', hkept.transId, by rwa [hkept.ids], fun f hf hid => ?_⟩, hadd _ hout ?_⟩
      · obtain ⟨f₀, hf₀, rfl | rfl⟩ := hkept.files f hf
        · exact hall f hf₀ hid
        · exact hall f₀ hf₀ hid
      · rw [blocksSent_none hno]
        intro seq hseq
        cases hseq
  | @dropped t₁ htx₁ hphase =>
      rw [htx] at htx₁
      cases htx₁
      obtain ⟨f, hf, hid⟩ := List.mem_map.mp hmem
      exact absurd hphase (hblocks.begun htx hf (hall f hf hid))
  | begun _ hnone =>
      rw [htx] at hnone
      cases hnone
  | @newBlock t₁ pre post file block w htx₁ _ hsplit _ hw hout htx' =>
      rw [htx] at htx₁
      cases htx₁
      rw [hsplit] at hmem hall
      have hnew : blocksSent true t.transId fileId ([] ++ [w]) = [] := by
        refine blocksSent_other hw (Or.inr ?_)
        rw [DFileData.isRetran, txBlockFlag_new]
        decide
      refine ⟨⟨_, htx', rfl, ?_, forall_exchanged hall (hall file List.mem_append_cons_self)⟩,
        hadd _ hout ?_⟩
      · exact mem_fileId_exchanged hmem rfl
      · rw [← List.nil_append [w], hnew]
        intro seq hseq
        cases hseq
  | @retran t₁ pre post file seq retrans block w lastRetranMs htx₁ _ hsplit hretrans hw hout
      htx' =>
      rw [htx] at htx₁
      cases htx₁
      have hfile : file ∈ t.files := by rw [hsplit]; exact List.mem_append_cons_self
      have hfb := hblocks.files t htx file hfile
      rw [hsplit] at hmem hall
      refine ⟨⟨_, htx', rfl, ?_, forall_exchanged hall (hall file List.mem_append_cons_self)⟩,
        hadd _ hout ?_⟩
      · exact mem_fileId_exchanged hmem rfl
      · rw [← List.nil_append [w]]
        by_cases hid : file.fileId = fileId
        · -- a pending block is above every block that is acknowledged
          obtain ⟨hlt, hunacked, -⟩ := (hfb.pending seq).mp (hretrans ▸ List.mem_cons_self)
          obtain ⟨l', hl', hle⟩ := hall file List.mem_append_cons_self hid
          have hnum : (UInt32.ofNat seq).toNat = seq :=
            UInt32.toNat_ofNat_of_lt' ((hlt.trans_le hfb.next).trans hfb.fits)
          rw [hid] at hw
          rw [blocksSent_same hw (by decide), hnum]
          intro seq' hseq'
          rw [List.mem_singleton.mp hseq']
          exact Nat.lt_of_not_le fun hseq => hunacked ⟨l', hl', hseq.trans hle⟩
        · rw [blocksSent_other hw (Or.inl hid)]
          intro seq' hseq'
          cases hseq'
  | @ack t₁ es htx₁ _ _ hout htx' =>
      rw [htx] at htx₁
      cases htx₁
      refine ⟨⟨_, htx', rfl, by rwa [foldl_ackEntry_ids], ?_⟩,
        hadd [] (by rw [hout, List.append_nil]) fun seq hseq => by cases hseq⟩
      refine foldl_ackEntry_keeps (P := fun f => f.fileId = fileId → f.Acked l) es ?_ hall
      intro e _ _ f hf _ hid
      rw [ackFile_fileId] at hid
      exact ackFile_acked (hf hid)

/-- **Any number of steps.** -/
theorem TxBlocks.steps (h : TxBlocks c) (hs : ReflTransGen BlockStep c c') : TxBlocks c' := by
  induction hs with
  | refl => exact h
  | tail _ hlast ih => exact hlast.txBlocks ih

theorem RetransAbove.steps {before : List Bytes} {transId fileId : UInt16} {l : ℕ}
    (h : RetransAbove before transId fileId l c) (hblocks : TxBlocks c)
    (hs : ReflTransGen BlockStep c c') : RetransAbove before transId fileId l c' := by
  induction hs with
  | refl => exact h
  | tail hsteps hlast ih => exact hlast.retransAbove (hblocks.steps hsteps) ih

end

/-! ## Runs -/

/-- Every ACK that is handled is for blocks that have been sent. -/
def DcAcksSent (c : DFileConn) (e : DcEv) : Prop :=
  ∀ d ∈ e.dispatches c, ackUnsent d.1 d.2.2 = false

theorem dcAlloc_txBlocks (now : UInt64) (recvDir : Option Bytes) :
    TxBlocks (dcAlloc now recvDir) where
  set := by rintro t ⟨⟩
  ids := by rintro t ⟨⟩
  files := by rintro t ⟨⟩
  silent := by rintro _ w ⟨⟩

/-- `tx_all_sent` asks of a file what its blocks say. -/
theorem FileBlocks.sent_iff {out : List Bytes} {blockSize : ℕ} {transId : UInt16} {f : DCFile}
    (h : FileBlocks out blockSize transId f) :
    (!(decide (f.nextSeq < f.totalBlocks) || decide (f.retrans.length > 0))) = true ↔
      ∀ seq < f.totalBlocks, seq ∈ blocksSent false transId f.fileId out ∧
        (f.Acked seq ∨ seq ∈ blocksSent true transId f.fileId out) := by
  rw [Bool.not_eq_true', Bool.or_eq_false_iff, decide_eq_false_iff_not, decide_eq_false_iff_not,
    h.new]
  constructor
  · rintro ⟨hnext, hempty⟩ seq hseq
    have hlt : seq < f.nextSeq := hseq.trans_le (Nat.le_of_not_lt hnext)
    refine ⟨List.mem_range.mpr hlt, ?_⟩
    by_contra hnot
    rw [not_or] at hnot
    exact hempty (List.length_pos_of_mem ((h.pending seq).mpr ⟨hlt, hnot⟩))
  · intro hall
    constructor
    · intro hnext
      exact Nat.lt_irrefl _ (List.mem_range.mp (hall f.nextSeq hnext).1)
    · intro hpos
      obtain ⟨seq, hseq⟩ := List.exists_mem_of_length_pos hpos
      obtain ⟨hlt, hunacked, hunsent⟩ := (h.pending seq).mp hseq
      exact (hall seq (hlt.trans_le h.next)).2.elim hunacked hunsent

section
variable {sha256Hex : Bytes → Bytes}

/-- **The blocks of a sending transfer**, as long as no ACK is for a block that has not been
sent: what each file has pending and has sent, what `tx_all_sent` says of it, and that no
later retransmission goes back behind an ACK. -/
theorem DFileConn.tx_blocks {now : UInt64} {recvDir : Option Bytes} {es : List DcEv}
    {c : DFileConn} {t : DCTrans}
    (hok : Meets (DFileConn.step sha256Hex) DcAcksSent (dcAlloc now recvDir) es)
    (hrun : run (DFileConn.step sha256Hex) (dcAlloc now recvDir) es = some c)
    (htx : c.tx = some t) :
    (∀ f ∈ t.files, FileBlocks c.out c.blockSize t.transId f) ∧
    (txAllSent t = true ↔ ∀ f ∈ t.files, ∀ seq < f.totalBlocks,
      seq ∈ blocksSent false t.transId f.fileId c.out ∧
        (f.Acked seq ∨ seq ∈ blocksSent true t.transId f.fileId c.out)) ∧
    ∀ f ∈ t.files, ∀ l, f.lastAcked = some l → ∀ es' c',
      Meets (DFileConn.step sha256Hex) DcAcksSent c es' →
      run (DFileConn.step sha256Hex) c es' = some c' →
      ∃ ws, c'.out = c.out ++ ws ∧ ∀ seq ∈ blocksSent true t.transId f.fileId ws, l < seq := by
  have hstep : ∀ c e c', (DcBase c ∧ TxBlocks c) ∧ c.Sound → DcAcksSent c e →
      c.step sha256Hex e = some c' → (DcBase c' ∧ TxBlocks c') ∧ c'.Sound := by
    rintro c e c' ⟨⟨hbase, hblocks⟩, hsound⟩ hacks hs
    obtain ⟨⟨hbase', hsteps⟩, hsound'⟩ := DFileConn.step_blocks hbase hsound hacks hs
    exact ⟨⟨hbase', hblocks.steps hsteps⟩, hsound'⟩
  have hinv : (DcBase c ∧ TxBlocks c) ∧ c.Sound := run_inv _ _ hstep
    ⟨⟨dcAlloc_base now recvDir, dcAlloc_txBlocks now recvDir⟩, dcAlloc_sound now recvDir⟩ hok hrun
  have hfiles := hinv.1.2.files t htx
  refine ⟨hfiles, ?_, ?_⟩
  · unfold txAllSent
    rw [List.all_eq_true]
    exact forall₂_congr fun f hf => (hfiles f hf).sent_iff
  · intro f hf l hl es' c' hok' hrun'
    have hstart : RetransAbove c.out t.transId f.fileId l c := by
      refine ⟨⟨t, htx, rfl, List.mem_map_of_mem hf, fun f' hf' hid => ?_⟩, [], by simp, ?_⟩
      · have heq := List.inj_on_of_nodup_map (hinv.1.2.ids t htx) hf' hf hid
        exact ⟨l, by rw [heq, hl], Nat.le_refl l⟩
      · intro seq hseq
        cases hseq
    have hlater : ((DcBase c' ∧ TxBlocks c') ∧ c'.Sound) ∧
        RetransAbove c.out t.transId f.fileId l c' := by
      refine run_inv (fun d => ((DcBase d ∧ TxBlocks d) ∧ d.Sound) ∧
        RetransAbove c.out t.transId f.fileId l d) _ ?_ ⟨hinv, hstart⟩ hok' hrun'
      rintro d e d' ⟨⟨⟨hbase, hblocks⟩, hsound⟩, habove⟩ hacks hs
      obtain ⟨⟨-, hsteps⟩, -⟩ := DFileConn.step_blocks hbase hsound hacks hs
      exact ⟨hstep d e d' ⟨⟨hbase, hblocks⟩, hsound⟩ hacks hs, habove.steps hblocks hsteps⟩
    exact hlater.2.later

end

/-- `DcAcksSent`, to be tested. -/
def dcAcksSentTest (c : DFileConn) (e : DcEv) : Bool :=
  (e.dispatches c).all fun d => !ackUnsent d.1 d.2.2

theorem dcAcksSent_of_test {c : DFileConn} {e : DcEv} (h : dcAcksSentTest c e = true) :
    DcAcksSent c e := by
  intro d hd
  rw [← Bool.not_eq_true']
  exact List.all_eq_true.mp h d hd

/-- The block of the one-byte file goes out twice before its ACK comes in. -/
theorem DFileConn.tx_blocks_sendOneByte :
    ∃ c t, run (DFileConn.step id) (dcAlloc 0 none)
        (sendOneByte [.tick (oneByteEnv 0 fun _ => dcTakesAll)]) = some c ∧ c.tx = some t ∧
      blocksSent true 1 1 c.out = [0] ∧
      (∀ f ∈ t.files, FileBlocks c.out c.blockSize t.transId f) ∧ txAllSent t = true ∧
      ∀ f ∈ t.files, ∀ seq < f.totalBlocks,
        seq ∈ blocksSent false t.transId f.fileId c.out ∧
          (f.Acked seq ∨ seq ∈ blocksSent true t.transId f.fileId c.out) := by
  obtain ⟨c, hrun, hfacts⟩ := Option.map_eq_some_iff.mp (show
    (run (DFileConn.step id) (dcAlloc 0 none)
      (sendOneByte [.tick (oneByteEnv 0 fun _ => dcTakesAll)])).map (fun c =>
        (c.tx.map txAllSent, blocksSent true 1 1 c.out)) = some (some true, [0]) by
          decide +kernel)
  obtain ⟨hall, htwice⟩ := Prod.mk.inj hfacts
  obtain ⟨t, htx, hsent⟩ := Option.map_eq_some_iff.mp hall
  have hok : Meets (DFileConn.step id) DcAcksSent (dcAlloc 0 none)
      (sendOneByte [.tick (oneByteEnv 0 fun _ => dcTakesAll)]) :=
    meets_of_test (fun _ _ h => dcAcksSent_of_test h) _ (show
      meetsTest (DFileConn.step id) dcAcksSentTest (dcAlloc 0 none)
        (sendOneByte [.tick (oneByteEnv 0 fun _ => dcTakesAll)]) = true by decide +kernel)
  obtain ⟨hfiles, hiff, -⟩ := DFileConn.tx_blocks hok hrun htx
  exact ⟨c, t, hrun, htx, htwice, hfiles, hsent, hiff.mp hsent⟩

end HwPhoneLink.DFile
