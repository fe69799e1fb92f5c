import HwPhoneLink.DFile.Sending
import HwPhoneLink.DFile.Blocks

/-!
# What a reported delivery means

`on_result(sender, ok)` comes with the DONE_ACK. Behind it are a DONE frame and, for every
file with data, an ACK of its last block. `handle_ack` takes the sequence number as it
comes; the result is worth something when no ACK runs ahead of the blocks.
-/

namespace HwPhoneLink.DFile

open BigEndian Path Framing Transitions HwPhoneLink.Testfile

abbrev Dispatched := List (DFileConn × DcEnv × Bytes)

/-- A data frame with block `seq` of the file. -/
def IsBlockOf (transId : UInt16) (blockSize : ℕ) (f : DCFile) (seq : ℕ) (w : Bytes) : Prop :=
  ∃ d, dfileDecodeData w = some d ∧ d.transId = transId ∧ d.fileId = f.fileId ∧
    d.blockSeq.toNat = seq ∧ d.payload.length = dcBlockLen f.size blockSize seq

/-- The first `n` blocks of the file have been written whole. -/
def SentTo (transId : UInt16) (blockSize : ℕ) (f : DCFile) (n : ℕ) (out : List Bytes) : Prop :=
  ∀ seq < n, ∃ w ∈ out, IsBlockOf transId blockSize f seq w

/-- The frame is an ACK of the last block of the file. -/
def Acknowledges (transId : UInt16) (blockSize : ℕ) (f : DCFile) (frame : Bytes) : Prop :=
  ∃ a, dfileDecodeAck frame = some a ∧ a.transId = transId ∧
    ∃ e ∈ a.entries, e.fileId = f.fileId ∧ f.size ⌈/⌉ blockSize ≤ e.lastSeq.toNat + 1

/-- An ACK of the last block has come in after all blocks went out. -/
def AckedIn (H : Dispatched) (told : List (ℕ × DcEvent)) (out : List Bytes) (transId : UInt16)
    (blockSize : ℕ) (f : DCFile) : Prop :=
  ∃ d ∈ H, d.1.events <+: told ∧ d.1.out <+: out ∧ Acknowledges transId blockSize f d.2.2 ∧
    SentTo transId blockSize f (f.size ⌈/⌉ blockSize) d.1.out

/-- A DONE frame for the transfer has come in. -/
def DoneIn (H : Dispatched) (told : List (ℕ × DcEvent)) (transId : UInt16) : Prop :=
  ∃ d ∈ H, d.1.events <+: told ∧
    ∃ l, dfileDecodeIdlist d.2.2 .fileTransferDone = some l ∧ l.transId = transId

/-- What stands behind a delivery that is reported after the callbacks `told` and the
writes `out`. -/
structure Delivered (H : Dispatched) (told : List (ℕ × DcEvent)) (out : List Bytes)
    (blockSize : ℕ) (t : DCTrans) : Prop where
  blocks : ∀ f ∈ t.files, SentTo t.transId blockSize f (f.size ⌈/⌉ blockSize) out
  acked : ∀ f ∈ t.files, f.size ≠ 0 → AckedIn H told out t.transId blockSize f
  done : DoneIn H told t.transId

/-! ## The conditions -/

/-- An ACK for the transfer names the last block of a file, or one behind it, while that
block has not been sent. -/
def ackAhead (c : DFileConn) (frame : Bytes) : Bool :=
  c.tx.any fun t =>
    decide (t.phase = .txSending ∨ t.phase = .txWaitDone) &&
      (dfileDecodeAck frame).any fun a =>
        decide (a.transId = t.transId) &&
          a.entries.any fun e =>
            decide (e.lastSeq.toNat ≠ 2 ^ 32 - 1) &&
              t.files.any fun f =>
                decide (f.fileId = e.fileId ∧ f.nextSeq < f.totalBlocks ∧
                  f.totalBlocks ≤ e.lastSeq.toNat + 1)

/-- The block numbers of every file that is found fit into 32 bits. -/
def filesFit (env : DcEnv) (items : List DFileSendItem) (c : DFileConn) : Bool :=
  items.all fun item =>
    (env.fstat item.path).all fun size => decide (size ≤ (2 ^ 32 - 1) * c.blockSize)

/-- No file is too large for its blocks, and no ACK runs ahead. -/
def DcHonest : DFileConn → DcEv → Prop :=
  DcOk (fun env items c => filesFit env items c = true) fun c frame => ackAhead c frame = false

/-! ## Growing histories -/

section
variable {H H' : Dispatched} {told told' : List (ℕ × DcEvent)} {out out' : List Bytes}
  {transId : UInt16} {blockSize n : ℕ} {f : DCFile}

theorem SentTo.mono (h : SentTo transId blockSize f n out) (hout : out ⊆ out') :
    SentTo transId blockSize f n out' := by
  intro seq hseq
  obtain ⟨w, hw, hblock⟩ := h seq hseq
  exact ⟨w, hout hw, hblock⟩

/-- Only the number and the size of a file count. -/
theorem SentTo.congr {f' : DCFile} (h : SentTo transId blockSize f n out)
    (hid : f'.fileId = f.fileId) (hsize : f'.size = f.size) :
    SentTo transId blockSize f' n out := by
  intro seq hseq
  obtain ⟨w, hw, d, hd, htrans, hfile, hnum, hlen⟩ := h seq hseq
  exact ⟨w, hw, d, hd, htrans, hfile.trans hid.symm, hnum, hsize ▸ hlen⟩

theorem AckedIn.congr {f' : DCFile} (h : AckedIn H told out transId blockSize f)
    (hid : f'.fileId = f.fileId) (hsize : f'.size = f.size) :
    AckedIn H told out transId blockSize f' := by
  obtain ⟨d, hd, he, ho, ⟨a, ha, htrans, e, hmem, heid, hle⟩, hsent⟩ := h
  rw [← hsize] at hle hsent
  exact ⟨d, hd, he, ho, ⟨a, ha, htrans, e, hmem, heid.trans hid.symm, hle⟩,
    hsent.congr hid hsize⟩

theorem AckedIn.mono (h : AckedIn H told out transId blockSize f) (hH : H ⊆ H')
    (htold : told <+: told') (hout : out <+: out') : AckedIn H' told' out' transId blockSize f := by
  obtain ⟨d, hd, he, ho, hack, hsent⟩ := h
  exact ⟨d, hH hd, he.trans htold, ho.trans hout, hack, hsent⟩

theorem AckedIn.sent (h : AckedIn H told out transId blockSize f) :
    SentTo transId blockSize f (f.size ⌈/⌉ blockSize) out := by
  obtain ⟨d, -, -, ho, -, hsent⟩ := h
  exact hsent.mono ho.subset

theorem DoneIn.mono (h : DoneIn H told transId) (hH : H ⊆ H') (htold : told <+: told') :
    DoneIn H' told' transId := by
  obtain ⟨d, hd, he, hl⟩ := h
  exact ⟨d, hH hd, he.trans htold, hl⟩

theorem Delivered.mono {t : DCTrans} (h : Delivered H told out blockSize t) (hH : H ⊆ H') :
    Delivered H' told out blockSize t where
  blocks := h.blocks
  acked f hf hne := (h.acked f hf hne).mono hH (List.prefix_refl _) (List.prefix_refl _)
  done := h.done.mono hH (List.prefix_refl _)

end

/-! ## The files of the transfer -/

/-- What holds of a file while its transfer runs. -/
structure FileSound (H : Dispatched) (c : DFileConn) (transId : UInt16) (f : DCFile) : Prop where
  total : f.totalBlocks = f.size ⌈/⌉ c.blockSize
  fits : f.totalBlocks < 2 ^ 32
  sent : SentTo transId c.blockSize f f.nextSeq c.out
  acked : f.ackedAll = true →
    f.totalBlocks = 0 ∨ AckedIn H c.events c.out transId c.blockSize f

/-- The histories have grown, with the same block size. -/
structure DcLater (c c' : DFileConn) : Prop where
  out : c.out <+: c'.out
  events : c.events <+: c'.events
  blockSize : c'.blockSize = c.blockSize

theorem FileSound.later {H H' : Dispatched} {c c' : DFileConn} {transId : UInt16} {f : DCFile}
    (h : FileSound H c transId f) (hH : H ⊆ H') (hlater : DcLater c c') :
    FileSound H' c' transId f where
  total := by rw [hlater.blockSize, h.total]
  fits := h.fits
  sent := by
    rw [hlater.blockSize]
    exact h.sent.mono hlater.out.subset
  acked hacked := by
    rw [hlater.blockSize]
    exact (h.acked hacked).imp_right fun ha => ha.mono hH hlater.events hlater.out

/-- A file as it is opened. -/
theorem FileSound.opened {H : Dispatched} {env : DcEnv} {c c' : DFileConn} {i : ℕ}
    {item : DFileSendItem} {f : DCFile} {transId : UInt16} (hblock : 0 < c.blockSize)
    (hsame : c'.blockSize = c.blockSize)
    (hfit : ∀ size, env.fstat item.path = some size → size ≤ (2 ^ 32 - 1) * c.blockSize)
    (h : txOpenFile env c.blockSize i item = .ok f) : FileSound H c' transId f := by
  obtain ⟨htotal, hacked, hnext, -, -, -, -, hstat⟩ := txOpenFile_spec h
  have hexact := (dcTotalBlocks_exact hblock).mpr (hfit _ hstat)
  constructor
  · rw [hsame, htotal, hexact]
  · rw [htotal, dcTotalBlocks_eq]
    exact Nat.mod_lt _ (by decide)
  · rw [hnext]
    intro seq hseq
    exact absurd hseq (Nat.not_lt_zero seq)
  · intro hall
    left
    rw [hacked] at hall
    rw [htotal]
    exact of_decide_eq_true hall

theorem txOpenFiles_mem {env : DcEnv} {blockSize : ℕ} (items : List DFileSendItem) :
    ∀ {i : ℕ} {files : List DCFile}, txOpenFiles env blockSize i items = .ok files →
      ∀ f ∈ files, ∃ j, ∃ item ∈ items, txOpenFile env blockSize j item = .ok f := by
  induction items with
  | nil =>
      intro i files h f hf
      cases h
      cases hf
  | cons item items ih =>
      intro i files h f hf
      unfold txOpenFiles at h
      split at h
      · cases h
      · cases h
      · rename_i g hg
        split at h
        · cases h
        · cases h
        · rename_i gs hgs
          cases h
          rcases List.mem_cons.mp hf with rfl | hf
          · exact ⟨i, item, List.mem_cons_self, hg⟩
          · obtain ⟨j, item', hitem', hj⟩ := ih hgs f hf
            exact ⟨j, item', List.mem_cons_of_mem item hitem', hj⟩

/-- The file after an ACK is one from before it, which an entry may have completed. -/
structure AckOf (es : List DFileAckEntry) (f₀ f : DCFile) : Prop where
  fileId : f.fileId = f₀.fileId
  size : f.size = f₀.size
  total : f.totalBlocks = f₀.totalBlocks
  next : f.nextSeq = f₀.nextSeq
  acked : f.ackedAll = true → f₀.ackedAll = true ∨
    ∃ e ∈ es, e.fileId = f₀.fileId ∧ e.lastSeq.toNat ≠ 2 ^ 32 - 1 ∧
      (f₀.totalBlocks = 0 ∨ f₀.totalBlocks ≤ e.lastSeq.toNat + 1)

theorem ackFile_of (e : DFileAckEntry) (f : DCFile) (hid : f.fileId = e.fileId)
    (hseq : e.lastSeq.toNat ≠ 2 ^ 32 - 1) : AckOf [e] f (ackFile e.lastSeq.toNat f) := by
  unfold ackFile
  split
  · constructor
    · rfl
    · rfl
    · rfl
    · rfl
    · intro hall
      rw [Bool.or_eq_true, decide_eq_true_iff] at hall
      rcases hall with hall | hall
      · exact Or.inl hall
      · exact Or.inr ⟨e, List.mem_singleton_self e, hid.symm, hseq, hall⟩
  · exact ⟨rfl, rfl, rfl, rfl, Or.inl⟩

theorem ackEntry_mem {files : List DCFile} {e : DFileAckEntry} {f : DCFile}
    (hf : f ∈ ackEntry files e) : ∃ f₀ ∈ files, AckOf [e] f₀ f := by
  unfold ackEntry at hf
  split at hf
  · exact ⟨f, hf, rfl, rfl, rfl, rfl, Or.inl⟩
  · rename_i hseq
    rcases updateFile_mem hf with hf | ⟨f₀, hf₀, hid, rfl⟩
    · exact ⟨f, hf, rfl, rfl, rfl, rfl, Or.inl⟩
    · exact ⟨f₀, hf₀, ackFile_of e f₀ hid hseq⟩

theorem foldl_ackEntry_mem (es : List DFileAckEntry) : ∀ {files : List DCFile} {f : DCFile},
    f ∈ es.foldl ackEntry files → ∃ f₀ ∈ files, AckOf es f₀ f := by
  induction es with
  | nil =>
      intro files f hf
      exact ⟨f, hf, rfl, rfl, rfl, rfl, Or.inl⟩
  | cons e es ih =>
      intro files f hf
      obtain ⟨f₁, hf₁, h₁⟩ := ih hf
      obtain ⟨f₀, hf₀, h₀⟩ := ackEntry_mem hf₁
      refine ⟨f₀, hf₀, h₁.fileId.trans h₀.fileId, h₁.size.trans h₀.size, h₁.total.trans h₀.total,
        h₁.next.trans h₀.next, fun hall => ?_⟩
      rcases h₁.acked hall with hall | ⟨e', he', hid, hseq, htotal⟩
      · refine (h₀.acked hall).imp_right ?_
        rintro ⟨e', he', hrest⟩
        rw [List.mem_singleton] at he'
        exact ⟨e', he' ▸ List.mem_cons_self, hrest⟩
      · rw [h₀.fileId] at hid
        rw [h₀.total] at htotal
        exact Or.inr ⟨e', List.mem_cons_of_mem e he', hid, hseq, htotal⟩

/-! ## The invariant -/

/-- What holds of a connection along a run whose steps meet the conditions. -/
structure TxSound (H : Dispatched) (c : DFileConn) : Prop where
  set : ∀ t, c.tx = some t → c.negotiated = true
  files : c.crash = none → ∀ t, c.tx = some t → ∀ f ∈ t.files, FileSound H c t.transId f
  done : c.crash = none → ∀ t, c.tx = some t → t.doneReceived = true →
    DoneIn H c.events t.transId
  told : ∀ pre post n m, c.events = pre ++ (n, .result true true m) :: post →
    ∃ t, c.tx = some t ∧ t.phase = .txDone ∧ n ≤ c.out.length ∧
      Delivered H pre (c.out.take n) c.blockSize t

section
variable {sha256Hex : Bytes → Bytes} {H : Dispatched} {env : DcEnv} {fr : Option Bytes}
  {c c' : DFileConn}

/-- Before the transfer is done, no delivery has been reported. -/
theorem TxSound.not_told (h : TxSound H c) (hphase : ∀ t, c.tx = some t → t.phase ≠ .txDone)
    (pre post : List (ℕ × DcEvent)) (n : ℕ) (m : String) :
    c.events ≠ pre ++ (n, .result true true m) :: post := by
  intro hevents
  obtain ⟨t, ht, hdone, -⟩ := h.told pre post n m hevents
  exact hphase t ht hdone

theorem TxSound.not_told_of {t : DCTrans} (h : TxSound H c) (ht : c.tx = some t)
    (hphase : t.phase ≠ .txDone) (pre post : List (ℕ × DcEvent)) (n : ℕ) (m : String) :
    c.events ≠ pre ++ (n, .result true true m) :: post := by
  refine h.not_told (fun u hu => ?_) pre post n m
  obtain rfl : t = u := Option.some.inj (ht.symm.trans hu)
  exact hphase

/-- What holds of every entry of a list, after one of them has been exchanged. -/
theorem forall_exchanged {α : Type} {P : α → Prop} {pre post : List α} {x y : α}
    (h : ∀ a ∈ pre ++ x :: post, P a) (hy : P y) : ∀ a ∈ pre ++ y :: post, P a := by
  intro a ha
  rcases List.mem_append.mp ha with hpre | hrest
  · exact h a (List.mem_append_left _ hpre)
  · rcases List.mem_cons.mp hrest with rfl | hpost
    · exact hy
    · exact h a (List.mem_append_right _ (List.mem_cons_of_mem x hpost))

theorem DcTxMove.later (hmove : DcTxMove env c c') (hm : DcMove sha256Hex env True fr c c')
    (hset : c.negotiated = true) : DcLater c c' := by
  have hgrow : c.out <+: c'.out ∧ c.events <+: c'.events := by
    cases hmove with
    | kept ws es hout _ hevents => exact ⟨⟨ws, hout.symm⟩, ⟨es, hevents.symm⟩⟩
    | dropped _ _ hout hevents => exact ⟨⟨[], by simp [hout]⟩, ⟨[], by simp [hevents]⟩⟩
    | armed _ _ hout hevents => exact ⟨⟨[], by simp [hout]⟩, ⟨[], by simp [hevents]⟩⟩
    | cut _ _ _ _ hout hevents => exact ⟨⟨_, hout.symm⟩, ⟨[], by simp [hevents]⟩⟩
    | newBlock _ _ _ _ _ _ hout hevents => exact ⟨⟨_, hout.symm⟩, ⟨[], by simp [hevents]⟩⟩
    | retran _ _ _ _ _ _ hout hevents => exact ⟨⟨_, hout.symm⟩, ⟨[], by simp [hevents]⟩⟩
    | finish _ _ _ _ _ _ _ hout hevents => exact ⟨⟨_, hout.symm⟩, ⟨_, hevents.symm⟩⟩
  exact ⟨hgrow.1, hgrow.2, (hm.blockSize_kept hset).1⟩

theorem TxSound.mono {H' : Dispatched} (hH : H ⊆ H') (h : TxSound H c) : TxSound H' c where
  set := h.set
  files halive t ht f hf :=
    (h.files halive t ht f hf).later hH ⟨List.prefix_refl _, List.prefix_refl _, rfl⟩
  done halive t ht hdone := (h.done halive t ht hdone).mono hH (List.prefix_refl _)
  told pre post n m hevents := by
    obtain ⟨t, ht, hphase, hn, hdelivered⟩ := h.told pre post n m hevents
    exact ⟨t, ht, hphase, hn, hdelivered.mono hH⟩

/-- The transfer goes on, with its files in order and no delivery reported yet. -/
theorem TxSound.next {t t' : DCTrans} (h : TxSound H c) (htx : c.tx = some t)
    (hphase : t.phase ≠ .txDone) (htx' : c'.tx = some t') (hid : t'.transId = t.transId)
    (hset : c'.negotiated = true)
    (halive : c'.crash = none → c.crash = none) (hevents : c'.events = c.events)
    (hfiles : c.crash = none → ∀ f ∈ t'.files, FileSound H c' t.transId f)
    (hdone : c.crash = none → t'.doneReceived = true → DoneIn H c.events t.transId) :
    TxSound H c' where
  set _ _ := hset
  files hlive u hu f hf := by
    obtain rfl : t' = u := Option.some.inj (htx'.symm.trans hu)
    rw [hid]
    exact hfiles (halive hlive) f hf
  done hlive u hu hreceived := by
    obtain rfl : t' = u := Option.some.inj (htx'.symm.trans hu)
    rw [hid, hevents]
    exact hdone (halive hlive) hreceived
  told pre post n m hsplit := by
    exact absurd (hevents ▸ hsplit) (h.not_told_of htx hphase pre post n m)

/-- The next block of a file goes out. -/
theorem FileSound.newBlock {t : DCTrans} {file : DCFile} {f : Bytes} {retrans : List ℕ}
    (h : FileSound H c t.transId file) (hmore : file.nextSeq < file.totalBlocks)
    (hblock : IsBlockFrame env c t file file.nextSeq f) (hlater : DcLater c c')
    (hout : c'.out = c.out ++ [f]) :
    FileSound H c' t.transId { file with retrans := retrans, nextSeq := file.nextSeq + 1 } := by
  have hold := h.later (List.Subset.refl H) hlater
  refine ⟨hold.total, hold.fits, ?_, hold.acked⟩
  intro seq hseq
  rcases Nat.lt_succ_iff_lt_or_eq.mp hseq with hlt | rfl
  · exact hold.sent seq hlt
  · obtain ⟨flag, block, hread, hf⟩ := hblock
    refine ⟨f, ?_, _, dfileDecodeData_encode hf, rfl, rfl, ?_, ?_⟩
    · rw [hout]
      exact List.mem_append_right _ List.mem_cons_self
    · have hfits := h.fits
      show (UInt32.ofNat file.nextSeq).toNat = file.nextSeq
      rw [UInt32.toNat_ofNat', Nat.mod_eq_of_lt (by omega)]
    · obtain ⟨-, hlen⟩ := Option.filter_eq_some_iff.mp hread
      rw [hlater.blockSize]
      exact of_decide_eq_true hlen

/-- The transfer and its reports stay, apart from a failure. -/
theorem TxSound.kept {ws : List Bytes} {es : List (ℕ × DcEvent)} (h : TxSound H c)
    (hlater : ∀ {t}, c.tx = some t → DcLater c c')
    (hset : ∀ {t}, c.tx = some t → c'.negotiated = true)
    (halive : c'.crash = none → c.crash = none) (hout : c'.out = c.out ++ ws)
    (hevents : c'.events = c.events ++ es) (hes : ∀ p ∈ es, ∀ m, p.2 ≠ .result true true m)
    (hrel : Option.Rel TxKeeps c.tx c'.tx) : TxSound H c' := by
  constructor
  · intro t' ht'
    obtain ⟨t, ht, -⟩ := rel_some_right hrel ht'
    exact hset ht
  · intro hlive t' ht' f hf
    obtain ⟨t, ht, hkeep⟩ := rel_some_right hrel ht'
    rw [hkeep.transId]
    rw [hkeep.files] at hf
    exact (h.files (halive hlive) t ht f hf).later (List.Subset.refl H) (hlater ht)
  · intro hlive t' ht' hdone
    obtain ⟨t, ht, hkeep⟩ := rel_some_right hrel ht'
    rw [hkeep.transId]
    rw [hkeep.doneReceived] at hdone
    exact (h.done (halive hlive) t ht hdone).mono (List.Subset.refl H) (hlater ht).events
  · intro pre post n m hsplit
    have hnot : (n, DcEvent.result true true m) ∉ es := fun hmem => hes _ hmem m rfl
    obtain ⟨post', hold⟩ := (split_append (hevents.symm.trans hsplit)).resolve_right <| by
      rintro ⟨mid, -, hmid⟩
      exact hnot (hmid ▸ List.mem_append_right mid List.mem_cons_self)
    obtain ⟨t, ht, hphase, hn, hdelivered⟩ := h.told pre post' n m hold
    obtain ⟨t', ht', hkeep⟩ := rel_some_left hrel ht
    refine ⟨t', ht', ?_, ?_, ?_⟩
    · rcases hkeep.phase with hsame | ⟨-, hlive⟩ | ⟨-, hsend⟩
      · exact hsame.trans hphase
      · rw [hphase] at hlive
        cases hlive
      · rw [hphase] at hsend
        cases hsend
    · rw [hout, List.length_append]
      exact hn.trans (Nat.le_add_right _ _)
    · rw [hout, List.take_append_of_le_length hn, (hlater ht).blockSize]
      exact ⟨hkeep.files ▸ hkeep.transId ▸ hdelivered.blocks,
        hkeep.files ▸ hkeep.transId ▸ hdelivered.acked,
        hkeep.transId ▸ hdelivered.done⟩

/-- What stands behind the report when the DONE_ACK goes out. -/
theorem TxSound.delivery {t : DCTrans} (hbase : DcBase c) (h : TxSound H c)
    (hlive : c.crash = none) (ht : c.tx = some t) (hreceived : t.doneReceived = true)
    (hacked : txAllAcked t = true) (hlater : DcLater c c') :
    Delivered H c.events c'.out c'.blockSize t := by
  have hfiles := h.files hlive t ht
  have hall : ∀ g ∈ t.files, g.ackedAll = true := by
    intro g hg
    exact List.all_eq_true.mp hacked g hg
  have hfile := fun g hg => (hfiles g hg).later (List.Subset.refl H) hlater
  have hacks : ∀ g ∈ t.files, g.size ⌈/⌉ c'.blockSize = 0 ∨
      AckedIn H c.events c'.out t.transId c'.blockSize g := by
    intro g hg
    rcases (hfiles g hg).acked (hall g hg) with hzero | hack
    · left
      rw [← (hfile g hg).total, hzero]
    · right
      rw [hlater.blockSize]
      exact hack.mono (List.Subset.refl H) (List.prefix_refl _) hlater.out
  have hblock : 0 < c'.blockSize := by
    rw [hlater.blockSize]
    exact Nat.pos_of_ne_zero (hbase.block (h.set t ht))
  constructor
  · intro g hg
    rcases hacks g hg with hzero | hack
    · rw [hzero]
      intro seq hseq
      exact absurd hseq (Nat.not_lt_zero seq)
    · exact hack.sent
  · intro g hg hne
    exact (hacks g hg).resolve_left fun hzero => hne (ceilDiv_eq_zero hblock hzero)
  · exact h.done hlive t ht hreceived

theorem TxSound.move (hbase : DcBase c) (h : TxSound H c)
    (hm : DcMove sha256Hex env True fr c c') (hmove : DcTxMove env c c') : TxSound H c' := by
  have hlater : ∀ {t}, c.tx = some t → DcLater c c' := fun ht => hmove.later hm (h.set _ ht)
  have hset : ∀ {t}, c.tx = some t → c'.negotiated = true :=
    fun ht => (hm.blockSize_kept (h.set _ ht)).2
  have halive := hm.alive hbase
  have hsending : ∀ {p : DCPhase}, p = .txSending ∨ p = .txWaitDone → p ≠ .txDone := by
    rintro p (rfl | rfl) <;> decide
  cases hmove with
  | kept ws es hout _ hevents hes hrel => exact h.kept hlater hset halive hout hevents hes hrel
  | @dropped t ht hphase hout hevents htx' =>
      have hgone : ∀ u, c'.tx ≠ some u := by
        rw [htx']
        rintro u ⟨⟩
      constructor
      · exact fun u hu => absurd hu (hgone u)
      · exact fun _ u hu => absurd hu (hgone u)
      · exact fun _ u hu => absurd hu (hgone u)
      · intro pre post n m hsplit
        exact absurd (hevents ▸ hsplit)
          (h.not_told_of ht (by rw [hphase]; decide) pre post n m)
  | armed ht hphase hout hevents htx' =>
      refine h.next ht (by rw [hphase]; decide) htx' rfl (hset ht) halive hevents ?_ ?_
      · intro hlive f hf
        exact (h.files hlive _ ht f hf).later (List.Subset.refl H) (hlater ht)
      · intro hlive hreceived
        exact h.done hlive _ ht hreceived
  | cut ht hphase _ _ hout hevents htx' =>
      refine h.next ht (hsending hphase) (htx'.trans ht) rfl (hset ht) halive hevents ?_ ?_
      · intro hlive f hf
        exact (h.files hlive _ ht f hf).later (List.Subset.refl H) (hlater ht)
      · intro hlive hreceived
        exact h.done hlive _ ht hreceived
  | @newBlock t pre post file f ht hphase hfiles hmore hblock _ hout hevents htx' =>
      refine h.next ht (hsending hphase) htx' rfl (hset ht) halive hevents ?_ ?_
      · intro hlive
        have hall := fun g hg => (h.files hlive t ht g hg).later (List.Subset.refl H) (hlater ht)
        have hfile := h.files hlive t ht file (by rw [hfiles]; simp)
        rw [hfiles] at hall
        exact forall_exchanged hall (hfile.newBlock hmore hblock (hlater ht) hout)
      · intro hlive hreceived
        exact h.done hlive t ht hreceived
  | @retran t pre post file seq retrans f ht hphase hfiles _ _ _ hout hevents htx' =>
      refine h.next ht (hsending hphase) htx' rfl (hset ht) halive hevents ?_ ?_
      · intro hlive
        have hall := fun g hg => (h.files hlive t ht g hg).later (List.Subset.refl H) (hlater ht)
        rw [hfiles] at hall
        have hold := hall file (by simp)
        exact forall_exchanged hall ⟨hold.total, hold.fits, hold.sent, hold.acked⟩
      · intro hlive hreceived
        exact h.done hlive t ht hreceived
  | @finish t f m ht hnot _ hreceived hacked _ hopen hout hevents htx' =>
      have hlive := (DFileConn.stopped_eq_false hopen).1
      constructor
      · intro _ _
        exact hset ht
      · rintro - u hu g hg
        rw [htx'] at hu
        cases hu
        exact (h.files hlive t ht g hg).later (List.Subset.refl H) (hlater ht)
      · rintro - u hu hdone
        rw [htx'] at hu
        cases hu
        exact (h.done hlive t ht hdone).mono (List.Subset.refl H) (hlater ht).events
      · intro pre post n m' hsplit
        rw [hevents] at hsplit
        -- the delivery is the one of this move
        obtain ⟨rfl, heq⟩ : pre = c.events ∧
            (n, DcEvent.result true true m') = (c'.out.length, .result true true m) := by
          rcases split_append hsplit with ⟨post', hold⟩ | ⟨mid, hpre, hlast⟩
          · exact absurd hold (h.not_told_of ht hnot pre post' n m')
          · rcases List.append_eq_singleton_iff.mp hlast.symm with ⟨rfl, hx⟩ | ⟨-, hx⟩
            · exact ⟨hpre.trans (List.append_nil _), (List.cons.inj hx).1⟩
            · cases hx
        obtain ⟨rfl, -⟩ := Prod.mk.inj heq
        have hdelivered := h.delivery hbase hlive ht hreceived hacked (hlater ht)
        refine ⟨_, htx', rfl, Nat.le_refl _, ?_⟩
        rw [List.take_length]
        exact ⟨hdelivered.blocks, hdelivered.acked, hdelivered.done⟩

/-- A transfer starts with nothing sent. -/
theorem TxSound.start {items : List DFileSendItem} (hbase : DcBase c) (h : TxSound H c)
    (hopen : c.stopped = false) (hfit : filesFit env items c = true)
    (hs : DcStarts env items c c') : TxSound H c' := by
  have hlive := (DFileConn.stopped_eq_false hopen).1
  have hnone : c.tx = none → ∀ pre post n m,
      c.events ≠ pre ++ (n, .result true true m) :: post := by
    intro htx
    apply h.not_told
    rintro t ht
    rw [htx] at ht
    cases ht
  rcases hs with ⟨nextTransId, crash, rfl⟩ |
    ⟨nextTransId, ws, tx, crash, rfl, -, hready, htx, hgone⟩ |
    ⟨files, frames, t, hready, htx, -, -, hfiles, ht, -, -, rfl⟩
  · refine ⟨h.set, fun _ t ht f hf => ?_, fun _ => h.done hlive, h.told⟩
    exact (h.files hlive t ht f hf).later (List.Subset.refl H)
      ⟨List.prefix_refl _, List.prefix_refl _, rfl⟩
  · constructor
    · intro _ _
      exact hbase.ready hready
    · rintro halive t ht
      rw [hgone halive] at ht
      cases ht
    · rintro halive t ht
      rw [hgone halive] at ht
      cases ht
    · intro pre post n m hevents
      exact absurd hevents (hnone htx pre post n m)
  · have hset := hbase.ready hready
    have hblock := Nat.pos_of_ne_zero (hbase.block hset)
    constructor
    · intro _ _
      exact hset
    · rintro - u ⟨⟩ f hf
      rw [ht] at hf
      obtain ⟨j, item, hitem, hj⟩ := txOpenFiles_mem items hfiles f hf
      refine FileSound.opened hblock rfl ?_ hj
      intro size hsize
      have hall := List.all_eq_true.mp hfit item hitem
      rw [hsize] at hall
      exact of_decide_eq_true hall
    · rintro - u ⟨⟩ hdone
      rw [ht] at hdone
      cases hdone
    · intro pre post n m hevents
      exact absurd hevents (hnone htx pre post n m)

/-- An ACK counts for a file whose last block has been sent. -/
theorem TxSound.ack {frame : Bytes} {t : DCTrans} {a : DFileAck} (h : TxSound H c)
    (hopen : c.stopped = false) (hhandled : HandledIn H c frame)
    (hok : ackAhead c frame = false) (ht : c.tx = some t)
    (hphase : t.phase = .txSending ∨ t.phase = .txWaitDone)
    (ha : dfileDecodeAck frame = some a) (hid : a.transId = t.transId) :
    TxSound H { c with tx := some { t with files := a.entries.foldl ackEntry t.files } } := by
  have hlive := (DFileConn.stopped_eq_false hopen).1
  have hnot : t.phase ≠ .txDone := by
    rcases hphase with hp | hp <;> rw [hp] <;> decide
  refine h.next ht hnot rfl rfl (h.set t ht) id rfl ?_ (fun _ => h.done hlive t ht)
  intro _ f hf
  obtain ⟨f₀, hf₀, hack⟩ := foldl_ackEntry_mem a.entries hf
  have hold := h.files hlive t ht f₀ hf₀
  constructor
  · rw [hack.total, hack.size]
    exact hold.total
  · rw [hack.total]
    exact hold.fits
  · rw [hack.next]
    exact hold.sent.congr hack.fileId hack.size
  · intro hall
    rcases hack.acked hall with hall | ⟨e, he, heid, hseq, htotal⟩
    · refine (hold.acked hall).imp (fun hzero => hack.total.trans hzero) fun hin => ?_
      exact hin.congr hack.fileId hack.size
    · rcases htotal with hzero | htotal
      · exact Or.inl (hack.total.trans hzero)
      right
      -- the condition on the ACK: the last block was out
      have hlast : f₀.totalBlocks ≤ f₀.nextSeq := by
        by_contra hmore
        rw [Nat.not_le] at hmore
        have hahead : ackAhead c frame = true := by
          simp only [ackAhead, ht, ha, Option.any_some, Bool.and_eq_true, decide_eq_true_eq,
            List.any_eq_true]
          exact ⟨hphase, hid, e, he, hseq, f₀, hf₀, heid.symm, hmore, htotal⟩
        rw [hok] at hahead
        cases hahead
      obtain ⟨env, hd⟩ := hhandled
      rw [hold.total] at htotal hlast
      refine AckedIn.congr ⟨_, hd, List.prefix_refl _, List.prefix_refl _,
        ⟨a, ha, hid, e, he, heid, htotal⟩, ?_⟩ hack.fileId hack.size
      intro seq hlt
      exact hold.sent seq (Nat.lt_of_lt_of_le hlt hlast)

/-- Confirm and request only count. -/
theorem TxSound.ctrl {t : DCTrans} {type : DFileFrameType} {ids : List UInt16} (h : TxSound H c)
    (hopen : c.stopped = false) (ht : c.tx = some t) (hphase : t.phase = .txWaitConfirmReq) :
    TxSound H { c with tx := some (txCtrlUpdate env type ids t) } := by
  have hlive := (DFileConn.stopped_eq_false hopen).1
  have hctrl := txCtrlUpdate_of env type ids t
  refine h.next ht (by rw [hphase]; decide) rfl hctrl.transId (h.set t ht) id rfl ?_ ?_
  · intro _ f hf
    obtain ⟨f₀, hf₀, hsame⟩ := hctrl.files f hf
    have hold := h.files hlive t ht f₀ hf₀
    rcases hsame with rfl | ⟨rfl, -, -⟩
    · exact hold.later (List.Subset.refl H) ⟨List.prefix_refl _, List.prefix_refl _, rfl⟩
    · exact ⟨hold.total, hold.fits, hold.sent, hold.acked⟩
  · intro _ hdone
    rw [hctrl.doneReceived] at hdone
    exact h.done hlive t ht hdone

/-- A DONE frame counts, whenever it comes. -/
theorem TxSound.doneReceived {frame : Bytes} {t : DCTrans} {l : DFileIdlist} {phase : DCPhase}
    (h : TxSound H c) (hopen : c.stopped = false) (hhandled : HandledIn H c frame)
    (ht : c.tx = some t) (hphase : t.phase ≠ .txDone)
    (hl : dfileDecodeIdlist frame .fileTransferDone = some l) (hid : l.transId = t.transId) :
    TxSound H { c with tx := some { t with doneReceived := true, phase := phase } } := by
  have hlive := (DFileConn.stopped_eq_false hopen).1
  refine h.next ht hphase rfl rfl (h.set t ht) id rfl ?_ ?_
  · intro _ f hf
    exact (h.files hlive t ht f hf).later (List.Subset.refl H)
      ⟨List.prefix_refl _, List.prefix_refl _, rfl⟩
  · intro _ _
    obtain ⟨env, hd⟩ := hhandled
    exact ⟨_, hd, List.prefix_refl _, l, hl, hid⟩

variable (sha256Hex) in
theorem txSound_kept :
    TxKept sha256Hex TxSound (fun env items c => filesFit env items c = true)
      fun c frame => ackAhead c frame = false := by
  constructor
  · intro H H' c hH h
    exact h.mono hH
  · intro H env items c c' hbase h hopen hfit hs
    exact h.start hbase hopen hfit hs
  · intro H env fr c c' hbase h hm hmove
    exact h.move hbase hm hmove
  · intro H env frame c t type l h hopen _ ht hphase _ _ _
    exact h.ctrl hopen ht hphase
  · intro H frame c t a h hopen hhandled hok ht hphase ha hid
    exact h.ack hopen hhandled hok ht hphase ha hid
  · intro H frame c t l h hopen hhandled ht _ hdone hl hid
    exact h.doneReceived hopen hhandled ht hdone hl hid

theorem dcAlloc_txSound (now : UInt64) (recvDir : Option Bytes) :
    TxSound [] (dcAlloc now recvDir) where
  set := by rintro t ⟨⟩
  files := by rintro - t ⟨⟩
  done := by rintro - t ⟨⟩
  told pre post n m h := by
    have hnil : ([] : List (ℕ × DcEvent)) = pre ++ (n, .result true true m) :: post := h
    simp at hnil

/-- **What a reported delivery means.** As long as no ACK runs ahead of the blocks, and the
block numbers fit, whatever else the peer sends. -/
theorem DFileConn.delivered {now : UInt64} {recvDir : Option Bytes} {es : List DcEv}
    {c : DFileConn}
    (hok : Meets (DFileConn.step sha256Hex) DcHonest (dcAlloc now recvDir) es)
    (hrun : run (DFileConn.step sha256Hex) (dcAlloc now recvDir) es = some c)
    {pre post : List (ℕ × DcEvent)} {n : ℕ} {m : String}
    (htold : c.events = pre ++ (n, .result true true m) :: post) :
    ∃ t, c.tx = some t ∧
      Delivered ((dcAlloc now recvDir).dispatches sha256Hex es) pre (c.out.take n) c.blockSize
        t := by
  have h := DFileConn.run_keeps_tx (txSound_kept sha256Hex) es
    ⟨dcAlloc_base now recvDir, dcAlloc_txSound now recvDir⟩ (dcAlloc_sound now recvDir) hok hrun
  rw [List.nil_append] at h
  obtain ⟨t, ht, -, -, hdelivered⟩ := h.told pre post n m htold
  exact ⟨t, ht, hdelivered⟩

end

/-! ### An ACK before the data -/

/-- The peer's frames for the one-byte file. -/
def oneByteCtrl (type : DFileFrameType) : Bytes :=
  (dfileEncodeIdlist dcIdlistCap type 0 1 [1]).getD []

def oneByteAck : Bytes :=
  (dfileEncodeAck (dfileFrameHeaderLen + 12 + 37 * dfileMaxAckEntries) false 1 0
    [⟨1, 0, 0, 0⟩]).getD []

/-- Send the one-byte file, with or without a tick before its ACK. -/
def sendOneByte (ticks : List DcEv) : List DcEv :=
  let env := oneByteEnv 0 fun _ => dcTakesAll
  .start env :: .read env dcPeerSetting :: .sendFiles env [oneByteItem] ::
    .read env (oneByteCtrl .fileHeaderConfirm ++ oneByteCtrl .fileTransferReq) ::
      (ticks ++ [.read env (oneByteAck ++ oneByteCtrl .fileTransferDone)])

/-- `DcHonest`, to be tested. -/
def dcHonestTest (c : DFileConn) (e : DcEv) : Bool :=
  (match e with
    | .sendFiles env items => filesFit env items c
    | _ => true) &&
    (e.dispatches c).all fun d => !ackAhead d.1 d.2.2

theorem dcHonest_of_test {c : DFileConn} {e : DcEv} (h : dcHonestTest c e = true) :
    DcHonest c e := by
  obtain ⟨hfit, hacks⟩ := Bool.and_eq_true_iff.mp h
  constructor
  · rintro env items rfl
    exact hfit
  · intro d hd
    rw [← Bool.not_eq_true']
    exact List.all_eq_true.mp hacks d hd

/-- The callbacks after the one-byte file. -/
def oneByteTold (n : ℕ) : List (ℕ × DcEvent) :=
  [(1, .negotiated)] ++
    (n, .result true true "sent 1 file(s), 1 bytes (all acked, done+ack)") :: []

theorem DFileConn.delivered_sendOneByte :
    ∃ c, run (DFileConn.step id) (dcAlloc 0 none)
        (sendOneByte [.tick (oneByteEnv 0 fun _ => dcTakesAll)]) = some c ∧
      ∃ t, c.tx = some t ∧
        Delivered ((dcAlloc 0 none).dispatches id
          (sendOneByte [.tick (oneByteEnv 0 fun _ => dcTakesAll)])) [(1, .negotiated)]
          (c.out.take 5) c.blockSize t := by
  obtain ⟨c, hrun, htold⟩ := Option.map_eq_some_iff.mp (show
    (run (DFileConn.step id) (dcAlloc 0 none)
      (sendOneByte [.tick (oneByteEnv 0 fun _ => dcTakesAll)])).map (fun c => c.events) =
        some (oneByteTold 5) by decide +kernel)
  have hok : Meets (DFileConn.step id) DcHonest (dcAlloc 0 none)
      (sendOneByte [.tick (oneByteEnv 0 fun _ => dcTakesAll)]) :=
    meets_of_test (fun _ _ h => dcHonest_of_test h) _ (show
      meetsTest (DFileConn.step id) dcHonestTest (dcAlloc 0 none)
        (sendOneByte [.tick (oneByteEnv 0 fun _ => dcTakesAll)]) = true by decide +kernel)
  exact ⟨c, hrun, DFileConn.delivered hok hrun htold⟩

/-- **An ACK that runs ahead is taken for a delivery.** The peer confirms, requests,
acknowledges and ends in one go, and no block is ever sent. -/
theorem DFileConn.not_delivered :
    ¬ ∀ (sha256Hex : Bytes → Bytes) (now : UInt64) (recvDir : Option Bytes) (es : List DcEv)
        (c : DFileConn) (pre post : List (ℕ × DcEvent)) (n : ℕ) (m : String),
      run (DFileConn.step sha256Hex) (dcAlloc now recvDir) es = some c →
      c.events = pre ++ (n, .result true true m) :: post →
      ∃ t, c.tx = some t ∧
        Delivered ((dcAlloc now recvDir).dispatches sha256Hex es) pre (c.out.take n) c.blockSize
          t := by
  intro h
  obtain ⟨c, hrun, hfacts⟩ := Option.map_eq_some_iff.mp (show
    (run (DFileConn.step id) (dcAlloc 0 none) (sendOneByte [])).map (fun c =>
      (c.events, c.out.all fun w => (dfileDecodeData w).isNone,
        c.tx.map fun t => t.files.map fun f => dcTotalBlocks f.size c.blockSize)) =
        some (oneByteTold 3, true, some [1]) by decide +kernel)
  simp only [Prod.mk.injEq] at hfacts
  obtain ⟨htold, hnone, hfiles⟩ := hfacts
  obtain ⟨t, ht, hdelivered⟩ := h id 0 none _ c _ _ _ _ hrun htold
  rw [ht, Option.map_some, Option.some.injEq, List.map_eq_singleton_iff] at hfiles
  obtain ⟨f, hf, htotal⟩ := hfiles
  have hpos : 0 < f.size ⌈/⌉ c.blockSize := by
    rw [Nat.pos_iff_ne_zero]
    intro hzero
    rw [dcTotalBlocks_eq, hzero] at htotal
    cases htotal
  obtain ⟨w, hw, d, hd, -⟩ := hdelivered.blocks f (by rw [hf]; exact List.mem_cons_self) 0 hpos
  have hno := List.all_eq_true.mp hnone w (List.mem_of_mem_take hw)
  rw [hd] at hno
  cases hno

end HwPhoneLink.DFile
