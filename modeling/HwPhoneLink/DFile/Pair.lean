import HwPhoneLink.DFile.Report
import HwPhoneLink.Lib.Link

/-!
# Two connections

The two ends of a connection, each with its disk, joined by a byte stream each way. Bytes
arrive in any portions, and the events of the two sides come in any order.

What one side handles, the other has written (`DcPair.hears`), so a receiver copies the files
of the sender block by block, whatever else happens (`DcPair.copies`), and a delivery that
the sender reports has put every file on the disk of the receiver (`DcPair.reported_copied`).
-/

namespace HwPhoneLink.DFile

open BigEndian Path Framing Transitions HwPhoneLink.Testfile

/-! ## The frames of a stream -/

section
variable {sha256Hex : Bytes → Bytes}

/-- The frames that a connection handles are the first of its stream. -/
theorem DFileConn.handled_front (es : List DcEv) : ∀ {c c' : DFileConn}, dcCut c.rxbuf = none →
    run (DFileConn.step sha256Hex) c es = some c' →
      ((c.handled sha256Hex es).map fun d => d.2.2) <+:
        (parse dcCut (c.rxbuf ++ received es)).1 := by
  induction es with
  | nil => exact fun _ _ => List.nil_prefix
  | cons e es ih =>
      intro c c' hnone hrun
      obtain ⟨c₁, hs, hrest⟩ := run_cons_eq_some hrun
      have hreceived : received (e :: es) = e.chunk ++ received es := List.flatten_cons
      rw [DFileConn.handled_cons hs, List.map_append, hreceived, ← List.append_assoc]
      by_cases hread : ∃ env chunk, e = .read env chunk
      · obtain ⟨env, chunk, rfl⟩ := hread
        obtain rfl := DFileConn.step_read hs
        obtain ⟨hfront, hall⟩ := dispatched_parse dcCut_stable (dcHandle_frames env)
          (c.rxbuf ++ chunk).length (s := c) (Nat.le_refl _)
        have hhere : ((DcEv.read env chunk).dispatches c).filter (fun d => !d.2.2.isEmpty) =
            (dcFrames env chunk c).map fun d => (d.1, env, d.2) := dispatches_read env chunk c
        have hmap : (((dcFrames env chunk c).map fun d => (d.1, env, d.2)).map fun d => d.2.2) =
            (dcFrames env chunk c).map Prod.snd := List.map_map ..
        rw [hhere, hmap]
        rcases hopen : (dcRead env chunk c).stopped with _ | _
        · obtain ⟨hframes, hbuf⟩ := hall hopen
          have hends := drain_ends dcCut_stable (dcHandle_frames env) (c.rxbuf ++ chunk).length
            (s := c) (Nat.le_refl _) dcCut_nil
          have hnone₁ : dcCut (dcRead env chunk c).rxbuf = none := by
            refine hends.resolve_left fun hstop => ?_
            have hsame : (dcRead env chunk c).stopped = true := hstop
            rw [hopen] at hsame
            cases hsame
          have hrxbuf : (dcRead env chunk c).rxbuf = (parse dcCut (c.rxbuf ++ chunk)).2 := hbuf
          have hnext := ih hnone₁ hrest
          rw [hrxbuf] at hnext
          rw [parse_append dcCut_stable]
          exact hframes ▸ (List.prefix_append_right_inj _).mpr hnext
        · -- nothing happens on a connection that has stopped
          have hnil : es = [] := by
            cases es with
            | nil => rfl
            | cons e' es' =>
                obtain ⟨c₂, hs₂, -⟩ := run_cons_eq_some hrest
                have hcontra := DFileConn.step_open hs₂
                rw [hopen] at hcontra
                cases hcontra
          rw [hnil]
          show (dcFrames env chunk c).map Prod.snd ++ [] <+: _
          rw [List.append_nil]
          exact hfront.trans (parse_front dcCut_stable (List.prefix_append _ _))
      · obtain ⟨hbuf, hno, hchunk⟩ := DFileConn.step_quiet hs fun env chunk h =>
          hread ⟨env, chunk, h⟩
        rw [hno, hchunk, List.append_nil, ← hbuf]
        exact ih (hbuf ▸ hnone) hrest

end

theorem dcCut_frame {type : DFileFrameType} {f : Bytes} (h : IsFrameOf type f) :
    dcCut f = some f.length := by
  obtain ⟨flag, transId, p, rfl, hp⟩ := h
  have hwhole : ¬ (frame type flag transId p).length <
      dfileFrameHeaderLen + (UInt16.ofNat p.length).toNat := by
    rw [frame_length, hp.toNat]
    exact Nat.lt_irrefl _
  rw [dcCut, dfileFrameHeaderUnpack_single _ _ _ hp]
  simp only [if_neg hwhole]
  rw [frame_length, hp.toNat]

/-- A frame that is cut off is not cut from the buffer. -/
theorem dcCut_piece {type : DFileFrameType} {f p : Bytes} (h : IsFrameOf type f) (hp : p <+: f)
    (hne : p ≠ f) : dcCut p = none := by
  rcases hcut : dcCut p with _ | k
  · rfl
  · obtain ⟨more, rfl⟩ := hp
    have hle := dcCut_stable.le hcut
    have hsame := dcCut_stable.more hcut more
    rw [dcCut_frame h, Option.some.injEq, List.length_append] at hsame
    have hnil : more = [] := List.length_eq_zero_iff.mp (by omega)
    rw [hnil, List.append_nil] at hne
    exact absurd rfl hne

/-- What a reader finds in the bytes that were written are the writes. -/
theorem WellWritten.parsed {out : List Bytes} (h : WellWritten out) :
    ∀ f ∈ (parse dcCut out.flatten).1, f ∈ out := by
  obtain ⟨frames, last, hsplit, hframes, hlast⟩ := h
  have hmem : ∀ f, f ∈ frames ++ last → f ∈ out := fun f hf =>
    List.mem_of_mem_filter (hsplit ▸ hf)
  have hflat : out.flatten = frames.flatten ++ last.flatten := by
    rw [← List.flatten_append, ← hsplit, List.flatten_filter_not_isEmpty]
  have hcut : ∀ f ∈ frames, f ≠ [] ∧ dcCut f = some f.length := fun f hf => by
    obtain ⟨type, hf'⟩ := hframes f hf
    exact ⟨hf'.ne_nil, dcCut_frame hf'⟩
  rw [hflat, parse_frames dcCut_stable _ hcut]
  intro f hf
  rcases List.mem_append.mp hf with hf | hf
  · exact hmem f (List.mem_append_left _ hf)
  rcases hlast with rfl | ⟨type, g, p, hg, hp, rfl⟩
  · rw [List.flatten_nil, parse_stop (Or.inl dcCut_nil)] at hf
    cases hf
  rw [List.flatten_singleton] at hf
  by_cases hwhole : p = g
  · subst hwhole
    have hone : (parse dcCut ([p].flatten ++ [])).1 = [p] ++ (parse dcCut []).1 :=
      parse_frames dcCut_stable [] fun f hf => by
        rw [List.mem_singleton.mp hf]
        exact ⟨hg.ne_nil, dcCut_frame hg⟩
    rw [List.flatten_singleton, List.append_nil, parse_stop (Or.inl dcCut_nil),
      List.append_nil] at hone
    rw [hone, List.mem_singleton] at hf
    exact hmem f (List.mem_append_right _ (List.mem_singleton.mpr hf))
  · rw [parse_stop (Or.inl (dcCut_piece hg hp hwhole))] at hf
    cases hf

/-! ## What a receiver has of a file -/

/-- The first `n` blocks of some bytes, each with its place. -/
def blocksOf (blockSize : ℕ) (bytes : Bytes) (n : ℕ) : List (ℕ × Bytes) :=
  (List.range n).map fun seq => (seq * blockSize, (bytes.drop (seq * blockSize)).take blockSize)

/-- `g` is what has come of the file `f`: its first blocks, in order. -/
structure CopyOf (content : Bytes → Bytes) (blockSize : ℕ) (f g : DCFile) : Prop where
  listed : g.listed = f.listed
  copy : ∃ path, f.fd = some path ∧ f.size = (content path).length ∧
    g.writes = blocksOf blockSize (content path) g.expectedSeq ∧
    g.sha = (content path).take (g.expectedSeq * blockSize) ∧
    (g.writeComplete = true → g.sha = content path)

theorem blocksOf_flatten (blockSize : ℕ) (bytes : Bytes) (n : ℕ) :
    ((blocksOf blockSize bytes n).map Prod.snd).flatten = bytes.take (n * blockSize) := by
  induction n with
  | zero => simp [blocksOf]
  | succ n ih =>
      have hlast : blocksOf blockSize bytes (n + 1) = blocksOf blockSize bytes n ++
          [(n * blockSize, (bytes.drop (n * blockSize)).take blockSize)] := by
        rw [blocksOf, List.range_succ, List.map_append]
        rfl
      rw [hlast, List.map_append, List.flatten_append, ih, List.map_singleton,
        List.flatten_singleton, Nat.succ_mul, List.take_add]

section
variable {content : Bytes → Bytes} {Heard : Bytes → Prop} {blockSize : ℕ} {tx : Option DCTrans}
  {t : DCTrans}

/-- A call for a corrupt header says nothing. -/
theorem SourcePiece.nil : SourcePiece content blockSize tx [] where
  setting _ hs := by cases hs
  header _ _ _ hx := by cases hx
  data _ hd := by cases hd

/-- A peer that runs the same program takes the default block size. -/
theorem RxWritten.blockSize_default {c : DFileConn} (h : RxWritten Heard c)
    (hheard : ∀ w, Heard w → SourcePiece content blockSize tx w) (hset : c.negotiated = true) :
    c.blockSize = dfileDefaultFrameSize := by
  obtain ⟨w, s, hw, hs, hblock⟩ := h.setting hset
  rw [hblock, (hheard w hw).setting s hs]

/-- A block within the largest file has a number of 32 bits. -/
theorem seq_lt_of_block {size seq : ℕ} (hsize : size ≤ dfileMaxFileSize)
    (hlen : 0 < dcBlockLen size dfileDefaultFrameSize seq) : seq < 2 ^ 32 := by
  rw [dcBlockLen, dfileDefaultFrameSize] at hlen
  rw [dfileMaxFileSize] at hsize
  by_contra hlarge
  have hpos : 0 < size - seq * 1472 := (Nat.lt_min.mp hlen).1
  omega

/-- The block that was heard is the one of the file. -/
theorem SentBlock.payload_eq {f : DCFile} {d : DFileData}
    (h : SentBlock content dfileDefaultFrameSize t d)
    (hids : (t.files.map fun f => f.fileId).Nodup) (hf : f ∈ t.files) (hid : d.fileId = f.fileId)
    (hsource : SourceFile content f)
    (hlen : 0 < dcBlockLen f.size dfileDefaultFrameSize d.blockSeq.toNat)
    (hpayload : d.payload.length = dcBlockLen f.size dfileDefaultFrameSize d.blockSeq.toNat) :
    ∃ path, f.fd = some path ∧ f.size = (content path).length ∧
      d.payload = ((content path).drop (d.blockSeq.toNat * dfileDefaultFrameSize)).take
        dfileDefaultFrameSize := by
  obtain ⟨-, f', hf', hid', path, seq, hpath, hseq, hlen', hread⟩ := h
  obtain rfl : f = f' := List.inj_on_of_nodup_map hids hf hf' (hid.symm.trans hid')
  obtain ⟨path', hpath', hsize⟩ := hsource.file
  obtain rfl : path = path' := Option.some.inj (hpath.symm.trans hpath')
  have hnum : d.blockSeq.toNat = seq := by
    have hsmall : seq < 2 ^ 32 := by
      apply seq_lt_of_block hsource.size_le
      rw [← hlen', hpayload]
      exact hlen
    rw [hseq, UInt32.toNat_ofNat', Nat.mod_eq_of_lt hsmall]
  refine ⟨path, hpath, hsize, ?_⟩
  rw [hnum]
  rw [List.prefix_iff_eq_take] at hread
  rw [hread, hlen', dcBlockLen, hsize, Nat.min_comm, ← List.take_take, ← List.length_drop,
    List.take_length]

/-- **A file of the receiver is a copy.** -/
theorem RxWritten.copy {c : DFileConn} {u : DCTrans} {g : DCFile} (h : RxWritten Heard c)
    (hheard : ∀ w, Heard w → SourcePiece content dfileDefaultFrameSize (some t) w)
    (hids : (t.files.map fun f => f.fileId).Nodup)
    (hsource : ∀ f ∈ t.files, SourceFile content f) (hu : c.rx = some u) (hg : g ∈ u.files) :
    u.transId = t.transId ∧ u.nodeNumber = UInt16.ofNat t.files.length ∧
      ∃ f ∈ t.files, CopyOf content dfileDefaultFrameSize f g := by
  have hset : c.negotiated = true := h.opened u hu (List.ne_nil_of_mem hg)
  have hblock := h.blockSize_default hheard hset
  have hfile := h.files u hu g hg
  rw [hblock] at hfile
  -- the entry of the file has been announced
  have hentry : g.headerEntry ∈ u.hdr := (h.entries u hu).subset (List.mem_map_of_mem hg)
  obtain ⟨w, x, hw, hx, hid, hnode, hmem⟩ := h.hdr u hu _ hentry
  obtain ⟨hid', hnode', hlisted⟩ := (hheard w hw).header t x rfl hx
  obtain ⟨f, hf, hfentry⟩ := List.mem_map.mp (hlisted _ hmem)
  have hfsource := hsource f hf
  have hfileId : f.fileId = g.fileId := congrArg DFileHeaderEntry.fileId hfentry
  have hname : f.name = g.name := congrArg DFileHeaderEntry.name hfentry
  have hsize : f.size = g.size := by
    have hword := congrArg (fun e => e.fileSize.toNat) hfentry
    have hlt : f.size < 2 ^ 64 :=
      Nat.lt_of_le_of_lt hfsource.size_le (by rw [dfileMaxFileSize]; decide)
    simp only [DCFile.headerEntry, UInt64.toNat_ofNat', Nat.mod_eq_of_lt hlt,
      Nat.mod_eq_of_lt hfile.size] at hword
    exact hword
  refine ⟨hid.symm.trans hid', hnode.symm.trans hnode', f, hf, ?_, ?_⟩
  · rw [DCFile.listed, DCFile.listed, hfileId, hsize, hname]
  obtain ⟨path, hpath, hlength⟩ := hfsource.file
  -- block by block
  have hwrites : g.writes = blocksOf dfileDefaultFrameSize (content path) g.expectedSeq := by
    apply List.ext_getElem?
    intro seq
    rcases hseq : g.writes[seq]? with _ | ⟨off, p⟩
    · rw [List.getElem?_eq_none_iff, hfile.count] at hseq
      rw [eq_comm, List.getElem?_eq_none_iff, blocksOf, List.length_map, List.length_range]
      exact hseq
    · have hlt : seq < g.expectedSeq := by
        have := (List.getElem?_eq_some_iff.mp hseq).1
        rwa [hfile.count] at this
      obtain ⟨hoff, hlen, w', d, hw', hd, hdid, hdfile, hdseq, rfl⟩ := hfile.block seq off p hseq
      obtain ⟨t', ht', -, hsent⟩ := (hheard w' hw').data d hd
      cases ht'
      have hstart : seq * dfileDefaultFrameSize < g.size :=
        dcTotalBlocks_start (hfile.total ▸ Nat.lt_of_lt_of_le hlt hfile.next)
      have hpos : 0 < dcBlockLen f.size dfileDefaultFrameSize d.blockSeq.toNat := by
        rw [hdseq, dcBlockLen, hsize]
        exact Nat.lt_min.mpr ⟨Nat.sub_pos_of_lt hstart, by decide⟩
      obtain ⟨path', hpath', -, hpayload⟩ := hsent.payload_eq hids hf (hdfile.trans hfileId.symm)
        hfsource hpos (by rw [hlen, hdseq, hsize])
      obtain rfl : path = path' := Option.some.inj (hpath.symm.trans hpath')
      rw [blocksOf, List.getElem?_map, List.getElem?_range hlt, Option.map_some, hoff, hpayload,
        hdseq]
  have hsha : g.sha = (content path).take (g.expectedSeq * dfileDefaultFrameSize) := by
    rw [hfile.sha, hwrites, blocksOf_flatten]
  refine ⟨path, hpath, hlength, hwrites, hsha, fun hcomplete => ?_⟩
  rw [hsha, List.take_of_length_le]
  -- all blocks are there
  have hall := hfile.complete.mp hcomplete
  have htotal : dcTotalBlocks g.size dfileDefaultFrameSize = g.size ⌈/⌉ dfileDefaultFrameSize := by
    rw [dcTotalBlocks_exact (by decide), ← hsize]
    exact hfsource.size_le.trans (by rw [dfileMaxFileSize, dfileDefaultFrameSize]; decide)
  rw [hall, hfile.total, htotal, ← hlength, hsize, Nat.mul_comm,
    ← ceilDiv_le_iff_le_mul (by decide)]

end

/-! ## The two ends -/

section
variable {ι : Type*} [DecidableEq ι] (os : Os ι) (sha256Hex : Bytes → Bytes)

/-- The bytes that an event receives. -/
def FdEv.chunk : FdEv → Bytes
  | .event e => e.chunk
  | .teardown => []

/-- The event, if it is one of the engine. -/
def FdEv.engine : FdEv → Option DcEv
  | .event e => some e
  | .teardown => none

/-- One end: a connection with its descriptors and its disk. -/
def dcEnd : Endpoint (FdConn ι) FdEv where
  step := FdConn.step os sha256Hex
  out s := s.conn.out.flatten
  chunk := FdEv.chunk

end

/-- What is assumed of every event: no poll is interrupted in the middle of a frame, the files
that are sent do not change, no transfer is started after one whose list broke off, and no
two entries name one destination. -/
structure DcPairOk {ι : Type*} [DecidableEq ι] (os : Bool → Os ι) (content : Bool → Bytes → Bytes)
    (l : Link (FdConn ι)) (e : Bool × FdEv) : Prop where
  whole : ∀ ev, e.2 = .event ev → DcNeverCut (l.conn e.1).conn ev
  source : ∀ ev, e.2 = .event ev → DcSourceOk (content e.1) (l.conn e.1).conn ev
  distinct : e.2.every (rxDistinct (os e.1)) (l.conn e.1) = true

section
variable {ι : Type*} [DecidableEq ι] {os : Os ι} {sha256Hex : Bytes → Bytes}

/-- The engine is part of the connection. -/
theorem FdConn.projects :
    Projects (FdConn.step os sha256Hex) (DFileConn.step sha256Hex) FdConn.conn FdEv.engine where
  rests := by
    intro s e s' he hs
    cases e with
    | event e => cases he
    | teardown =>
        rw [FdConn.step] at hs
        split at hs
        · cases hs
          rfl
        · cases hs
  takes := by
    intro s e s' d he hs
    cases e with
    | event e =>
        cases he
        exact FdConn.step_conn hs
    | teardown => cases he

theorem heard_received (es : List FdEv) :
    Link.heard (dcEnd os sha256Hex) es = received (es.filterMap FdEv.engine) := by
  induction es with
  | nil => rfl
  | cons e es ih =>
      have hcons : Link.heard (dcEnd os sha256Hex) (e :: es) =
          e.chunk ++ Link.heard (dcEnd os sha256Hex) es := List.flatMap_cons
      rw [hcons, ih]
      cases e <;> rfl

/-- A step only adds to the writes. -/
theorem DFileConn.step_out {c c' : DFileConn} {e : DcEv} (hbase : DcBase c) (hsound : c.Sound)
    (hs : c.step sha256Hex e = some c') : (DcBase c' ∧ c.out <+: c'.out) ∧ c'.Sound := by
  refine DFileConn.step_keeps (fun d => DcBase d ∧ c.out <+: d.out) True (fun _ => True) ?_
    ⟨hbase, List.prefix_refl _⟩ hsound trivial (fun _ _ _ => trivial) hs
  rintro env fr d d' - ⟨hd, hout⟩ hm
  refine ⟨hm.base hd, hout.trans ?_⟩
  rcases hm.hands hd with hsame | ⟨f, -, hmore⟩
  · rw [hsame]
  · rw [hmore]
    exact List.prefix_append _ _

/-- The disk and the reports of a run. -/
theorem FdConn.run_disk {now : UInt64} {recvDir : Option Bytes} {disk : ι → Bytes}
    {es : List FdEv} {s : FdConn ι}
    (hok : Meets (FdConn.step os sha256Hex) (fun s e => e.every (rxDistinct os) s = true)
      (fdAlloc now recvDir disk) es)
    (hrun : run (FdConn.step os sha256Hex) (fdAlloc now recvDir disk) es = some s) :
    DiskInv os ⟨[], disk⟩ s ∧ RxReported s.conn := by
  refine run_inv (fun s => DiskInv os ⟨[], disk⟩ s ∧ RxReported s.conn) _ ?_
    ⟨fdAlloc_disk now recvDir disk, dcAlloc_reported now recvDir⟩ hok hrun
  rintro s e s' ⟨h, hreported⟩ hdistinct hs
  refine ⟨h.step hdistinct hs, ?_⟩
  rcases he : e.engine with _ | d
  · rw [FdConn.projects.rests he hs]
    exact hreported
  · exact (DFileConn.step_reported ⟨hreported, h.base.sound⟩
      (FdConn.projects.takes he hs)).1

/-- The writes of a run. -/
theorem DFileConn.run_written {now : UInt64} {recvDir : Option Bytes} {es : List DcEv}
    {c : DFileConn} (hok : Meets (DFileConn.step sha256Hex) DcNeverCut (dcAlloc now recvDir) es)
    (hrun : run (DFileConn.step sha256Hex) (dcAlloc now recvDir) es = some c) : DcWritten c := by
  have hinit : DcWritten (dcAlloc now recvDir) :=
    ⟨dcAlloc_base now recvDir, ⟨[], [], rfl, (by simp), Or.inl rfl⟩, fun _ _ hw => by cases hw⟩
  exact (run_inv (fun c => DcWritten c ∧ c.Sound) DcNeverCut
    (fun _ _ _ h hok hs => DFileConn.step_written h hok hs) ⟨hinit, dcAlloc_sound now recvDir⟩ hok
    hrun).1

theorem dcEnd_grows :
    (dcEnd os sha256Hex).Grows fun s => DcBase s.conn ∧ s.conn.Sound := by
  have hstep : ∀ {s s' : FdConn ι} {e : FdEv}, DcBase s.conn ∧ s.conn.Sound →
      FdConn.step os sha256Hex s e = some s' →
      (DcBase s'.conn ∧ s.conn.out <+: s'.conn.out) ∧ s'.conn.Sound := by
    intro s s' e h hs
    rcases he : e.engine with _ | d
    · rw [FdConn.projects.rests he hs]
      exact ⟨⟨h.1, List.prefix_refl _⟩, h.2⟩
    · exact DFileConn.step_out h.1 h.2 (FdConn.projects.takes he hs)
  constructor
  · intro s e s' h hs
    exact ⟨(hstep h hs).1.1, (hstep h hs).2⟩
  · intro s e s' h hs
    obtain ⟨ws, hout⟩ := (hstep h hs).1.2
    refine ⟨ws.flatten, ?_⟩
    show s.conn.out.flatten ++ ws.flatten = s'.conn.out.flatten
    rw [← List.flatten_append, hout]

end

/-! ## Every interleaving -/

/-- What holds of one end, given the frames that have come in. -/
structure DcEndSound (Heard : Bytes → Prop) (content : Bytes → Bytes) (c : DFileConn) : Prop where
  written : RxWritten Heard c
  source : DcSource content c
  rx : RxSound c
  told : TxTold Heard c

/-- The two ends before anything has happened. -/
def dcPairStart {ι : Type*} (now : Bool → UInt64) (recvDir : Bool → Option Bytes)
    (disk : Bool → ι → Bytes) : Link (FdConn ι) :=
  Link.start fun b => fdAlloc (now b) (recvDir b) (disk b)

/-- The two ends, run together. -/
abbrev dcPairStep {ι : Type*} [DecidableEq ι] (os : Bool → Os ι) (sha256Hex : Bytes → Bytes) :
    Link (FdConn ι) → Bool × FdEv → Option (Link (FdConn ι)) :=
  Link.step fun b => dcEnd (os b) sha256Hex

/-- A call of the handler on this side is for a frame that the other has written. -/
def WrittenBy (p : DFileConn) (w : Bytes) : Prop := w = [] ∨ w ∈ p.out

namespace DcPair

section
variable {ι : Type*} [DecidableEq ι] {os : Bool → Os ι} {sha256Hex : Bytes → Bytes}
  {content : Bool → Bytes → Bytes} {now : Bool → UInt64} {recvDir : Bool → Option Bytes}
  {disk : Bool → ι → Bytes} {es : List (Bool × FdEv)} {l : Link (FdConn ι)}

/-- The events of one engine. -/
def engineEvents (b : Bool) (es : List (Bool × FdEv)) : List DcEv :=
  (Link.own b es).filterMap FdEv.engine

section
variable (hrun : run (dcPairStep os sha256Hex) (dcPairStart now recvDir disk) es = some l)
include hrun

theorem engine_run (b : Bool) :
    run (DFileConn.step sha256Hex) (dcAlloc (now b) (recvDir b)) (engineEvents b es) =
      some (l.conn b).conn :=
  FdConn.projects.run _ (Link.run_own b hrun)

/-- The bytes that one side has received are the first of those that the other has written. -/
theorem received_front (b : Bool) :
    received (engineEvents b es) <+: (l.conn (!b)).conn.out.flatten := by
  have hstart : ∀ b, DcBase (fdAlloc (ι := ι) (now b) (recvDir b) (disk b)).conn ∧
      (fdAlloc (ι := ι) (now b) (recvDir b) (disk b)).conn.Sound := fun b =>
    ⟨dcAlloc_base _ _, dcAlloc_sound _ _⟩
  have hgrows : ∀ b, (dcEnd (os b) sha256Hex).Grows fun s => DcBase s.conn ∧ s.conn.Sound :=
    fun b => dcEnd_grows
  have h := Link.heard_front hgrows hstart hrun b
  rwa [heard_received] at h

variable (hok : Meets (dcPairStep os sha256Hex) (DcPairOk os content)
  (dcPairStart now recvDir disk) es)
include hok

theorem engine_meets {ok : DFileConn → DcEv → Prop} (b : Bool)
    (h : ∀ l ev, DcPairOk os content l (b, .event ev) → ok (l.conn b).conn ev) :
    Meets (DFileConn.step sha256Hex) ok (dcAlloc (now b) (recvDir b)) (engineEvents b es) := by
  have hown : Meets (FdConn.step (os b) sha256Hex)
      (fun s e => ∀ ev, e = .event ev → ok s.conn ev) _ (Link.own b es) :=
    Link.meets_own (P := fun b => dcEnd (os b) sha256Hex) b (by
      intro l e he ev hev
      subst hev
      exact h l ev he) hrun hok
  refine FdConn.projects.meets (fun s e ev he hev => he ev ?_) _ (Link.run_own b hrun) hown
  cases e with
  | event e =>
      cases hev
      rfl
  | teardown => cases hev

/-- **What one side handles, the other has written.** -/
theorem hears (b : Bool) :
    ∀ d ∈ (dcAlloc (now b) (recvDir b)).dispatches sha256Hex (engineEvents b es),
      WrittenBy (l.conn (!b)).conn d.2.2 := by
  intro d hd
  by_cases hnil : d.2.2 = []
  · exact Or.inl hnil
  right
  have hcut : Meets (DFileConn.step sha256Hex) DcNeverCut _ (engineEvents (!b) es) :=
    engine_meets hrun hok (!b) fun l ev he => he.whole ev rfl
  have hwritten := (DFileConn.run_written hcut (engine_run hrun (!b))).shape
  have hhandled := DFileConn.handled_front _ dcCut_nil (engine_run hrun b)
  have hstream := parse_front dcCut_stable (received_front hrun b)
  apply hwritten.parsed
  apply (hhandled.trans hstream).subset
  refine List.mem_map.mpr ⟨d, List.mem_filter.mpr ⟨hd, ?_⟩, rfl⟩
  rw [Bool.not_eq_true', List.isEmpty_eq_false_iff]
  exact hnil

/-- **Each end is sound**, given what the other has written. -/
theorem endSound (b : Bool) :
    DcEndSound (WrittenBy (l.conn (!b)).conn) (content b) (l.conn b).conn := by
  have hrunb := engine_run hrun b
  have hheard : Meets (DFileConn.step sha256Hex) (DcHears (WrittenBy (l.conn (!b)).conn)) _
      (engineEvents b es) := DFileConn.meets_dispatches _ hrunb (hears hrun hok b)
  have hsource : Meets (DFileConn.step sha256Hex) (DcSourceOk (content b)) _ (engineEvents b es) :=
    engine_meets hrun hok b fun l ev he => he.source ev rfl
  refine ⟨DFileConn.run_rxWritten hrunb hheard, (DFileConn.run_source hsource hrunb).2, ?_, ?_⟩
  · exact (run_inv_all (fun c => RxSound c ∧ c.Sound)
      (fun _ _ _ h hs => DFileConn.step_rxSound h hs)
      ⟨dcAlloc_rxSound _ _, dcAlloc_sound _ _⟩ hrunb).1
  · exact (run_inv (fun c => TxTold _ c ∧ c.Sound) _
      (fun _ _ _ h hok hs => DFileConn.step_txTold h hok hs)
      ⟨dcAlloc_txTold _ _, dcAlloc_sound _ _⟩ hheard hrunb).1

/-! ## What the two ends have -/

/-- A frame that the other end has written, about the transfer it sends. -/
theorem written_piece {t : DCTrans} (b : Bool) (ht : (l.conn (!b)).conn.tx = some t) :
    ∀ w, WrittenBy (l.conn (!b)).conn w →
      SourcePiece (content (!b)) dfileDefaultFrameSize (some t) w := by
  have hsource : DcSource (content (!b)) (l.conn (!b)).conn := (endSound hrun hok (!b)).source
  have hback := endSound hrun hok (!b)
  rw [Bool.not_not] at hback
  -- the end that we ask about sends settings too
  have hblock : (l.conn (!b)).conn.blockSize = dfileDefaultFrameSize := by
    have hset := hsource.set t ht
    obtain ⟨w, s, hw, hs, hblock⟩ := hback.written.setting hset
    rw [hblock]
    rcases hw with rfl | hw
    · cases hs
    · exact ((endSound hrun hok b).source.pieces w hw).setting s hs
  rintro w (rfl | hw)
  · exact .nil
  · rw [← hblock, ← ht]
    exact hsource.pieces w hw

/-- What has been received for a file is at the front of its destination, which has the size
of the file. -/
theorem on_disk (b : Bool) {u : DCTrans} {g : DCFile} (hu : (l.conn b).conn.rx = some u)
    (hg : g ∈ u.files) :
    g.sha <+: (l.conn b).fds.kernel.disk (destination (os b) (l.conn b).conn.recvDir g) ∧
      ((l.conn b).fds.kernel.disk (destination (os b) (l.conn b).conn.recvDir g)).length =
        g.size := by
  have hdistinct : Meets (FdConn.step (os b) sha256Hex)
      (fun s e => e.every (rxDistinct (os b)) s = true) _ (Link.own b es) :=
    Link.meets_own (P := fun b => dcEnd (os b) sha256Hex) b (fun _ _ he => he.distinct) hrun hok
  have hstores := (FdConn.run_disk hdistinct (Link.run_own b hrun)).1.stores
  have hmem : g.undigested ∈ (l.conn b).conn.rxFiles := by
    rw [DFileConn.rxFiles_of hu]
    exact List.mem_map_of_mem hg
  have hstored := hstores.stored g.undigested hmem
  exact ⟨hstored.front, hstored.size⟩

/-- **Every file of a receiver is a copy**, block by block, of a file that the other end sends,
and its destination begins with it. Until the first block has come, the other end may have
dropped the transfer. -/
theorem copies (b : Bool) {u : DCTrans} {g : DCFile} (hu : (l.conn b).conn.rx = some u)
    (hg : g ∈ u.files)
    (hsent : 0 < g.expectedSeq ∨ (l.conn (!b)).conn.tx.isSome = true) :
    ∃ t f, (l.conn (!b)).conn.tx = some t ∧ u.transId = t.transId ∧ f ∈ t.files ∧
      CopyOf (content (!b)) dfileDefaultFrameSize f g ∧
      g.sha <+: (l.conn b).fds.kernel.disk (destination (os b) (l.conn b).conn.recvDir g) ∧
      ((l.conn b).fds.kernel.disk (destination (os b) (l.conn b).conn.recvDir g)).length =
        f.size := by
  have hend := endSound hrun hok b
  have hother := endSound hrun hok (!b)
  have htx : ∃ t, (l.conn (!b)).conn.tx = some t := by
    rcases hsent with hpos | hsome
    · -- the first block has come in a data frame, and those are of a transfer
      have hfile := hend.written.files u hu g hg
      have hlt : 0 < g.writes.length := by rwa [hfile.count]
      obtain ⟨-, -, w, d, hw, hd, -⟩ :=
        hfile.block 0 _ _ (List.getElem?_eq_getElem hlt)
      rcases hw with rfl | hw
      · cases hd
      · obtain ⟨t, ht, -⟩ := (hother.source.pieces w hw).data d hd
        exact ⟨t, ht⟩
    · exact Option.isSome_iff_exists.mp hsome
  obtain ⟨t, ht⟩ := htx
  obtain ⟨hid, -, f, hf, hcopy⟩ := hend.written.copy (written_piece hrun hok b ht)
    (hother.source.ids t ht) (hother.source.files t ht) hu hg
  obtain ⟨hfront, hlength⟩ := on_disk hrun hok b hu hg
  refine ⟨t, f, ht, hid, hf, hcopy, hfront, hlength.trans ?_⟩
  exact congrArg (fun x => x.2.1) hcopy.listed

/-- What a receiver that has everything has. -/
theorem copies_all (b : Bool) {t u : DCTrans} (ht : (l.conn b).conn.tx = some t)
    (hu : (l.conn (!b)).conn.rx = some u) (hall : HasAll u) :
    ∀ f ∈ t.files, ∃ g ∈ u.files, CopyOf (content b) dfileDefaultFrameSize f g := by
  have hwritten := (endSound hrun hok (!b)).written
  have hsource := (endSound hrun hok b).source
  have hbase := (endSound hrun hok b).rx.base
  have hcopy : ∀ g ∈ u.files, u.nodeNumber = UInt16.ofNat t.files.length ∧
      ∃ f ∈ t.files, CopyOf (content b) dfileDefaultFrameSize f g := by
    intro g hg
    have hpiece := written_piece hrun hok (!b) (t := t) (by rw [Bool.not_not]; exact ht)
    rw [Bool.not_not] at hwritten hpiece
    exact (hwritten.copy hpiece (hsource.ids t ht) (hsource.files t ht) hu hg).2
  -- the receiver has as many files as the list names, with ids of the sender
  have hids : (u.files.map fun g => g.fileId).Nodup := by
    have h := hwritten.ids u hu
    rwa [← hall.confirmed.files, List.map_map] at h
  have hsub : ∀ id ∈ u.files.map fun g => g.fileId, id ∈ t.files.map fun f => f.fileId := by
    intro id hid
    obtain ⟨g, hg, rfl⟩ := List.mem_map.mp hid
    obtain ⟨-, f, hf, hc⟩ := hcopy g hg
    have heq : g.fileId = f.fileId := congrArg Prod.fst hc.listed
    exact heq ▸ List.mem_map_of_mem hf
  have hcount : t.files.length ≤ u.files.length := by
    obtain ⟨g, hg⟩ := List.exists_mem_of_ne_nil _ (rxComplete_iff.mp hall.complete).1
    have hfull := hall.confirmed.full
    rw [← hall.confirmed.files, List.length_map, (hcopy g hg).1, UInt16.toNat_ofNat',
      Nat.mod_eq_of_lt] at hfull
    · exact hfull
    · exact Nat.lt_of_le_of_lt (hbase.tx t ht).max (by decide)
  have hperm : (u.files.map fun g => g.fileId).Perm (t.files.map fun f => f.fileId) := by
    refine (List.subperm_of_subset hids hsub).perm_of_length_le ?_
    rw [List.length_map, List.length_map]
    exact hcount
  intro f hf
  obtain ⟨g, hg, hid⟩ := List.mem_map.mp (hperm.mem_iff.mpr (List.mem_map_of_mem hf))
  obtain ⟨-, f', hf', hc⟩ := hcopy g hg
  have heq : g.fileId = f'.fileId := congrArg Prod.fst hc.listed
  obtain rfl : f' = f := List.inj_on_of_nodup_map (hsource.ids t ht) hf' hf (heq.symm.trans hid)
  exact ⟨g, hg, hc⟩

/-- **A delivery that is reported has been made.** The receiver has a file for every file of
the transfer, and its destination has the bytes of that file. -/
theorem reported_copied (b : Bool) {n : ℕ} {m : String}
    (htold : (n, DcEvent.result true true m) ∈ (l.conn b).conn.events) :
    ∃ t u, (l.conn b).conn.tx = some t ∧ (l.conn (!b)).conn.rx = some u ∧
      u.transId = t.transId ∧ t.files ≠ [] ∧ ∀ f ∈ t.files, ∃ g ∈ u.files,
        g.listed = f.listed ∧ ∃ path, f.fd = some path ∧
          (l.conn (!b)).fds.kernel.disk
            (destination (os (!b)) (l.conn (!b)).conn.recvDir g) = content b path := by
  have hend := endSound hrun hok b
  obtain ⟨t, ht, -, hdone⟩ := hend.told.told n m htold
  obtain ⟨w, ids, hw, hids, hid⟩ := hend.told.done t ht hdone
  -- the receiver has written the DONE frame
  obtain ⟨u, hu, hid', hall⟩ : ∃ u, (l.conn (!b)).conn.rx = some u ∧ ids.transId = u.transId ∧
      HasAll u := by
    rcases hw with rfl | hw
    · cases hids
    · exact (endSound hrun hok (!b)).rx.done w hw ids hids
  refine ⟨t, u, ht, hu, hid'.symm.trans hid, (hend.rx.base.tx t ht).files, fun f hf => ?_⟩
  obtain ⟨g, hg, hcopy⟩ := copies_all hrun hok b ht hu hall f hf
  obtain ⟨path, hpath, hsize, -, -, hwhole⟩ := hcopy.copy
  refine ⟨g, hg, hcopy.listed, path, hpath, ?_⟩
  have hsha : g.sha = content b path := hwhole ((rxComplete_iff.mp hall.complete).2 g hg)
  obtain ⟨hfront, hlength⟩ := on_disk hrun hok (!b) hu hg
  have heq : g.size = f.size := congrArg (fun x => x.2.1) hcopy.listed
  rw [← hsha]
  refine (hfront.eq_of_length ?_).symm
  rw [hlength, heq, hsize, hsha]

end

end

/-! ### A file of one byte, sent across -/

/-- Each path leads to a file that holds an A. -/
def oneFileEnv : DcEnv :=
  { oneByteEnv 0 fun _ => dcTakesAll with
    pread := fun _ off want => some ((([65] : Bytes).drop off).take want) }

theorem oneFileEnv_files : FilesAre (fun _ => [65]) oneFileEnv where
  size h := by
    cases h
    rfl
  read h := by
    cases h
    exact List.take_prefix _ _

/-- The one end sends the file, and what each has written comes to the other. -/
def sendAcross : List (Bool × FdEv) :=
  let here := fun e => (true, FdEv.event e)
  let there := fun e => (false, FdEv.event e)
  [here (.start oneFileEnv), there (.start oneFileEnv),
    here (.read oneFileEnv dcPeerSetting), there (.read oneFileEnv dcPeerSetting),
    here (.sendFiles oneFileEnv [oneByteItem]),
    there (.read oneFileEnv (oneByteHeader 1 (ascii "f"))),
    here (.read oneFileEnv (oneByteCtrl .fileHeaderConfirm ++ oneByteCtrl .fileTransferReq)),
    here (.tick oneFileEnv), there (.read oneFileEnv oneByteData), there (.tick oneFileEnv),
    here (.read oneFileEnv (oneByteAck ++ oneByteCtrl .fileTransferDone))]

/-- The ends of the example. -/
def sendAcrossStart : Link (FdConn Bytes) :=
  dcPairStart (fun _ => 0) (fun _ => some (ascii "/d")) fun _ _ => []

theorem sendAcross_env : ∀ e ∈ sendAcross, ∀ ev, e.2 = .event ev → ev.env = oneFileEnv := by
  unfold sendAcross
  simp only [List.forall_mem_cons]
  refine ⟨?_, ?_, ?_, ?_, ?_, ?_, ?_, ?_, ?_, ?_, ?_, fun _ h => absurd h List.not_mem_nil⟩ <;>
    rintro ev ⟨⟩ <;> rfl

/-- The rest of `DcPairOk`, to be tested. -/
def dcPairTest (l : Link (FdConn Bytes)) (e : Bool × FdEv) : Bool :=
  e.2.every (rxDistinct plainOs) (l.conn e.1) && ((l.conn e.1).conn.tx.isSome ||
    (l.conn e.1).conn.out.all fun w => (dfileDecodeFileHeader w).isNone)

theorem sendAcross_ok : Meets (dcPairStep (fun _ => plainOs) id)
    (DcPairOk (fun _ => plainOs) fun _ _ => [65]) sendAcrossStart sendAcross := by
  refine meets_of_mem ?_ sendAcross sendAcross_env
    (show meetsTest _ dcPairTest _ _ = true by decide +kernel)
  intro l e henv htest
  obtain ⟨hdistinct, hlist⟩ := Bool.and_eq_true_iff.mp htest
  refine ⟨fun ev hev => ?_, fun ev hev => ⟨?_, ?_⟩, hdistinct⟩
  · have hsend : ∀ n, (ev.env.send n).neverCut = true := by
      rw [henv ev hev]
      exact fun _ => rfl
    cases ev with
    | start env => trivial
    | _ => exact hsend
  · rw [henv ev hev]
    exact oneFileEnv_files
  · rintro env items - htx w hw
    rw [htx, Option.isSome_none, Bool.false_or] at hlist
    exact Option.isNone_iff_eq_none.mp (List.all_eq_true.mp hlist w hw)

theorem copies_sendAcross :
    ∃ l, run (dcPairStep (fun _ => plainOs) id) sendAcrossStart sendAcross = some l ∧
      ∃ u g t f, (l.conn false).conn.rx = some u ∧ g ∈ u.files ∧ g.expectedSeq = 1 ∧
        (l.conn true).conn.tx = some t ∧ f ∈ t.files ∧
        CopyOf (fun _ => [65]) dfileDefaultFrameSize f g := by
  obtain ⟨l, hrun, hend⟩ := Option.map_eq_some_iff.mp (show
    (run (dcPairStep (fun _ => plainOs) id) sendAcrossStart sendAcross).map (fun l =>
      (l.conn false).conn.rx.map fun u => u.files.map fun g => g.expectedSeq) =
      some (some [1]) by decide +kernel)
  obtain ⟨u, hu, hfiles⟩ := Option.map_eq_some_iff.mp hend
  have hmem : 1 ∈ u.files.map fun g => g.expectedSeq := hfiles ▸ List.mem_cons_self
  obtain ⟨g, hg, hseq⟩ := List.mem_map.mp hmem
  obtain ⟨t, f, ht, -, hf, hcopy, -⟩ := copies hrun sendAcross_ok false hu hg
    (Or.inl (by rw [hseq]; decide))
  exact ⟨l, hrun, u, g, t, f, hu, hg, hseq, ht, hf, hcopy⟩

theorem reported_copied_sendAcross :
    ∃ l, run (dcPairStep (fun _ => plainOs) id) sendAcrossStart sendAcross = some l ∧
      ∃ t u, (l.conn true).conn.tx = some t ∧ (l.conn false).conn.rx = some u ∧
        ∀ f ∈ t.files, ∃ g ∈ u.files, g.listed = f.listed ∧
          (l.conn false).fds.kernel.disk
            (destination plainOs (l.conn false).conn.recvDir g) = [65] := by
  obtain ⟨l, hrun, hend⟩ := Option.map_eq_some_iff.mp (show
    (run (dcPairStep (fun _ => plainOs) id) sendAcrossStart sendAcross).map (fun l =>
      (l.conn true).conn.events.getLast?) =
      some (some (5, .result true true "sent 1 file(s), 1 bytes (all acked, done+ack)"))
      by decide +kernel)
  obtain ⟨t, u, ht, hu, -, -, hall⟩ := reported_copied hrun sendAcross_ok true
    (List.mem_of_getLast? hend)
  refine ⟨l, hrun, t, u, ht, hu, fun f hf => ?_⟩
  obtain ⟨g, hg, hlisted, -, -, hdisk⟩ := hall f hf
  exact ⟨g, hg, hlisted, hdisk⟩

end DcPair

end HwPhoneLink.DFile
