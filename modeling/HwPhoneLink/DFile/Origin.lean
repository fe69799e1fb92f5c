import HwPhoneLink.DFile.Pair

/-!
# Where the bytes on the disk come from

One connection with any peer: the stream it receives is any byte string, cut anywhere. What lies
at the place of a block is the payload of a data frame of the stream, for this transfer, file and
block, and a receive that is reported ok has every block of every file from the stream
(`FdConn.from_peer`).
-/

namespace HwPhoneLink.DFile

open BigEndian Path Framing Transitions HwPhoneLink.Testfile

section
variable {ι : Type*} [DecidableEq ι] (os : Os ι)

/-- The frames of the stream that has been received. -/
def framesOf (es : List FdEv) : List Bytes :=
  (parse dcCut (received (es.filterMap FdEv.engine))).1

/-- The file of the entry, as it is on the disk. -/
def FdConn.onDisk (s : FdConn ι) (g : DCFile) : Bytes :=
  s.fds.kernel.disk (destination os s.conn.recvDir g)

/-- At the place of the block is the payload of a data frame for it. -/
def BlockFrom (frames : List Bytes) (s : FdConn ι) (u : DCTrans) (g : DCFile) (seq : ℕ) : Prop :=
  ∃ w ∈ frames, ∃ d, dfileDecodeData w = some d ∧ d.transId = u.transId ∧
    d.fileId = g.fileId ∧ d.blockSeq.toNat = seq ∧
    ((s.onDisk os g).drop (seq * s.conn.blockSize)).take s.conn.blockSize = d.payload

/-- What a receiver has on the disk, and what it reports, is from the frames of the peer. -/
structure FromPeer (frames : List Bytes) (s : FdConn ι) : Prop where
  setting : ∀ u, s.conn.rx = some u → u.files ≠ [] →
    ∃ w ∈ frames, ∃ x, dfileDecodeSetting w = some x ∧ s.conn.blockSize = dcBlockSize x
  listed : ∀ u, s.conn.rx = some u → ∀ g ∈ u.files,
    ∃ w ∈ frames, ∃ h, dfileDecodeFileHeader w = some h ∧ h.transId = u.transId ∧
      h.nodeNumber = u.nodeNumber ∧ g.headerEntry ∈ h.entries
  size : ∀ u, s.conn.rx = some u → ∀ g ∈ u.files, (s.onDisk os g).length = g.size
  block : ∀ u, s.conn.rx = some u → ∀ g ∈ u.files, ∀ seq < g.expectedSeq,
    BlockFrom os frames s u g seq
  /-- A receive that is reported ok has a file for every entry, and all of its blocks. -/
  told : ∀ n m, (n, DcEvent.result false true m) ∈ s.conn.events →
    ∃ u, s.conn.rx = some u ∧ u.files ≠ [] ∧ u.nodeNumber.toNat ≤ u.files.length ∧
      u.files.map DCFile.headerEntry = u.hdr ∧
      ∀ g ∈ u.files, g.size ≤ (2 ^ 32 - 1) * s.conn.blockSize →
        ∀ seq, seq * s.conn.blockSize < g.size → BlockFrom os frames s u g seq

end

/-! ## Blocks of a row of payloads -/

theorem flatten_take_length {blockSize : ℕ} {ps : List Bytes} : ∀ {i : ℕ},
    (∀ j < i, ∃ p, ps[j]? = some p ∧ p.length = blockSize) →
      (ps.take i).flatten.length = i * blockSize := by
  intro i
  induction i with
  | zero => intro _; rw [List.take_zero, Nat.zero_mul]; rfl
  | succ i ih =>
      intro h
      obtain ⟨p, hp, hlen⟩ := h i (Nat.lt_succ_self i)
      rw [List.take_add_one, hp, List.flatten_append, List.length_append,
        ih fun j hj => h j (Nat.lt_succ_of_lt hj), Nat.succ_mul]
      show _ + ([p].flatten).length = _
      rw [List.flatten_singleton, hlen]

/-- A row of blocks that is at the front of a file of its size has each block in its place. -/
theorem block_of_front {blockSize seq : ℕ} {ps : List Bytes} {p file : Bytes}
    (hlen : ∀ i q, ps[i]? = some q → q.length = dcBlockLen file.length blockSize i)
    (hstart : seq * blockSize < file.length) (hp : ps[seq]? = some p)
    (hfront : ps.flatten <+: file) : (file.drop (seq * blockSize)).take blockSize = p := by
  have hfull : (ps.take seq).flatten.length = seq * blockSize := by
    apply flatten_take_length
    intro j hj
    have hlt : j < ps.length := Nat.lt_trans hj (List.getElem?_eq_some_iff.mp hp).1
    refine ⟨ps[j], List.getElem?_eq_getElem hlt, ?_⟩
    rw [hlen j _ (List.getElem?_eq_getElem hlt), dcBlockLen]
    have hmul : (j + 1) * blockSize ≤ seq * blockSize := Nat.mul_le_mul_right _ hj
    rw [Nat.succ_mul] at hmul
    omega
  obtain ⟨more, rfl⟩ := hfront
  obtain ⟨rest, hrest⟩ : ∃ rest, ps.flatten ++ more =
      (ps.take seq).flatten ++ (p ++ rest) := by
    refine ⟨(ps.drop (seq + 1)).flatten ++ more, ?_⟩
    obtain ⟨hlt, hget⟩ := List.getElem?_eq_some_iff.mp hp
    rw [← List.append_assoc, ← List.append_assoc]
    congr 1
    conv_lhs => rw [← List.take_append_drop seq ps, List.drop_eq_getElem_cons hlt, hget]
    rw [List.flatten_append, List.flatten_cons, List.append_assoc]
  have hp' := hlen seq p hp
  rw [hrest] at hp' hstart ⊢
  rw [List.drop_left' hfull]
  rw [dcBlockLen, List.length_append, hfull, List.length_append] at hp'
  rw [List.length_append, hfull, List.length_append] at hstart
  rcases Nat.lt_or_ge p.length blockSize with hshort | hlong
  · -- the last block: nothing follows
    have hnil : rest = [] := List.length_eq_zero_iff.mp (by omega)
    rw [hnil, List.append_nil, List.take_of_length_le (Nat.le_of_lt hshort)]
  · rw [List.take_left' (by omega)]

/-! ## Every run -/

namespace FdConn

section
variable {ι : Type*} [DecidableEq ι] {os : Os ι} {sha256Hex : Bytes → Bytes} {now : UInt64}
  {recvDir : Option Bytes} {disk : ι → Bytes} {es : List FdEv} {s : FdConn ι}

/-- A call of the handler is for a frame of the stream, or for a corrupt header. -/
def InStream (es : List FdEv) (w : Bytes) : Prop := w = [] ∨ w ∈ framesOf es

theorem hears_stream
    (hrun : run (FdConn.step os sha256Hex) (fdAlloc now recvDir disk) es = some s) :
    RxWritten (InStream es) s.conn := by
  have hengine := FdConn.projects.run _ hrun
  refine DFileConn.run_rxWritten hengine (DFileConn.meets_dispatches _ hengine fun d hd => ?_)
  by_cases hnil : d.2.2 = []
  · exact Or.inl hnil
  right
  have hfront := DFileConn.handled_front _ dcCut_nil hengine
  apply hfront.subset
  refine List.mem_map.mpr ⟨d, List.mem_filter.mpr ⟨hd, ?_⟩, rfl⟩
  rw [Bool.not_eq_true', List.isEmpty_eq_false_iff]
  exact hnil

/-- A block that has been received is on the disk. -/
theorem blockFrom {u : DCTrans} {g : DCFile} {seq : ℕ} (h : RxWritten (InStream es) s.conn)
    (hstored : Stored os s.fds.kernel.disk s.conn.recvDir s.conn.blockSize g.undigested)
    (hu : s.conn.rx = some u) (hg : g ∈ u.files) (hseq : seq < g.expectedSeq) :
    BlockFrom os (framesOf es) s u g seq := by
  have hfile := h.files u hu g hg
  have hlt : seq < g.writes.length := by rwa [hfile.count]
  obtain ⟨-, -, w, d, hw, hd, hid, hfileId, hnum, hpayload⟩ :=
    hfile.block seq _ _ (List.getElem?_eq_getElem hlt)
  have hmem : w ∈ framesOf es := by
    rcases hw with rfl | hw
    · cases hd
    · exact hw
  refine ⟨w, hmem, d, hd, hid, hfileId, hnum, ?_⟩
  have hsize : (s.onDisk os g).length = g.size := hstored.size
  have hparts : (g.writes.map Prod.snd).flatten <+: s.onDisk os g := hfile.sha ▸ hstored.front
  refine block_of_front ?_ ?_ ?_ hparts
  · intro i q hq
    rw [List.getElem?_map, Option.map_eq_some_iff] at hq
    obtain ⟨⟨off, q⟩, hq, rfl⟩ := hq
    rw [hsize]
    exact (hfile.block i off q hq).2.1
  · rw [hsize]
    exact dcTotalBlocks_start (hfile.total ▸ Nat.lt_of_lt_of_le hseq hfile.next)
  · rw [List.getElem?_map, List.getElem?_eq_getElem hlt, hpayload]
    rfl

/-- **From the peer.** In every run, with any peer, in which no header opens two destinations
that are one file: what is on the disk is from the data frames of the stream, in the blocks of a
setting and under the entries of headers that came in it, and a receive that is reported ok has
every block. -/
theorem from_peer
    (hrun : run (FdConn.step os sha256Hex) (fdAlloc now recvDir disk) es = some s)
    (hok : Meets (FdConn.step os sha256Hex) (fun s e => e.every (rxDistinct os) s = true)
      (fdAlloc now recvDir disk) es) : FromPeer os (framesOf es) s := by
  have hwritten := hears_stream hrun
  obtain ⟨hdisk, hreported⟩ := run_disk hok hrun
  have hstored : ∀ u, s.conn.rx = some u → ∀ g ∈ u.files,
      Stored os s.fds.kernel.disk s.conn.recvDir s.conn.blockSize g.undigested := by
    intro u hu g hg
    refine hdisk.stores.stored g.undigested ?_
    rw [DFileConn.rxFiles_of hu]
    exact List.mem_map_of_mem hg
  constructor
  · intro u hu hne
    obtain ⟨w, x, hw, hx, hblock⟩ := hwritten.setting (hwritten.opened u hu hne)
    rcases hw with rfl | hw
    · cases hx
    · exact ⟨w, hw, x, hx, hblock⟩
  · intro u hu g hg
    have hentry := (hwritten.entries u hu).subset (List.mem_map_of_mem hg)
    obtain ⟨w, h, hw, hh, hfacts⟩ := hwritten.hdr u hu _ hentry
    rcases hw with rfl | hw
    · cases hh
    · exact ⟨w, hw, h, hh, hfacts⟩
  · exact fun u hu g hg => (hstored u hu g hg).size
  · exact fun u hu g hg seq hseq => blockFrom hwritten (hstored u hu g hg) hu hg hseq
  · intro n m htold
    obtain ⟨u, hu, hdone⟩ := hreported.told n m htold
    obtain ⟨hall, -, hcomplete⟩ := hreported.finishing u hu (Or.inr hdone)
    obtain ⟨hne, hfiles⟩ := rxComplete_iff.mp hcomplete
    have hcount : u.nodeNumber.toNat ≤ u.files.length := by
      have hfull := hall.full
      rwa [← hall.files, List.length_map] at hfull
    refine ⟨u, hu, hne, hcount, hall.files, fun g hg hfits seq hstart => ?_⟩
    apply blockFrom hwritten (hstored u hu g hg) hu hg
    -- all blocks of the file have been written
    have hfile := hwritten.files u hu g hg
    have hblock : 0 < s.conn.blockSize := by
      rcases Nat.eq_zero_or_pos s.conn.blockSize with hzero | hpos
      · rw [hzero] at hfits hstart
        omega
      · exact hpos
    rw [hfile.complete.mp (hfiles g hg), hfile.total, (dcTotalBlocks_exact hblock).mpr hfits]
    by_contra hle
    have hover := (ceilDiv_le_iff_le_mul hblock).mp (Nat.not_lt.mp hle)
    rw [Nat.mul_comm] at hover
    omega

end

/-- Two files of one byte each, from a peer that is not modelled. -/
theorem from_peer_two :
    ∃ s, run (FdConn.step plainOs id) (fdAlloc 0 (some (ascii "/d")) fun _ => [])
        (receiveTwo (ascii "f") (ascii "g")) = some s ∧
      s.conn.rx.map (fun u => u.files.map fun g => (g.name, s.onDisk plainOs g)) =
        some [(ascii "f", [65]), (ascii "g", [66])] ∧
      FromPeer plainOs (framesOf (receiveTwo (ascii "f") (ascii "g"))) s := by
  obtain ⟨s, hrun, hdisk⟩ := Option.map_eq_some_iff.mp (show
    (run (FdConn.step plainOs id) (fdAlloc 0 (some (ascii "/d")) fun _ => [])
      (receiveTwo (ascii "f") (ascii "g"))).map (fun s =>
        s.conn.rx.map fun u => u.files.map fun g => (g.name, s.onDisk plainOs g)) =
      some (some [(ascii "f", [65]), (ascii "g", [66])]) by decide +kernel)
  have hok : Meets (FdConn.step plainOs id) (fun s e => e.every (rxDistinct plainOs) s = true)
      (fdAlloc 0 (some (ascii "/d")) fun _ => []) (receiveTwo (ascii "f") (ascii "g")) :=
    meets_of_test (fun _ _ h => h) _ (by decide +kernel)
  exact ⟨s, hrun, hdisk, from_peer hrun hok⟩

end FdConn

end HwPhoneLink.DFile
