import HwPhoneLink.Fillp.OutOfOrder

/-!
# Packets of the out-of-order table

`fp_peer_new` gives the table `fp_pkt_free` as the function that destroys its
values, and `fp_on_data` frees a flushed packet itself. Here packets are objects,
numbered in the order of their allocation, and the table holds their numbers. A
packet leaves the store with its first release; what a later read of it finds is
whatever `stale` makes of the old contents.

The flush loop reads every packet after its release and releases it again. So the
ownership is right exactly as long as the loop has no round
(`FpPktStore.packets_released_once_iff`).
-/

namespace HwPhoneLink.Fillp

open BigEndian Transitions Table

/-! ## The store -/

/-- A packet on the heap. `released` counts the calls of `fp_pkt_free` on it. -/
structure FpPktCell where
  pkt : FpPkt
  released : ℕ

/-- A peer with its buffered packets on the heap. The table of `peer` itself is
not used. -/
structure FpPktStore where
  peer : FillpPeer
  ofo : AList (fun _ : UInt32 => ℕ)
  cells : List FpPktCell
  readReleased : Bool

namespace FpPktStore

/-- An established peer that has buffered nothing. -/
def start (p : FillpPeer) : FpPktStore where
  peer := p
  ofo := ∅
  cells := []
  readReleased := false

/-- `g_new0` and the copy of the payload. -/
def alloc (s : FpPktStore) (pkt : FpPkt) : FpPktStore :=
  { s with cells := s.cells ++ [{ pkt := pkt, released := 0 }] }

def fpPktFree (s : FpPktStore) (id : ℕ) : FpPktStore :=
  { s with cells := s.cells.modify id fun c => { c with released := c.released + 1 } }

/-- The destroy function of the table, for the value at the key. -/
def destroyAt (s : FpPktStore) (k : UInt32) : FpPktStore :=
  match s.ofo.lookup k with
  | none => s
  | some id => s.fpPktFree id

/-- `g_hash_table_remove`. -/
def remove (s : FpPktStore) (k : UInt32) : FpPktStore :=
  { s.destroyAt k with ofo := s.ofo.erase k }

/-- `g_hash_table_replace`. -/
def replace (s : FpPktStore) (k : UInt32) (id : ℕ) : FpPktStore :=
  { s.destroyAt k with ofo := s.ofo.insert k id }

/-- How often the packet has been released, if it was ever allocated. -/
def released (s : FpPktStore) (id : ℕ) : Option ℕ := s.cells[id]?.map FpPktCell.released

/-- The packet is in the store. -/
def isLive (s : FpPktStore) (id : ℕ) : Bool := s.released id == some 0

/-- `g_new0` without any field set. -/
def fpPktZero : FpPkt where
  pktNum := 0
  seqNum := 0
  len := 0
  tSentMs := 0
  data := []

/-- What was written into the packet. -/
def content (s : FpPktStore) (id : ℕ) : FpPkt := (s.cells[id]?.map FpPktCell.pkt).getD fpPktZero

/-- What a read of the packet finds. -/
def read (stale : FpPkt → FpPkt) (s : FpPktStore) (id : ℕ) : FpPkt :=
  if s.isLive id then s.content id else stale (s.content id)

/-- Notes a read of a packet that has been released. -/
def touch (s : FpPktStore) (id : ℕ) : FpPktStore :=
  { s with readReleased := s.readReleased || !s.isLive id }

/-! ## `fp_on_data` in the store -/

/-- One round of the flush loop for the packet `next`. -/
def flushOne (stale : FpPkt → FpPkt) (s : FpPktStore) (next : ℕ) : FpPktStore :=
  let s := (s.remove (s.peer.recvPktNum + 1)).touch next
  let pkt := s.read stale next
  let s := { s with
    peer := { s.peer with
      recvPktNum := pkt.pktNum, recvSeqNum := pkt.seqNum
      deliveredSincePack := s.peer.deliveredSincePack + pkt.len
      ofoBytes := s.peer.ofoBytes - pkt.len } }
  let s := { s with peer := fpDeliver s.peer pkt.data }
  s.fpPktFree next

/-- The loop. Each round takes an entry out of the table. -/
def flush (stale : FpPkt → FpPkt) : ℕ → FpPktStore → FpPktStore
  | 0, s => s
  | n + 1, s =>
      match s.ofo.lookup (s.peer.recvPktNum + 1) with
      | none => s
      | some next => flush stale n (s.flushOne stale next)

/-- The gap branch. -/
def buffer (env : FpEnv) (s : FpPktStore) (h : FpHead) (payload : Bytes) : FpPktStore :=
  let s :=
    if s.peer.ofoBytes + h.dataLen.toNat ≤ fpOfoMaxBytes then
      { (s.alloc (fpBuffered h payload)).replace h.pktNum s.cells.length with
        peer := { s.peer with ofoBytes := s.peer.ofoBytes + h.dataLen.toNat } }
    else s
  { s with peer := fpMaybeNack env s.peer }

def onData (stale : FpPkt → FpPkt) (env : FpEnv) (s : FpPktStore) (buf : Bytes) : FpPktStore :=
  match fpDataOf buf with
  | none => s
  | some (h, payload) =>
      if !fpNumIsbigger h.pktNum s.peer.recvPktNum then
        if env.now - s.peer.tLastPackMs ≥ fpNackIntervalMs then
          { s with peer := fpSendPack env s.peer }
        else s
      else if h.pktNum = s.peer.recvPktNum + 1 then
        let s := { s with peer := fpAccept s.peer h.pktNum h.seqNum payload }
        let s := flush stale s.ofo.entries.length s
        { s with peer := fpMaybePack env s.peer }
      else s.buffer env h payload

/-- `fp_free_rx`: the table is destroyed, and each value with it. -/
def freeRx (s : FpPktStore) : FpPktStore :=
  s.ofo.entries.foldl (fun s e => s.fpPktFree e.2)
    { s with ofo := ∅, peer := { s.peer with ofoBytes := 0 } }

/-- One DATA datagram. -/
def step (stale : FpPkt → FpPkt) (s : FpPktStore) (d : FpEnv × Bytes) : Option FpPktStore :=
  some (s.onData stale d.1 d.2)

/-- Every packet has been released once, and none was read after that. -/
structure ReleasedOnce (s : FpPktStore) : Prop where
  read : s.readReleased = false
  once : ∀ id n, s.released id = some n → n = 1

/-- The datagram is the next packet, and the packet after it is buffered. -/
def Flushes (s : FpPktStore) (d : FpEnv × Bytes) : Prop :=
  ∃ h payload, fpDataOf d.2 = some (h, payload) ∧ h.pktNum = s.peer.recvPktNum + 1 ∧
    h.pktNum + 1 ∈ s.ofo

/-! ## The peer without a store -/

/-- The table with its pointers followed. -/
def view (s : FpPktStore) : FillpPeer :=
  { s.peer with ofo := mapValues (fun _ id => s.content id) s.ofo }

/-! ## One release -/

@[simp] theorem fpPktFree_released (s : FpPktStore) (id i : ℕ) :
    (s.fpPktFree id).released i =
      (s.released i).map fun n => n + if id = i then 1 else 0 := by
  unfold released fpPktFree
  rw [List.getElem?_modify, Option.map_eq_map, Option.map_map, Option.map_map]
  congr 1
  funext c
  by_cases h : id = i
  · simp [h]
  · simp [h]

@[simp] theorem fpPktFree_content (s : FpPktStore) (id i : ℕ) :
    (s.fpPktFree id).content i = s.content i := by
  unfold content fpPktFree
  rw [List.getElem?_modify, Option.map_eq_map, Option.map_map]
  congr 2
  funext c
  by_cases h : id = i
  · simp [h]
  · simp [h]

@[simp] theorem fpPktFree_length (s : FpPktStore) (id : ℕ) :
    (s.fpPktFree id).cells.length = s.cells.length :=
  List.length_modify _ _ _

theorem destroyAt_released {s : FpPktStore} {k : UInt32} {id : ℕ} (h : s.ofo.lookup k = some id)
    (i : ℕ) : (s.destroyAt k).released i =
      (s.released i).map fun n => n + if id = i then 1 else 0 := by
  rw [destroyAt, h]
  exact fpPktFree_released s id i

@[simp] theorem destroyAt_content (s : FpPktStore) (k : UInt32) (i : ℕ) :
    (s.destroyAt k).content i = s.content i := by
  unfold destroyAt
  split
  · rfl
  · exact fpPktFree_content s _ i

@[simp] theorem destroyAt_peer (s : FpPktStore) (k : UInt32) :
    (s.destroyAt k).peer = s.peer := by
  unfold destroyAt
  split <;> rfl

@[simp] theorem destroyAt_ofo (s : FpPktStore) (k : UInt32) : (s.destroyAt k).ofo = s.ofo := by
  unfold destroyAt
  split <;> rfl

@[simp] theorem destroyAt_length (s : FpPktStore) (k : UInt32) :
    (s.destroyAt k).cells.length = s.cells.length := by
  unfold destroyAt
  split
  · rfl
  · exact fpPktFree_length s _

@[simp] theorem destroyAt_readReleased (s : FpPktStore) (k : UInt32) :
    (s.destroyAt k).readReleased = s.readReleased := by
  unfold destroyAt
  split <;> rfl

/-- The new packet is last. -/
theorem alloc_released (s : FpPktStore) (pkt : FpPkt) (i : ℕ) :
    (s.alloc pkt).released i = if i = s.cells.length then some 0 else s.released i := by
  unfold released alloc
  rw [List.getElem?_append]
  split
  · rename_i h
    rw [if_neg (Nat.ne_of_lt h)]
  · rename_i h
    split
    · rename_i heq
      simp [heq]
    · rename_i hne
      rw [List.getElem?_eq_none (by simp; omega), List.getElem?_eq_none (Nat.le_of_not_lt h)]

theorem alloc_content (s : FpPktStore) (pkt : FpPkt) (i : ℕ) :
    (s.alloc pkt).content i = if i = s.cells.length then pkt else s.content i := by
  unfold content alloc
  rw [List.getElem?_append]
  split
  · rename_i h
    rw [if_neg (Nat.ne_of_lt h)]
  · rename_i h
    split
    · rename_i heq
      simp [heq]
    · rename_i hne
      rw [List.getElem?_eq_none (by simp; omega), List.getElem?_eq_none (Nat.le_of_not_lt h)]

/-! ## Who owns a packet -/

/-- How many pointers of the table lead to the packet. -/
def holds (s : FpPktStore) (id : ℕ) : ℕ := total (fun e => if e.2 = id then 1 else 0) s.ofo

/-- Every pointer of the table leads to a packet of the heap. -/
def InRange (s : FpPktStore) : Prop := ∀ e ∈ s.ofo.entries, e.2 < s.cells.length

/-- A packet is either in the table or released. -/
structure Owned (s : FpPktStore) : Prop where
  read : s.readReleased = false
  once : ∀ id n, s.released id = some n → n + s.holds id = 1
  range : InRange s

theorem holds_remove {s : FpPktStore} {k : UInt32} {id : ℕ} (h : s.ofo.lookup k = some id)
    (i : ℕ) : s.holds i = (if id = i then 1 else 0) +
      total (fun e : Sigma fun _ : UInt32 => ℕ => if e.2 = i then 1 else 0) (s.ofo.erase k) :=
  total_erase _ h

theorem Owned.start (p : FillpPeer) : Owned (start p) := by
  constructor
  · rfl
  · intro id n hn
    cases hn
  · intro e he
    cases he

/-- What the invariant looks at. -/
theorem Owned.congr {s s' : FpPktStore} (h : Owned s) (hofo : s'.ofo = s.ofo)
    (hcells : s'.cells = s.cells) (hread : s'.readReleased = s.readReleased) : Owned s' := by
  obtain ⟨peer, ofo, cells, read⟩ := s'
  subst hofo hcells hread
  exact ⟨h.read, h.once, h.range⟩

/-- Nothing points past the last packet. -/
theorem Owned.holds_length {s : FpPktStore} (h : Owned s) : s.holds s.cells.length = 0 := by
  unfold holds total
  apply List.sum_eq_zero
  intro n hn
  obtain ⟨e, he, rfl⟩ := List.mem_map.mp hn
  exact if_neg (Nat.ne_of_lt (h.range e he))

/-- A new packet under a key whose old packet is destroyed. -/
theorem Owned.put {s : FpPktStore} (h : Owned s) (pkt : FpPkt) (k : UInt32) :
    Owned ((s.alloc pkt).replace k s.cells.length) := by
  constructor
  · show ((s.alloc pkt).destroyAt k).readReleased = false
    rw [destroyAt_readReleased]
    exact h.read
  · intro i n hn
    change ((s.alloc pkt).destroyAt k).released i = some n at hn
    show n + total (fun e => if e.2 = i then 1 else 0) (s.ofo.insert k s.cells.length) = 1
    rw [total_insert]
    rcases hold : s.ofo.lookup k with _ | old
    · have hsame : (s.alloc pkt).destroyAt k = s.alloc pkt := by
        rw [destroyAt, show (s.alloc pkt).ofo.lookup k = none from hold]
      rw [hsame, alloc_released] at hn
      rw [total_erase_of_none _ hold]
      by_cases hi : i = s.cells.length
      · rw [if_pos hi] at hn
        cases hn
        have hnone := h.holds_length
        rw [hi]
        simp only [if_true]
        unfold holds at hnone
        omega
      · rw [if_neg hi] at hn
        have honce := h.once i n hn
        rw [if_neg (Ne.symm hi)]
        unfold holds at honce
        omega
    · rw [destroyAt_released (s := s.alloc pkt) hold, alloc_released] at hn
      have hcount := holds_remove hold i
      by_cases hi : i = s.cells.length
      · have hnone := h.holds_length
        have hne : old ≠ s.cells.length :=
          Nat.ne_of_lt (h.range ⟨k, old⟩ (AList.mem_lookup_iff.mp hold))
        rw [hi] at hn hcount ⊢
        rw [if_pos rfl, Option.map_some, if_neg hne] at hn
        rw [hnone, if_neg hne] at hcount
        cases hn
        simp only [if_true]
        omega
      · rw [if_neg hi, Option.map_eq_some_iff] at hn
        obtain ⟨m, hm, rfl⟩ := hn
        have honce := h.once i m hm
        rw [if_neg (Ne.symm hi)]
        omega
  · intro e he
    change e ∈ (s.ofo.insert k s.cells.length).entries at he
    show e.2 < ((s.alloc pkt).destroyAt k).cells.length
    rw [destroyAt_length]
    show e.2 < (s.cells ++ [_]).length
    rw [List.length_append, List.length_singleton]
    rw [AList.entries_insert] at he
    rcases List.mem_cons.mp he with rfl | he
    · exact Nat.lt_succ_self _
    · exact Nat.lt_succ_of_lt (h.range e ((List.kerase_sublist k _).subset he))

/-! ## Teardown -/

theorem foldl_fpPktFree_released (l : List (Sigma fun _ : UInt32 => ℕ)) (i : ℕ) :
    ∀ s : FpPktStore, (l.foldl (fun s e => s.fpPktFree e.2) s).released i =
      (s.released i).map fun n => n + (l.map fun e => if e.2 = i then 1 else 0).sum := by
  induction l with
  | nil =>
      intro s
      simp
  | cons e l ih =>
      intro s
      rw [List.foldl_cons, ih, fpPktFree_released, Option.map_map]
      congr 1
      funext n
      simp [Nat.add_assoc]

theorem foldl_fpPktFree_readReleased (l : List (Sigma fun _ : UInt32 => ℕ)) :
    ∀ s : FpPktStore, (l.foldl (fun s e => s.fpPktFree e.2) s).readReleased = s.readReleased := by
  induction l with
  | nil => intro s; rfl
  | cons e l ih => intro s; exact ih (s.fpPktFree e.2)

/-- The table releases what it still owns. -/
theorem Owned.freed {s : FpPktStore} (h : Owned s) : ReleasedOnce s.freeRx := by
  constructor
  · rw [freeRx, foldl_fpPktFree_readReleased]
    exact h.read
  · intro id n hn
    rw [freeRx, foldl_fpPktFree_released, Option.map_eq_some_iff] at hn
    obtain ⟨m, hm, rfl⟩ := hn
    exact h.once id m hm

/-! ## The flush loop -/

/-- What the table removes is released. -/
theorem remove_not_live {s : FpPktStore} {k : UInt32} {next : ℕ}
    (h : s.ofo.lookup k = some next) : (s.remove k).isLive next = false := by
  have hcount : (s.remove k).released next = (s.destroyAt k).released next := rfl
  rw [isLive, hcount, destroyAt_released h]
  cases s.released next with
  | none => rfl
  | some n => simp

/-- **A round reads a packet that has been released.** -/
theorem flushOne_readReleased {stale : FpPkt → FpPkt} {s : FpPktStore} {next : ℕ}
    (h : s.ofo.lookup (s.peer.recvPktNum + 1) = some next) :
    (s.flushOne stale next).readReleased = true := by
  show ((s.remove (s.peer.recvPktNum + 1)).readReleased ||
    !(s.remove (s.peer.recvPktNum + 1)).isLive next) = true
  rw [remove_not_live h, Bool.not_false, Bool.or_true]

/-- **A round releases its packet twice.** -/
theorem flushOne_released {stale : FpPkt → FpPkt} {s : FpPktStore} {next : ℕ}
    (h : s.ofo.lookup (s.peer.recvPktNum + 1) = some next) :
    (s.flushOne stale next).released next = (s.released next).map fun n => n + 2 := by
  unfold flushOne
  rw [fpPktFree_released]
  show ((s.destroyAt (s.peer.recvPktNum + 1)).released next).map _ = _
  rw [destroyAt_released h, Option.map_map]
  simp

theorem flush_readReleased (stale : FpPkt → FpPkt) (n : ℕ) : ∀ {s : FpPktStore},
    s.readReleased = true → (flush stale n s).readReleased = true := by
  induction n with
  | zero => intro s h; exact h
  | succ n ih =>
      intro s h
      unfold flush
      split
      · exact h
      · rename_i next hnext
        exact ih (flushOne_readReleased hnext)

/-- Without the next packet in the table the loop has no round. -/
theorem flush_none {stale : FpPkt → FpPkt} {s : FpPktStore}
    (h : s.ofo.lookup (s.peer.recvPktNum + 1) = none) (n : ℕ) : flush stale n s = s := by
  cases n with
  | zero => rfl
  | succ n => rw [flush, h]

/-! ## One datagram -/

theorem buffer_owned {s : FpPktStore} (h : Owned s) (env : FpEnv) (hd : FpHead)
    (payload : Bytes) : Owned (s.buffer env hd payload) := by
  unfold buffer
  simp only
  split
  · exact (h.put (fpBuffered hd payload) hd.pktNum).congr rfl rfl rfl
  · exact h.congr rfl rfl rfl

/-- A datagram that flushes nothing leaves every packet with one owner. -/
theorem onData_owned {stale : FpPkt → FpPkt} {s : FpPktStore} (h : Owned s) {d : FpEnv × Bytes}
    (hno : ¬ Flushes s d) : Owned (s.onData stale d.1 d.2) := by
  unfold onData
  split
  · exact h
  rename_i hd payload hdata
  split
  · split
    · exact h.congr rfl rfl rfl
    · exact h
  split
  · rename_i hnext
    have hnone : s.ofo.lookup (hd.pktNum + 1) = none := by
      apply AList.lookup_eq_none.mpr
      intro hmem
      exact hno ⟨hd, payload, hdata, hnext, hmem⟩
    simp only
    rw [flush_none hnone]
    exact h.congr rfl rfl rfl
  · exact buffer_owned h d.1 hd payload

/-- A datagram that flushes reads a packet too late. -/
theorem Flushes.readReleased {stale : FpPkt → FpPkt} {s : FpPktStore} {d : FpEnv × Bytes}
    (h : Flushes s d) : (s.onData stale d.1 d.2).readReleased = true := by
  obtain ⟨hd, payload, hdata, hnext, hmem⟩ := h
  obtain ⟨next, hlookup⟩ := Option.isSome_iff_exists.mp (AList.lookup_isSome.mpr hmem)
  have hpos : s.ofo.entries.length ≠ 0 := by
    intro hzero
    rw [AList.mem_keys, AList.keys, List.length_eq_zero_iff.mp hzero] at hmem
    cases hmem
  obtain ⟨n, hn⟩ := Nat.exists_eq_succ_of_ne_zero hpos
  unfold onData
  simp only [hdata]
  have hbig : fpNumIsbigger hd.pktNum s.peer.recvPktNum = true := by
    rw [hnext]
    exact SerialNumber.ahead_succ _
  rw [hbig, if_neg (by decide), if_pos hnext]
  simp only [hn, flush]
  show (match s.ofo.lookup (hd.pktNum + 1) with
    | none => _
    | some next => flush stale n _ : FpPktStore).readReleased = true
  rw [hlookup]
  apply flush_readReleased
  exact flushOne_readReleased hlookup

/-! ## The peer without a store

If a released packet still reads as before, the store does what the peer model does.
-/

theorem read_id (s : FpPktStore) (i : ℕ) : s.read id i = s.content i := by
  unfold read
  split <;> rfl

theorem view_lookup (s : FpPktStore) (k : UInt32) :
    s.view.ofo.lookup k = (s.ofo.lookup k).map s.content :=
  mapValues_lookup _ s.ofo k

theorem view_length (s : FpPktStore) : s.view.ofo.entries.length = s.ofo.entries.length :=
  mapValues_length _ s.ofo

theorem flushOne_content (s : FpPktStore) (next i : ℕ) :
    (s.flushOne id next).content i = s.content i := by
  unfold flushOne
  rw [fpPktFree_content]
  exact destroyAt_content s _ i

theorem flushOne_view (s : FpPktStore) (next : ℕ) :
    (s.flushOne id next).view = fpFlushOne s.view (s.content next) := by
  have hpkt : ((s.remove (s.peer.recvPktNum + 1)).touch next).read id next = s.content next := by
    rw [read_id]
    exact destroyAt_content s _ next
  have hpeer : ((s.remove (s.peer.recvPktNum + 1)).touch next).peer = s.peer :=
    destroyAt_peer s _
  have hcontent : (fun (_ : UInt32) i => (s.flushOne id next).content i) =
      fun _ i => s.content i := by
    funext _ i
    exact flushOne_content s next i
  have hofo : (s.flushOne id next).ofo = s.ofo.erase (s.peer.recvPktNum + 1) := rfl
  have hnext : (s.flushOne id next).peer =
      fpDeliver { s.peer with
        recvPktNum := (s.content next).pktNum, recvSeqNum := (s.content next).seqNum
        deliveredSincePack := s.peer.deliveredSincePack + (s.content next).len
        ofoBytes := s.peer.ofoBytes - (s.content next).len } (s.content next).data := by
    unfold flushOne
    simp only [hpkt, hpeer]
    rfl
  rw [view, hcontent, hofo, mapValues_erase, hnext]
  rfl

theorem flush_view (n : ℕ) : ∀ s : FpPktStore, (flush id n s).view = fpFlushOfo n s.view := by
  induction n with
  | zero => intro s; rfl
  | succ n ih =>
      intro s
      have hlookup := view_lookup s (s.peer.recvPktNum + 1)
      have hnum : s.view.recvPktNum = s.peer.recvPktNum := rfl
      rw [flush, fpFlushOfo, hnum, hlookup]
      cases s.ofo.lookup (s.peer.recvPktNum + 1) with
      | none => rfl
      | some next =>
          show (flush id n (s.flushOne id next)).view =
            fpFlushOfo n (fpFlushOne s.view (s.content next))
          rw [ih, flushOne_view]

theorem fpMaybePack_ofo_eq (env : FpEnv) (p : FillpPeer) (t : AList fun _ : UInt32 => FpPkt) :
    { fpMaybePack env p with ofo := t } = fpMaybePack env { p with ofo := t } := by
  unfold fpMaybePack
  split
  · rfl
  split <;> rfl

theorem fpMaybeNack_ofo_eq (env : FpEnv) (p : FillpPeer) (t : AList fun _ : UInt32 => FpPkt) :
    { fpMaybeNack env p with ofo := t } = fpMaybeNack env { p with ofo := t } := by
  unfold fpMaybeNack
  split <;> rfl

theorem put_view {s : FpPktStore} (hrange : InRange s) (pkt : FpPkt) (k : UInt32) :
    mapValues (fun _ i => ((s.alloc pkt).replace k s.cells.length).content i)
      (s.ofo.insert k s.cells.length) = s.view.ofo.insert k pkt := by
  have hcontent : ∀ i, ((s.alloc pkt).replace k s.cells.length).content i =
      (s.alloc pkt).content i := destroyAt_content (s.alloc pkt) k
  have hold : mapValues (fun _ i => (s.alloc pkt).content i) s.ofo = s.view.ofo := by
    apply mapValues_congr
    intro e he
    rw [alloc_content, if_neg (Nat.ne_of_lt (hrange e he))]
  simp only [hcontent]
  rw [mapValues_insert, hold, alloc_content, if_pos rfl]

theorem buffer_view {s : FpPktStore} (hrange : InRange s) (env : FpEnv) (h : FpHead)
    (payload : Bytes) : (s.buffer env h payload).view = fpBuffer env s.view h payload := by
  have hbytes : s.view.ofoBytes = s.peer.ofoBytes := rfl
  unfold buffer fpBuffer
  rw [hbytes]
  by_cases hroom : s.peer.ofoBytes + h.dataLen.toNat ≤ fpOfoMaxBytes
  · have hput := put_view hrange (fpBuffered h payload) h.pktNum
    rw [if_pos hroom, if_pos hroom]
    unfold view at hput ⊢
    rw [fpMaybeNack_ofo_eq]
    exact congrArg (fun t => fpMaybeNack env { s.peer with
      ofoBytes := s.peer.ofoBytes + h.dataLen.toNat, ofo := t }) hput
  · rw [if_neg hroom, if_neg hroom]
    exact fpMaybeNack_ofo_eq env s.peer s.view.ofo

/-- **One datagram** does to the store what it does to the peer. -/
theorem onData_view {s : FpPktStore} (hrange : InRange s) (env : FpEnv) (buf : Bytes) :
    (s.onData id env buf).view = fpOnData env s.view buf := by
  have hnum : s.view.recvPktNum = s.peer.recvPktNum := rfl
  have hlast : s.view.tLastPackMs = s.peer.tLastPackMs := rfl
  unfold onData fpOnData
  cases fpDataOf buf with
  | none => rfl
  | some hp =>
      obtain ⟨h, payload⟩ := hp
      show FpPktStore.view (if _ then _ else _) = fpOnPkt env s.view h payload
      rw [fpOnPkt, hnum, hlast]
      split
      · split <;> rfl
      split
      · set a : FpPktStore := { s with peer := fpAccept s.peer h.pktNum h.seqNum payload }
        have hflush : (flush id s.ofo.entries.length a).view =
            fpFlushOfo s.view.ofo.entries.length (fpAccept s.view h.pktNum h.seqNum payload) := by
          rw [view_length]
          exact flush_view s.ofo.entries.length a
        show FpPktStore.view { flush id s.ofo.entries.length a with
          peer := fpMaybePack env (flush id s.ofo.entries.length a).peer } =
          fpMaybePack env (fpFlushOfo s.view.ofo.entries.length
            (fpAccept s.view h.pktNum h.seqNum payload))
        rw [← hflush]
        exact fpMaybePack_ofo_eq env _ _
      · exact buffer_view hrange env h payload

/-- A datagram that flushes nothing reads no released packet. -/
theorem onData_of_not_flushes (stale : FpPkt → FpPkt) {s : FpPktStore} {d : FpEnv × Bytes}
    (hno : ¬ Flushes s d) : s.onData stale d.1 d.2 = s.onData id d.1 d.2 := by
  unfold onData
  split
  · rfl
  rename_i h payload hdata
  split
  · rfl
  split
  · rename_i hnext
    have hnone : s.ofo.lookup (h.pktNum + 1) = none := by
      apply AList.lookup_eq_none.mpr
      intro hmem
      exact hno ⟨h, payload, hdata, hnext, hmem⟩
    set a : FpPktStore := { s with peer := fpAccept s.peer h.pktNum h.seqNum payload }
    have hflush : ∀ st, flush st a.ofo.entries.length a = a := fun _ => flush_none hnone _
    simp only [hflush]
  · rfl

/-- **The peer model is the store model**, whatever a released packet reads as, along
every sequence that flushes nothing. -/
theorem run_view (stale : FpPkt → FpPkt) : ∀ {ds : List (FpEnv × Bytes)} {s t : FpPktStore},
    Owned s → Meets (step stale) (fun u d => ¬ Flushes u d) s ds →
    run (step stale) s ds = some t → run fpDataStep s.view ds = some t.view := by
  intro ds
  induction ds with
  | nil =>
      intro s t _ _ hrun
      cases hrun
      rfl
  | cons d ds ih =>
      intro s t hs hmeets hrun
      obtain ⟨s', hstep, hrest⟩ := run_cons_eq_some hrun
      cases hstep
      have hview : fpOnData d.1 s.view d.2 = (s.onData stale d.1 d.2).view := by
        rw [onData_of_not_flushes stale hmeets.1, onData_view hs.range]
      rw [run_cons, fpDataStep, hview]
      exact ih (onData_owned hs hmeets.1) (hmeets.2 _ rfl) hrest

/-! ## Whole sequences -/

/-- **Every buffered packet is released once**, with the teardown after any number of
DATA datagrams, and never read after that, if and only if no datagram of the sequence
is the next packet while the packet after it is buffered. -/
theorem packets_released_once_iff (stale : FpPkt → FpPkt) (p : FillpPeer)
    (ds : List (FpEnv × Bytes)) :
    (∀ pre, pre <+: ds → ∀ t, run (step stale) (start p) pre = some t →
        ReleasedOnce t.freeRx) ↔
      Meets (step stale) (fun s d => ¬ Flushes s d) (start p) ds := by
  apply good_iff_meets Owned
  · intro s hs
    exact hs.freed
  · intro s d s' hs hno hstep
    cases hstep
    exact onData_owned hs hno
  · intro s d _ hflush
    refine ⟨s.onData stale d.1 d.2, rfl, ?_⟩
    intro hgood
    have hread := hgood.read
    rw [freeRx, foldl_fpPktFree_readReleased] at hread
    rw [(not_not.mp hflush).readReleased] at hread
    cases hread
  · exact Owned.start p

/-- Packet 2 comes before packet 1: the flush loop reads it after its release and
releases it again. -/
theorem not_packets_released_once_reordered :
    ¬ ∀ pre, pre <+: [ofoData 2, ofoData 1] →
      ∀ t, run (step id) (start ofoPeer) pre = some t → ReleasedOnce t.freeRx := by
  intro hall
  have hlast := hall _ (List.prefix_refl _) _ rfl
  exact absurd hlast.read (by decide)

example : (run (step id) (start ofoPeer) [ofoData 2, ofoData 1]).bind (released · 0) = some 2 := by
  decide

end FpPktStore

end HwPhoneLink.Fillp
