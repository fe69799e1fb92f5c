import HwPhoneLink.Fillp.Frame
import HwPhoneLink.Lib.SerialNumber
import Mathlib.Data.List.AList

/-!
# One fillp peer: data plane and sender pump

`fillp_conn.c` from `fp_deliver` to `fp_pump`, as functions on the peer record.
The clock and the random numbers a call reads are its `FpEnv`. Millisecond
clock readings are monotone, so `now - t` is plain subtraction.

The last fields of `FillpPeer` are histories that the source does not keep:
the datagrams handed to `fp_sendto`, the byte runs passed to `on_data`, the
bytes accepted by `fillp_peer_send`, the payloads in packet-number order and
whether the peer was ever established.

A buffered packet is read after `g_hash_table_remove` as if it were still
there; releasing it is not part of this model.
-/

namespace HwPhoneLink.Fillp

open BigEndian

/-! ## Tuning -/

def fpPktDataMax : ℕ := 1400
def fpSendCache : ℕ := 256 * 1024
def fpRecvCache : ℕ := 1024 * 1024
def fpOfoMaxBytes : ℕ := 2 * 1024 * 1024
def fpTxqWatermark : ℕ := 64 * 1024
def fpHandshakeTimeoutMs : ℕ := 5000
def fpHsRetransMs : ℕ := 500
def fpCloseTimeoutMs : ℕ := 2000
def fpStallTimeoutMs : ℕ := 1000
def fpNackIntervalMs : ℕ := 20
def fpPackIntervalMs : ℕ := 10
def fpPackFlushBytes : ℕ := 65536
def fpSendBudget : ℕ := 32
def fpCookieLifetimeUs : UInt32 := 10 * 1000 * 1000
def fpPreserveMaxUs : UInt32 := 20 * 1000 * 1000
def fpClientPreserveUs : UInt32 := 10 * 1000 * 1000

/-! ## State -/

inductive FpState : Type where
  | pending | established | closing | closed
deriving DecidableEq, Repr

/-- One DATA packet: payload copy and counters. -/
structure FpPkt where
  pktNum : UInt32
  seqNum : UInt32
  len : ℕ
  tSentMs : ℕ
  data : Bytes
deriving DecidableEq, Repr

structure FillpPeer where
  isClient : Bool
  state : FpState
  -- handshake
  cookie : Bytes
  tStageMs : ℕ
  reqPreserveUs : UInt32
  reqSendCache : UInt32
  reqRecvCache : UInt32
  reqTs : UInt64
  hsTag : UInt16
  hsConfirmSent : Bool
  tHsRetransMs : ℕ
  -- send
  sendPktNum : UInt32
  sendSeqNum : UInt32
  txq : Bytes
  inflight : List FpPkt
  inflightBytes : ℕ
  fillDone : Bool
  txNotified : Bool
  -- receive
  recvPktNum : UInt32
  recvSeqNum : UInt32
  ofo : AList (fun _ : UInt32 => FpPkt)
  ofoBytes : ℕ
  deliveredSincePack : ℕ
  tLastPackMs : ℕ
  tLastNackMs : ℕ
  -- close coordination
  peerFin : Bool
  pendingFin : Bool
  -- histories
  sent : List Bytes
  delivered : List Bytes
  accepted : Bytes
  numbered : List Bytes
  wasEstablished : Bool

/-- What one engine call reads from its surroundings. -/
structure FpEnv where
  now : ℕ
  nowUs : UInt64
  rand1 : UInt32
  rand2 : UInt32
deriving DecidableEq, Repr

/-- `g_new0` and the two stage clocks. -/
def fpPeerNew (env : FpEnv) (isClient : Bool) : FillpPeer where
  isClient := isClient
  state := .pending
  cookie := List.replicate fillpCookieLen 0
  tStageMs := env.now
  reqPreserveUs := 0
  reqSendCache := 0
  reqRecvCache := 0
  reqTs := 0
  hsTag := 0
  hsConfirmSent := false
  tHsRetransMs := env.now
  sendPktNum := 0
  sendSeqNum := 0
  txq := []
  inflight := []
  inflightBytes := 0
  fillDone := false
  txNotified := false
  recvPktNum := 0
  recvSeqNum := 0
  ofo := ∅
  ofoBytes := 0
  deliveredSincePack := 0
  tLastPackMs := 0
  tLastNackMs := 0
  peerFin := false
  pendingFin := false
  sent := []
  delivered := []
  accepted := []
  numbered := []
  wasEstablished := false

def fpNumIsbigger (a b : UInt32) : Bool := SerialNumber.ahead a b

def fpSendto (p : FillpPeer) (buf : Bytes) : FillpPeer := { p with sent := p.sent ++ [buf] }

def fpPeerEstablished (env : FpEnv) (p : FillpPeer) : FillpPeer :=
  { p with state := .established, tStageMs := env.now, wasEstablished := true }

/-! ## Application side -/

/-- Bytes are dropped unless the peer is established. -/
def fillpPeerSend (p : FillpPeer) (data : Bytes) : FillpPeer :=
  if data.length = 0 then p
  else if p.state ≠ .established then p
  else { p with txq := p.txq ++ data, accepted := p.accepted ++ data }

/-- FIN when established, then CLOSING. -/
def fpPeerRequestClose (env : FpEnv) (p : FillpPeer) : FillpPeer :=
  if p.state = .closed ∨ p.state = .closing then p
  else
    let p := if p.state = .established then
        fpSendto p ((fillpEncodeFin (fillpHlen + fillpFinLen) 0).getD [])
      else p
    { p with state := .closing, tStageMs := env.now }

/-! ## Data plane -/

def fpDeliver (p : FillpPeer) (data : Bytes) : FillpPeer :=
  { p with delivered := p.delivered ++ [data] }

def fpSendPack (env : FpEnv) (p : FillpPeer) : FillpPeer :=
  let p := fpSendto p ((fillpEncodePack (fillpHlen + fillpPackLen) p.recvSeqNum p.recvPktNum
    p.recvSeqNum (UInt32.ofNat p.ofoBytes)).getD [])
  { p with deliveredSincePack := 0, tLastPackMs := env.now }

def fpMaybePack (env : FpEnv) (p : FillpPeer) : FillpPeer :=
  if p.deliveredSincePack = 0 then p
  else if p.deliveredSincePack < fpPackFlushBytes ∧
      env.now - p.tLastPackMs < fpPackIntervalMs then p
  else fpSendPack env p

def fpMaybeNack (env : FpEnv) (p : FillpPeer) : FillpPeer :=
  if env.now - p.tLastNackMs < fpNackIntervalMs then p
  else
    fpSendto { p with tLastNackMs := env.now }
      ((fillpEncodeNack (fillpHlen + fillpNackLen) .nack p.recvPktNum (p.recvPktNum + 2)
        p.recvSeqNum (env.rand1.toUInt64 <<< 32 ||| env.rand2.toUInt64)).getD [])

/-- The in-order branch up to `fp_deliver`, for the next packet of the stream. -/
def fpAccept (p : FillpPeer) (pktNum seqNum : UInt32) (data : Bytes) : FillpPeer :=
  fpDeliver { p with recvPktNum := pktNum, recvSeqNum := seqNum
                     deliveredSincePack := p.deliveredSincePack + data.length } data

/-- One round of the flush loop for the buffered packet `next`. -/
def fpFlushOne (p : FillpPeer) (next : FpPkt) : FillpPeer :=
  let p := { p with ofo := p.ofo.erase (p.recvPktNum + 1) }
  let p := { p with recvPktNum := next.pktNum, recvSeqNum := next.seqNum
                    deliveredSincePack := p.deliveredSincePack + next.len
                    ofoBytes := p.ofoBytes - next.len }
  fpDeliver p next.data

/-- Flush buffered packets that are now in order. Each round removes an
entry, so the table size bounds the rounds. -/
def fpFlushOfo : ℕ → FillpPeer → FillpPeer
  | 0, p => p
  | n + 1, p =>
      match p.ofo.lookup (p.recvPktNum + 1) with
      | none => p
      | some next => fpFlushOfo n (fpFlushOne p next)

/-- The gap branch: buffer the packet below the cap, then maybe NACK. -/
def fpBuffer (env : FpEnv) (p : FillpPeer) (h : FpHead) (payload : Bytes) : FillpPeer :=
  fpMaybeNack env
    (if p.ofoBytes + h.dataLen.toNat ≤ fpOfoMaxBytes then
      { p with ofo := p.ofo.insert h.pktNum
                 { pktNum := h.pktNum, seqNum := h.seqNum, len := h.dataLen.toNat
                   tSentMs := 0, data := payload }
               ofoBytes := p.ofoBytes + h.dataLen.toNat }
    else p)

/-- A DATA packet that passed the length checks. -/
def fpOnPkt (env : FpEnv) (p : FillpPeer) (h : FpHead) (payload : Bytes) : FillpPeer :=
  if !fpNumIsbigger h.pktNum p.recvPktNum then
    if env.now - p.tLastPackMs ≥ fpNackIntervalMs then fpSendPack env p else p
  else if h.pktNum = p.recvPktNum + 1 then
    let p := fpAccept p h.pktNum h.seqNum payload
    fpMaybePack env (fpFlushOfo p.ofo.entries.length p)
  else fpBuffer env p h payload

/-- The head and payload of a DATA datagram that `fp_on_data` does not drop. -/
def fpDataOf (buf : Bytes) : Option (FpHead × Bytes) :=
  match fillpDecodeHead buf with
  | none => none
  | some h =>
      if buf.length < fillpHlen + h.dataLen.toNat then none
      else if h.dataLen.toNat > fpPktDataMax then none
      else some (h, field h.dataLen.toNat fillpHlen buf)

def fpOnData (env : FpEnv) (p : FillpPeer) (buf : Bytes) : FillpPeer :=
  match fpDataOf buf with
  | none => p
  | some (h, payload) => fpOnPkt env p h payload

/-- The datagram that carries a packet. -/
def fpPktFrame (pkt : FpPkt) : Bytes :=
  fillpEncodeHead FpPktType.data.code 0 (UInt16.ofNat pkt.len) pkt.pktNum pkt.seqNum ++ pkt.data

/-- The packet lies strictly between the two numbers of a NACK. -/
def fpNackHits (n : FpNack) (pkt : FpPkt) : Bool :=
  fpNumIsbigger pkt.pktNum n.beginPkt && fpNumIsbigger n.endPkt pkt.pktNum

def fpOnNack (env : FpEnv) (p : FillpPeer) (buf : Bytes) : FillpPeer :=
  match fillpDecodeNack buf with
  | none => p
  | some n =>
      { p with
        sent := p.sent ++ (p.inflight.filter (fpNackHits n)).map fpPktFrame
        inflight := p.inflight.map fun pkt =>
          if fpNackHits n pkt then { pkt with tSentMs := env.now } else pkt }

/-- Drop packets from the front until one is ahead of the ack number. -/
def fpAckLoop (ackPkt : UInt32) : List FpPkt → ℕ → List FpPkt × ℕ
  | [], bytes => ([], bytes)
  | pkt :: rest, bytes =>
      if fpNumIsbigger pkt.pktNum ackPkt then (pkt :: rest, bytes)
      else fpAckLoop ackPkt rest (bytes - pkt.len)

def fpOnPack (p : FillpPeer) (buf : Bytes) : FillpPeer :=
  match fillpDecodePack buf with
  | none => p
  | some k =>
      { p with inflight := (fpAckLoop k.ackPkt p.inflight p.inflightBytes).1
               inflightBytes := (fpAckLoop k.ackPkt p.inflight p.inflightBytes).2 }

/-! ## Sender pump -/

/-- What the fill function does when it is called: the chunks it passes to
`fillp_peer_send`, and its return value. -/
structure FpFill where
  chunks : List Bytes
  ret : ℤ
deriving DecidableEq

/-- The pump asks for more data: the queue has room and the app is not done. -/
def fpWantsFill (p : FillpPeer) : Bool := !p.fillDone && decide (p.txq.length < fpTxqWatermark)

/-- Step 1. `none` is a peer without a fill function. -/
def fpPumpFill (fill : Option FpFill) (p : FillpPeer) : FillpPeer :=
  match fill with
  | none => p
  | some f =>
      if fpWantsFill p then
        let p := f.chunks.foldl fillpPeerSend p
        if f.ret < 0 then { p with fillDone := true } else p
      else p

/-- Step 2, the stall valve: resend the oldest inflight packet. -/
def fpPumpStall (env : FpEnv) (p : FillpPeer) : FillpPeer :=
  match p.inflight with
  | [] => p
  | oldest :: rest =>
      if env.now - oldest.tSentMs ≥ fpStallTimeoutMs then
        fpSendto { p with inflight := { oldest with tSentMs := env.now } :: rest }
          (fpPktFrame oldest)
      else p

/-- The packet made of the front of the queue. -/
def fpNextPkt (env : FpEnv) (p : FillpPeer) : FpPkt :=
  let n := min p.txq.length fpPktDataMax
  { pktNum := p.sendPktNum + 1, seqNum := p.sendSeqNum + UInt32.ofNat n, len := n
    tSentMs := env.now, data := p.txq.take n }

/-- One round of step 3. -/
def fpSendNext (env : FpEnv) (p : FillpPeer) : FillpPeer :=
  let pkt := fpNextPkt env p
  fpSendto
    { p with sendPktNum := pkt.pktNum, sendSeqNum := pkt.seqNum, txq := p.txq.drop pkt.len
             inflight := p.inflight ++ [pkt], inflightBytes := p.inflightBytes + pkt.len
             numbered := p.numbered ++ [pkt.data] }
    (fpPktFrame pkt)

/-- Step 3: packetize within the budget and the in-flight window. -/
def fpPacketize (env : FpEnv) : ℕ → FillpPeer → FillpPeer
  | 0, p => p
  | budget + 1, p =>
      if 0 < p.txq.length ∧ p.inflightBytes < fpSendCache then
        fpPacketize env budget (fpSendNext env p)
      else p

/-- The app queued its final byte and everything is acked. -/
def fpTxDrained (p : FillpPeer) : Bool :=
  p.fillDone && decide (p.txq.length = 0) && decide (p.inflight = [])

/-- Step 4. `on_tx_complete` fires when `txNotified` turns on. -/
def fpPumpTxComplete (p : FillpPeer) : FillpPeer :=
  if fpTxDrained p && !p.txNotified then { p with txNotified := true } else p

/-- Step 6: the reply FIN, once our side has drained. -/
def fpPumpReplyFin (p : FillpPeer) : FillpPeer :=
  if p.pendingFin && fpTxDrained p then
    fpSendto { p with pendingFin := false }
      ((fillpEncodeFin (fillpHlen + fillpFinLen) 0).getD [])
  else p

def fpPump (env : FpEnv) (fill : Option FpFill) (p : FillpPeer) : FillpPeer :=
  fpPumpReplyFin <| fpMaybePack env <| fpPumpTxComplete <|
    fpPacketize env fpSendBudget <| fpPumpStall env <| fpPumpFill fill p

/-! ## Datagram dispatch on a known peer, data plane -/

/-- A FIN never finalizes: the peer enters or stays in CLOSING. -/
def fpOnFin (env : FpEnv) (p : FillpPeer) : FillpPeer :=
  let p := { p with peerFin := true, pendingFin := true }
  if p.state ≠ .closing then { p with state := .closing, tStageMs := env.now } else p

/-- The DATA, NACK, PACK and FIN cases of `fp_handle_datagram`. -/
def fpDataPlane (env : FpEnv) (p : FillpPeer) (buf : Bytes) : FillpPeer :=
  match fpTypeOf buf with
  | some .data => if p.state = .established ∨ p.state = .closing then fpOnData env p buf else p
  | some .nack => if p.state = .established then fpOnNack env p buf else p
  | some .pack => if p.state = .established ∨ p.state = .closing then fpOnPack p buf else p
  | some .fin => if p.state ≠ .closed then fpOnFin env p else p
  | _ => p

end HwPhoneLink.Fillp
