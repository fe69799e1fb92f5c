import HwPhoneLink.Fillp.Link

/-!
# The fillp engine

One engine with its table of peers: the handshake, the dispatcher, the tick and
the calls of the application (`fillp_conn.c`). A peer is found by the address
its datagrams come from. Callbacks into the application are separate events;
what they may do (`fillp_peer_send`, `fillp_peer_close`) are events too.

`gone` is a history: the peers that have left the table. `hmacSha256` stands
for the HMAC that the cookie is made with.
-/

namespace HwPhoneLink.Fillp

open BigEndian Transitions

/-! ## State and events -/

structure FpAddr where
  ip : UInt32
  port : UInt16
deriving DecidableEq, Repr

structure FillpEngine where
  port : UInt16
  macKey : Bytes
  localAddr : Bytes
  peers : AList (fun _ : FpAddr => FillpPeer)
  closeInProgress : Bool
  gone : List FillpPeer

/-- `fillp_engine_new` with the random key it draws. -/
def fillpEngineNew (port : UInt16) (macKey : Bytes) : FillpEngine where
  port := port
  macKey := macKey
  localAddr := fillpAddrFillIpv4 port [0, 0, 0, 0]
  peers := ∅
  closeInProgress := false
  gone := []

inductive FpEngineEv : Type where
  | datagram (env : FpEnv) (source : FpAddr) (buf : Bytes)
  | tick (env : FpEnv) (fills : FpAddr → Option FpFill)
  | connect (env : FpEnv) (addr : FpAddr) (sendOk : Bool)
  | send (addr : FpAddr) (data : Bytes)
  | close (env : FpEnv) (addr : FpAddr)
  | shutdown

/-- Write a peer back into the table. -/
def FillpEngine.setPeer (e : FillpEngine) (a : FpAddr) (p : FillpPeer) : FillpEngine :=
  { e with peers := e.peers.insert a p }

/-- Apply a function to the peer of an address, if there is one. -/
def FillpEngine.onPeer (e : FillpEngine) (a : FpAddr) (f : FillpPeer → FillpPeer) : FillpEngine :=
  match e.peers.lookup a with
  | none => e
  | some p => e.setPeer a (f p)

/-- The peer leaves the table; its buffers are freed. -/
def fpPeerFinalize (e : FillpEngine) (a : FpAddr) : FillpEngine :=
  match e.peers.lookup a with
  | none => e
  | some p =>
      if p.state = .closed then e
      else
        { e with peers := e.peers.erase a
                 gone := e.gone ++ [{ p with state := .closed, txq := [], inflight := []
                                             inflightBytes := 0, ofo := ∅, ofoBytes := 0 }] }

/-! ## Handshake -/

def fpSendConnReqAck (env : FpEnv) (p : FillpPeer) : FillpPeer :=
  fpSendto p ((fillpEncodeConnReqAck (fillpHlen + fillpConnReqAckLen) 1 p.cookie
    env.nowUs).getD [])

def fpResendConnReq (p : FillpPeer) : FillpPeer :=
  fpSendto p ((fillpEncodeConnReq (fillpHlen + fillpConnReqLen) p.reqPreserveUs p.reqSendCache
    p.reqRecvCache p.reqTs).getD [])

def fpResendConnConfirm (localAddr : Bytes) (p : FillpPeer) : FillpPeer :=
  fpSendto p ((fillpEncodeConnConfirm (fillpHlen + fillpConnConfirmLen) p.hsTag p.cookie
    localAddr).getD [])

def fpHandleConnReqAck (env : FpEnv) (localAddr : Bytes) (p : FillpPeer) (buf : Bytes) :
    FillpPeer :=
  if p.state ≠ .pending ∨ p.isClient = false then p
  else
    match fillpDecodeConnReqAck buf with
    | none => p
    | some a =>
        let p := fpResendConnConfirm localAddr
          { p with cookie := a.cookie, hsTag := a.tagCookie, hsConfirmSent := true }
        { p with tStageMs := env.now }

def fpHandleConnConfirmAck (env : FpEnv) (p : FillpPeer) (buf : Bytes) : FillpPeer :=
  if p.state ≠ .pending ∨ p.isClient = false then p
  else
    match fillpDecodeConnConfirmAck buf with
    | none => p
    | some _ => fpPeerEstablished env p

section Handshake

-- HMAC-SHA256 of a message under a key
variable (hmacSha256 : Bytes → Bytes → Bytes)

/-- The server peer that a first CONN_REQ creates. -/
def fpServerPeer (env : FpEnv) (e : FillpEngine) (source : FpAddr) (r : FpConnReq) : FillpPeer :=
  let life := fpCookieLifetimeUs +
    (if r.cookiePreserveTimeUs > fpPreserveMaxUs then fpPreserveMaxUs
     else r.cookiePreserveTimeUs)
  let remoteAddr := fillpAddrFillIpv4 source.port (putU32 source.ip)
  { fpPeerNew env false with
    cookie := fillpCookieFill hmacSha256 e.macKey
      { genTimeUs := env.nowUs, lifeTimeUs := life, localPktSeq := env.rand1
        localMsgSeq := env.rand2, remotePktSeq := 0, remoteMsgSeq := 0
        remoteSendCache := r.sendCache, remoteRecvCache := r.recvCache
        srcPort := e.port, addrType := 2, remoteAddr := remoteAddr } e.localAddr }

def fpHandleConnReq (env : FpEnv) (e : FillpEngine) (source : FpAddr) (buf : Bytes) :
    FillpEngine :=
  match fillpDecodeConnReq buf with
  | none => e
  | some r =>
      match e.peers.lookup source with
      | some p => if p.state = .pending then e.setPeer source (fpSendConnReqAck env p) else e
      | none => e.setPeer source (fpSendConnReqAck env (fpServerPeer hmacSha256 env e source r))

def fpHandleConnConfirm (env : FpEnv) (e : FillpEngine) (p : FillpPeer) (buf : Bytes) :
    FillpPeer :=
  if p.isClient then p
  else if p.state ≠ .pending ∧ p.state ≠ .established then p
  else
    match fillpDecodeConnConfirm buf with
    | none => p
    | some c =>
        if fillpCookieVerify hmacSha256 c.cookie e.macKey e.localAddr then
          let p := fpSendto p ((fillpEncodeConnConfirmAck (fillpHlen + fillpConnConfirmAckLen)
            (UInt32.ofNat fpSendCache) (UInt32.ofNat fpRecvCache) (UInt32.ofNat fpPktDataMax)
            e.localAddr).getD [])
          if p.state = .pending then fpPeerEstablished env p else p
        else fpPeerRequestClose env p

/-! ## Dispatch -/

def fpHandleDatagram (env : FpEnv) (e : FillpEngine) (source : FpAddr) (buf : Bytes) :
    FillpEngine :=
  match fpTypeOf buf with
  | some .connReq => fpHandleConnReq hmacSha256 env e source buf
  | some .connReqAck => e.onPeer source fun p => fpHandleConnReqAck env e.localAddr p buf
  | some .connConfirm => e.onPeer source fun p => fpHandleConnConfirm hmacSha256 env e p buf
  | some .connConfirmAck => e.onPeer source fun p => fpHandleConnConfirmAck env p buf
  | some _ => e.onPeer source fun p => fpDataPlane env p buf
  | none => e

end Handshake

/-! ## Tick -/

/-- Nothing is left to send, to be acknowledged or to acknowledge. -/
def fpCloseDrained (p : FillpPeer) : Bool :=
  p.peerFin && fpTxDrained p && decide (p.deliveredSincePack = 0)

/-- The tick on one peer, and whether it is to be finalized. -/
def fpTickPeer (env : FpEnv) (localAddr : Bytes) (fill : Option FpFill) (p : FillpPeer) :
    FillpPeer × Bool :=
  match p.state with
  | .pending =>
      if env.now - p.tStageMs ≥ fpHandshakeTimeoutMs then (fpPeerRequestClose env p, false)
      else if p.isClient = true ∧ env.now - p.tHsRetransMs ≥ fpHsRetransMs then
        let p := { p with tHsRetransMs := env.now }
        (if p.hsConfirmSent then fpResendConnConfirm localAddr p else fpResendConnReq p, false)
      else (p, false)
  | .closed => (p, false)
  | _ =>
      let p := fpPump env fill p
      (p, decide (p.state = .closing) &&
        (fpCloseDrained p || decide (env.now - p.tStageMs ≥ fpCloseTimeoutMs)))

/-- One step of the first loop of the tick. -/
def fpTickOne (env : FpEnv) (fills : FpAddr → Option FpFill) (acc : FillpEngine × List FpAddr)
    (a : FpAddr) : FillpEngine × List FpAddr :=
  match acc.1.peers.lookup a with
  | none => acc
  | some p =>
      let r := fpTickPeer env acc.1.localAddr (fills a) p
      (acc.1.setPeer a r.1, if r.2 then a :: acc.2 else acc.2)

def fpOnTick (env : FpEnv) (fills : FpAddr → Option FpFill) (e : FillpEngine) : FillpEngine :=
  let r := e.peers.keys.foldl (fpTickOne env fills) (e, [])
  r.2.foldl fpPeerFinalize r.1

/-! ## Application calls -/

/-- The client peer, with the parameters of its CONN_REQ. -/
def fpClientPeer (env : FpEnv) : FillpPeer :=
  { fpPeerNew env true with
    reqPreserveUs := fpClientPreserveUs, reqSendCache := UInt32.ofNat fpSendCache
    reqRecvCache := UInt32.ofNat fpRecvCache, reqTs := env.nowUs }

/-- The table keeps one peer for each address: a second connect replaces it. -/
def fillpEngineConnect (env : FpEnv) (e : FillpEngine) (addr : FpAddr) (sendOk : Bool) :
    FillpEngine :=
  let p := if sendOk then fpResendConnReq (fpClientPeer env)
    else fpPeerRequestClose env (fpClientPeer env)
  { e.setPeer addr p with gone := e.gone ++ (e.peers.lookup addr).toList }

def fpEngineShutdown (e : FillpEngine) : FillpEngine :=
  e.peers.keys.foldl fpPeerFinalize { e with closeInProgress := true }

/-- One event. A closed engine has neither socket nor tick. -/
def FillpEngine.step (hmacSha256 : Bytes → Bytes → Bytes) (e : FillpEngine) (ev : FpEngineEv) :
    Option FillpEngine :=
  if e.closeInProgress then some e
  else some (match ev with
    | .datagram env source buf => fpHandleDatagram hmacSha256 env e source buf
    | .tick env fills => fpOnTick env fills e
    | .connect env addr sendOk => fillpEngineConnect env e addr sendOk
    | .send addr data => e.onPeer addr fun p => fillpPeerSend p data
    | .close env addr => e.onPeer addr fun p => fpPeerRequestClose env p
    | .shutdown => fpEngineShutdown e)

end HwPhoneLink.Fillp
