import HwPhoneLink.Fillp.Entry

/-!
# Peers in the store

The engine with its peers as heap objects, numbered in the order of their
creation, and the engine thread cut where other code can run: at each callback
into the application, at each round of a loop over peers and between the
dispatches of the main context. A call of another thread is one step; a close
request that it queues carries the number of the peer. `fault` is set when a
peer is touched that has been released, and nothing happens after it.

The engine thread owns its context, so a close from a callback runs at once.
For `fillp_engine_close` this means that `fp_engine_shutdown` waits for the
lock that the call still holds (`blocked`).
-/

namespace HwPhoneLink.Fillp

open BigEndian

/-! ## State -/

structure FpStatus where
  addr : FpAddr
  released : Bool
  onClosed : ℕ

/-- A peer object. `onClosed` counts the calls of the callback for it. -/
structure FpCell where
  peer : FillpPeer
  status : FpStatus

/-- A source that another thread has attached to the context. -/
inductive FpRequest : Type where
  | peerClose (p : ℕ)
  | engineClose
deriving DecidableEq

inductive FpDispatch : Type where
  | io
  | tick
  | request (r : FpRequest)
deriving DecidableEq

/-- Where the engine thread is in `fp_drain`. -/
inductive FpDrainPoint : Type where
  | receive
  | handle (source : FpAddr) (found : Option ℕ) (buf : Bytes)
  | established
  | deliver (p : ℕ)
  | flush (p : ℕ)

/-- Where it is in the first loop of `fp_on_tick`. -/
inductive FpTickPoint : Type where
  | next
  | fill (p : ℕ)
  | transmit (p : ℕ)
  | complete (p : ℕ)
  | acknowledge (p : ℕ)
  | check (p : ℕ)

/-- Where it is in a loop that finalizes peers. -/
inductive FpFinalizePoint : Type where
  | next
  | closed (p : ℕ)
  | release (p : ℕ)

/-- The engine thread between two steps, with the peers that its loops still hold. A
loop that finalizes peers is the second one of the tick or that of the shutdown. -/
inductive FpControl : Type where
  | loop
  | drain (pt : FpDrainPoint)
  | tick (env : FpEnv) (pt : FpTickPoint) (rest toFinalize : List ℕ)
  | finalize (shutdown : Bool) (pt : FpFinalizePoint) (rest : List ℕ)

/-- The application is running in a callback. -/
def FpControl.inCallback : FpControl → Bool
  | .drain .established => true
  | .drain (.deliver _) => true
  | .tick _ (.fill _) _ _ => true
  | .tick _ (.complete _) _ _ => true
  | .finalize _ (.closed _) _ => true
  | _ => false

structure FpStore where
  cells : List FpCell
  table : AList (fun _ : FpAddr => ℕ)
  threadStarted : Bool
  threadDone : Bool
  closeRequested : Bool
  closeInProgress : Bool
  -- the context: sources attached, and what the current iteration has left to dispatch
  queue : List FpRequest
  todo : List FpDispatch
  quit : Bool
  control : FpControl
  blocked : Bool
  fault : Bool

inductive FpCall : Type where
  | peerClose (p : ℕ)
  | engineClose
  | connect (addr : FpAddr) (sendOk : Bool)
  | send (p : ℕ) (data : Bytes)

inductive FpStoreEv : Type where
  -- calls, from another thread or from a callback on the engine thread
  | call (env : FpEnv) (c : FpCall)
  | callback (env : FpEnv) (c : FpCall)
  -- the engine thread
  | start
  | poll (io tick : Bool)
  | dispatch (env : FpEnv) (order : List ℕ)
  | datagram (source : FpAddr) (buf : Bytes)
  | wouldBlock
  | step (env : FpEnv)
  | ret (r : ℤ)
  | finish

/-! ## Access -/

/-- The record of a peer that has not been released. -/
def FpStore.live (s : FpStore) (p : ℕ) : Option FillpPeer :=
  match s.cells[p]? with
  | none => none
  | some c => if c.status.released then none else some c.peer

/-- Touch a peer: go on with its record. -/
def FpStore.touch (s : FpStore) (p : ℕ) (k : FillpPeer → FpStore) : FpStore :=
  match s.live p with
  | none => { s with fault := true }
  | some q => k q

def FpStore.write (s : FpStore) (p : ℕ) (q : FillpPeer) : FpStore :=
  { s with cells := s.cells.modify p fun c => { c with peer := q } }

def FpStore.setStatus (s : FpStore) (p : ℕ) (f : FpStatus → FpStatus) : FpStore :=
  { s with cells := s.cells.modify p fun c => { c with status := f c.status } }

def FpStore.goto (s : FpStore) (control : FpControl) : FpStore := { s with control := control }

/-- A new peer, under its address. -/
def FpStore.create (s : FpStore) (addr : FpAddr) (q : FillpPeer) : FpStore :=
  { s with cells := s.cells ++ [⟨q, ⟨addr, false, 0⟩⟩]
           table := s.table.insert addr s.cells.length }

/-- `g_hash_table_get_values`, in some order. -/
def FpStore.values (s : FpStore) : List ℕ := s.table.entries.map Sigma.snd

/-! ## Calls -/

def FpStore.peerClose (env : FpEnv) (onThread : Bool) (s : FpStore) (p : ℕ) : FpStore :=
  s.touch p fun q =>
    if q.state = .closed ∨ q.state = .closing ∨ s.threadDone then s
    else if s.threadStarted ∧ onThread = false then
      { s with queue := s.queue ++ [.peerClose p] }
    else s.write p (fpPeerRequestClose env q)

def FpStore.engineClose (onThread : Bool) (s : FpStore) : FpStore :=
  if s.closeRequested ∨ s.threadDone then s
  else
    let s := { s with closeRequested := true }
    if s.threadStarted then
      if onThread then { s with closeInProgress := true, blocked := true }
      else { s with queue := s.queue ++ [.engineClose] }
    else s

/-- The close after a failed send is a call of its own. -/
def FpStore.connect (env : FpEnv) (s : FpStore) (addr : FpAddr) (sendOk : Bool) : FpStore :=
  if s.closeRequested ∨ s.threadDone then s
  else s.create addr (if sendOk then fpResendConnReq (fpClientPeer env) else fpClientPeer env)

/-- `on_closed` has not fired. -/
def FpStore.open? (s : FpStore) (p : ℕ) : Bool :=
  match s.cells[p]? with
  | none => false
  | some c => c.status.onClosed == 0

/-- A call. The application uses a peer only before its `on_closed`, and sends only on
the engine thread. -/
def FpStore.call (env : FpEnv) (onThread : Bool) (s : FpStore) : FpCall → Option FpStore
  | .peerClose p => if s.open? p then some (s.peerClose env onThread p) else none
  | .engineClose => some (s.engineClose onThread)
  | .connect addr sendOk => some (s.connect env addr sendOk)
  | .send p data =>
      if s.open? p ∧ onThread then some (s.touch p fun q => s.write p (fillpPeerSend q data))
      else none

/-! ## The engine thread -/

section Thread

-- the engine is read for its keys and addresses
variable (hmacSha256 : Bytes → Bytes → Bytes) (engine : FillpEngine)

/-- `fp_on_data` up to the first callback. -/
def FpStore.onData (env : FpEnv) (s : FpStore) (p : ℕ) (q : FillpPeer) (h : FpHead)
    (payload : Bytes) : FpStore :=
  if fpNumIsbigger h.pktNum q.recvPktNum ∧ h.pktNum = q.recvPktNum + 1 then
    (s.write p (fpAccept q h.pktNum h.seqNum payload)).goto (.drain (.deliver p))
  else (s.write p (fpOnPkt env q h payload)).goto (.drain .receive)

/-- `fp_handle_datagram` after the lookup. -/
def FpStore.handle (env : FpEnv) (s : FpStore) (source : FpAddr) (found : Option ℕ)
    (buf : Bytes) : FpStore :=
  match found with
  | none =>
      match fpAdmit hmacSha256 env engine source buf with
      | none => s.goto (.drain .receive)
      | some q => (s.create source q).goto (.drain .receive)
  | some p =>
      s.touch p fun q =>
        if fpTypeOf buf = some .data then
          if q.state = .established ∨ q.state = .closing then
            match fpDataOf buf with
            | none => s.goto (.drain .receive)
            | some (h, payload) => s.onData env p q h payload
          else s.goto (.drain .receive)
        else
          let q' := fpReceive hmacSha256 env engine q buf
          (s.write p q').goto (.drain
            (if q.state = .pending ∧ q'.state = .established then .established else .receive))

/-- One round of the flush loop of `fp_on_data`, or its end. -/
def FpStore.flush (env : FpEnv) (s : FpStore) (p : ℕ) : FpStore :=
  s.touch p fun q =>
    match q.ofo.lookup (q.recvPktNum + 1) with
    | none => (s.write p (fpMaybePack env q)).goto (.drain .receive)
    | some next => (s.write p (fpFlushOne q next)).goto (.drain (.deliver p))

/-- Steps 2 to 4 of `fp_pump`. -/
def fpPumpTransmit (env : FpEnv) (q : FillpPeer) : FillpPeer :=
  fpPacketize env fpSendBudget (fpPumpStall env q)

/-- A step in the first loop of `fp_on_tick`, which read its clock in `tickEnv`. -/
def FpStore.tickStep (env tickEnv : FpEnv) (s : FpStore) (pt : FpTickPoint)
    (rest toFinalize : List ℕ) : FpStore :=
  match pt with
  | .next =>
      match rest with
      | [] => s.goto (.finalize false .next toFinalize)
      | p :: rest =>
          s.touch p fun q =>
            match q.state with
            | .pending =>
                (s.write p (fpTickPeer tickEnv engine.localAddr none q).1).goto
                  (.tick tickEnv .next rest toFinalize)
            | .closed => s.goto (.tick tickEnv .next rest toFinalize)
            | _ => s.goto (.tick tickEnv (if fpWantsFill q then .fill p else .transmit p) rest
                toFinalize)
  | .transmit p =>
      s.touch p fun q =>
        let q := fpPumpTransmit tickEnv q
        (s.write p (fpPumpTxComplete q)).goto
          (.tick tickEnv (if fpTxDrained q && !q.txNotified then .complete p else .acknowledge p)
            rest toFinalize)
  | .acknowledge p =>
      s.touch p fun q =>
        (s.write p (fpPumpReplyFin (fpMaybePack env q))).goto
          (.tick tickEnv (.check p) rest toFinalize)
  | .check p =>
      s.touch p fun q =>
        s.goto (.tick tickEnv .next rest
          (if q.state = .closing ∧
            (fpCloseDrained q ∨ tickEnv.now - q.tStageMs ≥ fpCloseTimeoutMs) then p :: toFinalize
          else toFinalize))
  -- these two are callbacks
  | .fill _ => s
  | .complete _ => s

/-- The record that is left of a finalized peer. -/
def fpFinalized (q : FillpPeer) : FillpPeer :=
  { q with state := .closed, txq := [], inflight := [], inflightBytes := 0, ofo := ∅, ofoBytes := 0 }

/-- `fp_peer_finalize` up to the callback. -/
def FpStore.fireClosed (s : FpStore) (p : ℕ) (q : FillpPeer) : FpStore :=
  (s.write p (fpFinalized q)).setStatus p fun st => { st with onClosed := st.onClosed + 1 }

/-- `fp_peer_finalize` after the callback: the key leaves the table, the object is freed. -/
def FpStore.release (s : FpStore) (p : ℕ) : FpStore :=
  match s.cells[p]? with
  | none => s
  | some c =>
      { s.setStatus p fun st => { st with released := true } with
        table := s.table.erase c.status.addr }

/-- A step in a loop over `fp_peer_finalize`. -/
def FpStore.finalizeStep (s : FpStore) (shutdown : Bool) (pt : FpFinalizePoint)
    (rest : List ℕ) : FpStore :=
  match pt with
  | .next =>
      match rest with
      | [] => { s with quit := s.quit || shutdown, control := .loop }
      | p :: rest =>
          s.touch p fun q =>
            if q.state = .closed then s.goto (.finalize shutdown .next rest)
            else (s.fireClosed p q).goto (.finalize shutdown (.closed p) rest)
  | .release p => s.touch p fun _ => (s.release p).goto (.finalize shutdown .next rest)
  -- this is a callback
  | .closed _ => s

/-- A step of the engine thread outside callbacks. -/
def FpStore.threadStep (env : FpEnv) (s : FpStore) : Option FpStore :=
  if s.control.inCallback then none
  else
    match s.control with
    | .loop => none
    | .drain .receive => none
    | .drain (.handle source found buf) => some (s.handle hmacSha256 engine env source found buf)
    | .drain (.flush p) => some (s.flush env p)
    | .drain _ => none
    | .tick tickEnv pt rest toFinalize =>
        some (s.tickStep engine env tickEnv pt rest toFinalize)
    | .finalize shutdown pt rest => some (s.finalizeStep shutdown pt rest)

/-- A callback returns. What it returns is read of the fill function only. -/
def FpStore.callbackReturn (s : FpStore) (r : ℤ) : Option FpStore :=
  match s.control with
  | .drain .established => some (s.goto (.drain .receive))
  | .drain (.deliver p) => some (s.goto (.drain (.flush p)))
  | .tick tickEnv (.fill p) rest toFinalize =>
      some (s.touch p fun q => (s.write p (if r < 0 then { q with fillDone := true } else q)).goto
        (.tick tickEnv (.transmit p) rest toFinalize))
  | .tick tickEnv (.complete p) rest toFinalize =>
      some (s.goto (.tick tickEnv (.acknowledge p) rest toFinalize))
  | .finalize shutdown (.closed p) rest => some (s.goto (.finalize shutdown (.release p) rest))
  | _ => none

/-- The context dispatches its next source. A destroyed source is passed over. -/
def FpStore.dispatch (env : FpEnv) (s : FpStore) (order : List ℕ) : Option FpStore :=
  match s.control, s.todo with
  | .loop, d :: rest =>
      let s := { s with todo := rest }
      match d with
      | .io => if s.closeInProgress then some s else some (s.goto (.drain .receive))
      | .tick =>
          if s.closeInProgress then some s
          else if order.Perm s.values then some (s.goto (.tick env .next order [])) else none
      | .request (.peerClose p) =>
          some (s.touch p fun q => s.write p (fpPeerRequestClose env q))
      | .request .engineClose =>
          if s.closeInProgress then some s
          else if order.Perm s.values then
            some { s with closeInProgress := true, control := .finalize true .next order }
          else none
  | _, _ => none

/-- The next iteration of the main loop: the socket, the tick, then the requests in the
order in which they were attached. -/
def FpStore.poll (s : FpStore) (io tick : Bool) : Option FpStore :=
  match s.control, s.todo with
  | .loop, [] =>
      if s.threadStarted ∧ s.quit = false then
        some { s with
          todo := (if io then [.io] else []) ++ (if tick then [.tick] else []) ++
            s.queue.map .request
          queue := [] }
      else none
  | _, _ => none

/-- `fp_engine_thread` up to the main loop. -/
def FpStore.start (s : FpStore) : Option FpStore :=
  if s.threadStarted ∨ s.threadDone then none
  else if s.closeRequested then some { s with table := ∅, threadDone := true }
  else some { s with threadStarted := true }

/-- `fp_engine_teardown` after the main loop. -/
def FpStore.finish (s : FpStore) : Option FpStore :=
  match s.control, s.todo with
  | .loop, [] =>
      if s.threadStarted ∧ s.quit then
        some { s with table := ∅, queue := [], threadStarted := false, threadDone := true }
      else none
  | _, _ => none

def FpStore.step (s : FpStore) (e : FpStoreEv) : Option FpStore :=
  if s.fault ∨ s.blocked then none
  else
    match e with
    | .call env c => s.call env false c
    | .callback env c => if s.control.inCallback then s.call env true c else none
    | .start => s.start
    | .poll io tick => s.poll io tick
    | .dispatch env order => s.dispatch env order
    | .datagram source buf =>
        match s.control with
        | .drain .receive =>
            some (s.goto (.drain (.handle source (s.table.lookup source) buf)))
        | _ => none
    | .wouldBlock =>
        match s.control with
        | .drain .receive => some (s.goto .loop)
        | _ => none
    | .step env => s.threadStep hmacSha256 engine env
    | .ret r => s.callbackReturn r
    | .finish => s.finish

end Thread

/-! ## The pieces and the whole -/

/-- The pump of a tick whose callbacks do nothing else. -/
theorem fpPump_pieces (env : FpEnv) (fill : Option FpFill) (q : FillpPeer) :
    fpPump env fill q = fpPumpReplyFin (fpMaybePack env
      (fpPumpTxComplete (fpPumpTransmit env (fpPumpFill fill q)))) := rfl

end HwPhoneLink.Fillp
