import HwPhoneLink.Fillp.Peer
import HwPhoneLink.Lib.Framing
import HwPhoneLink.Lib.Path
import HwPhoneLink.Testfile.Verify
import HwPhoneLink.Vtp.Frame
import Mathlib.Data.List.Infix

/-!
# A VTP file session

`stream_file.c`: one file out and one file in over a fillp peer. The session
record has the fields of the source; what a call reads from its surroundings
(random nonce, clock, the results of the file calls) is an argument.

`written`, `rxMeta` and `done` are histories: the bytes of the `pwrite` calls,
which follow each other without a gap, the calls of `on_rx_meta` and the calls
of `on_done`.
-/

namespace HwPhoneLink.Stream

open BigEndian HwPhoneLink.Fillp HwPhoneLink.Testfile HwPhoneLink.Vtp

def sfVtpChunk : ℕ := 32768

inductive SfRxState : Type where
  | wait | data | done | failed
deriving DecidableEq, Repr

inductive SfTxState : Type where
  | idle | active | done | failed
deriving DecidableEq, Repr

/-- One call of `on_done`. -/
structure SfDone where
  isSend : Bool
  ok : Bool
  message : String
deriving DecidableEq

structure StreamFile where
  key : Bytes
  recvDir : Option Bytes
  closed : Bool
  -- receive
  rxbuf : Bytes
  rxState : SfRxState
  rxTotal : UInt64
  rxReceived : UInt64
  rxName : Bytes
  rxPath : Bytes
  rxExpectedSha : Option Bytes
  rxFdOpen : Bool
  rxSha : Bytes
  -- send
  txState : SfTxState
  txWire : Bytes
  txFdOpen : Bool
  txTotal : ℕ
  txOffset : ℕ
  txMetaSent : Bool
  -- histories
  written : Bytes
  rxMeta : List (Bytes × UInt64)
  done : List SfDone

def streamFileNew (key : Bytes) : StreamFile where
  key := key
  recvDir := none
  closed := false
  rxbuf := []
  rxState := .wait
  rxTotal := 0
  rxReceived := 0
  rxName := []
  rxPath := []
  rxExpectedSha := none
  rxFdOpen := false
  rxSha := []
  txState := .idle
  txWire := []
  txFdOpen := false
  txTotal := 0
  txOffset := 0
  txMetaSent := false
  written := []
  rxMeta := []
  done := []

/-! ## Failure -/

def sfReport (sf : StreamFile) (isSend ok : Bool) (message : String) : StreamFile :=
  { sf with done := sf.done ++ [⟨isSend, ok, message⟩] }

/-- The receive half of `sf_fail`. -/
def sfFailRx (sf : StreamFile) (why : String) : StreamFile :=
  match sf.rxState with
  | .wait =>
      if sf.recvDir.isSome then sfReport { sf with rxState := .failed } false false why else sf
  | .data => sfReport { sf with rxState := .failed } false false why
  | _ => sf

def sfFail (sf : StreamFile) (why : String) : StreamFile :=
  let sf := sfFailRx sf why
  if sf.txState = .active then sfReport { sf with txState := .failed } true false why else sf

/-! ## Send -/

/-- What a call of the fill function reads: the nonce, the clock and the result
of `pread` at an offset (`none` on error). -/
structure SfFillEnv where
  nonce : Option Bytes
  nonce_length : ∀ n, nonce = some n → n.length = vtpNonceLen
  timestamp : UInt32
  pread : ℕ → Option Bytes

/-- The frame handed to `fillp_peer_send`, `none` if none could be built. -/
def sfSendFrame (aead : Aead) (env : SfFillEnv) (sf : StreamFile) (data : Bytes) : Option Bytes :=
  vtpBuildCommonFrame aead env.nonce (vtpCommonFrameSize data.length) sf.key vtpModeCommon 0 0
    env.timestamp data

/-- `[u64 total][u16 name_len][name]` -/
def sfMetadata (sf : StreamFile) : Bytes :=
  putU64 (UInt64.ofNat sf.txTotal) ++ (putU16 (UInt16.ofNat sf.txWire.length) ++ sf.txWire)

/-- The fill function: the session after it, and what it did to the peer. -/
def sfFill (aead : Aead) (env : SfFillEnv) (sf : StreamFile) : StreamFile × FpFill :=
  if sf.txState ≠ .active then (sf, ⟨[], if sf.txState = .done then -1 else 0⟩)
  else if !sf.txMetaSent then
    match sfSendFrame aead env sf (sfMetadata sf) with
    | none => (sfFail sf "VTP metadata frame build failed", ⟨[], 0⟩)
    | some frame => ({ sf with txMetaSent := true }, ⟨[frame], frame.length⟩)
  else if !sf.txFdOpen then (sf, ⟨[], -1⟩)
  else
    match env.pread sf.txOffset with
    | none => (sfFail sf "send file read error", ⟨[], 0⟩)
    | some [] => (sf, ⟨[], -1⟩)
    | some chunk =>
        match sfSendFrame aead env sf chunk with
        | none => (sfFail sf "VTP frame build failed", ⟨[], 0⟩)
        | some frame => ({ sf with txOffset := sf.txOffset + chunk.length },
            ⟨[frame], frame.length⟩)

def sfOnTxComplete (sf : StreamFile) : StreamFile :=
  if sf.closed then sf
  else if sf.txState ≠ .active then sf
  else sfReport { sf with txState := .done } true true (toString sf.txTotal ++ " bytes sent and acked")

/-! ## Receive -/

/-- What the file calls of the receiver return: whether `open` succeeds, how
many bytes `pwrite` writes of a length at an offset, and whether the file can be
read back. -/
structure SfIo where
  openOk : Bool
  pwrite : ℕ → ℕ → ℕ
  readable : Bool

/-- The name check of the metadata frame; `nameLen` is the length on the wire. -/
def sfNameRejected (name : Bytes) (nameLen : ℕ) : Bool :=
  decide (nameLen = 0) || name.contains Path.slash || decide ([Path.dot, Path.dot] <:+: name) ||
    decide (name.head? = some Path.dot)

/-- A name that is accepted stays in the directory. -/
theorem directlyInside_of_accepted {name : Bytes} {nameLen : ℕ} (hne : name ≠ [])
    (h : sfNameRejected name nameLen = false) (cwd : List Bytes) (dir : Bytes) :
    Path.DirectlyInside cwd dir (Path.join dir name) := by
  rw [Path.directlyInside_join]
  simp only [sfNameRejected, Bool.or_eq_false_iff, decide_eq_false_iff_not] at h
  obtain ⟨⟨⟨-, hslash⟩, hup⟩, hhidden⟩ := h
  refine Path.ComesBack.of_plain hne ?_ ?_ ?_
  · intro hmem
    rw [List.contains_iff_mem.mpr hmem] at hslash
    cases hslash
  · rintro rfl
    exact hhidden rfl
  · rintro rfl
    exact hup (List.infix_refl _)

section Receive

-- the digest of a byte string as lowercase hex
variable (sha256Hex : Bytes → Bytes)

/-- The metadata frame, with `out` its payload. -/
def sfProcessMeta (io : SfIo) (sf : StreamFile) (out : Bytes) : StreamFile × Bool :=
  match sf.recvDir with
  | none => (sfFail sf "metadata frame invalid or no recv dir", false)
  | some dir =>
      if out.length < 10 then (sfFail sf "metadata frame invalid or no recv dir", false)
      else
        let total := u64At out 0
        let nameLen := (u16At out 8).toNat
        if out.length ≠ 10 + nameLen then (sfFail sf "metadata frame size mismatch", false)
        else
          let name := Path.cString (field nameLen 10 out)
          if sfNameRejected name nameLen then (sfFail sf "bad received file name", false)
          else
            let sf := { sf with rxName := name }
            if !io.openOk then (sfFail sf "cannot open received file", false)
            else
              let sf := { sf with
                rxPath := Path.join dir name, rxFdOpen := true, rxSha := [], rxTotal := total
                rxReceived := 0, written := []
                rxExpectedSha := (h264TestfileNameSha name).or (ftTestfileNameSha name)
                rxState := .data }
              ({ sf with rxMeta := sf.rxMeta ++ [(name, total)] }, true)

/-- The verdict on a completely received file. -/
def sfVerify (io : SfIo) (sf : StreamFile) : Bool × String :=
  if ascii ".h264" <:+ sf.rxName then
    let r := h264TestfileVerify sha256Hex (if io.readable then some sf.written else none) sf.rxName
    if r.1 then (true, r.2.getD "") else (false, r.2.getD "h264 verify failed")
  else
    match sf.rxExpectedSha with
    | some expected =>
        let hex := sha256Hex sf.rxSha
        if hex = expected then (true, "sha ok")
        else (false, "sha mismatch: got " ++ text hex ++ " want " ++ text expected)
    | none => (true, "sha unchecked (non-conventional name)")

/-- The completion test at the end of a data frame. -/
def sfComplete (io : SfIo) (sf : StreamFile) : StreamFile :=
  if sf.rxReceived = sf.rxTotal then
    let sf := { sf with rxFdOpen := false }
    let r := sfVerify sha256Hex io sf
    sfReport { sf with rxState := .done } false r.1 r.2
  else sf

/-- A data frame, with `out` its payload. -/
def sfProcessChunk (io : SfIo) (sf : StreamFile) (out : Bytes) : StreamFile × Bool :=
  if 0 < out.length then
    if sf.rxReceived + UInt64.ofNat out.length > sf.rxTotal then
      (sfFail sf "received more bytes than declared total", false)
    else
      let w := io.pwrite sf.rxReceived.toNat out.length
      let sf := { sf with written := sf.written ++ out.take w }
      if w ≠ out.length then (sfFail sf "received file write error", false)
      else
        (sfComplete sha256Hex io
          { sf with rxSha := sf.rxSha ++ out
                    rxReceived := sf.rxReceived + UInt64.ofNat out.length }, true)
  else (sfComplete sha256Hex io sf, true)

/-- One frame at the front of the buffer. `false` is a fatal frame error. -/
def sfProcessFrame (aead : Aead) (io : SfIo) (sf : StreamFile) (frame : Bytes) (frameTotal : ℕ) :
    StreamFile × Bool :=
  if sf.rxState = .done ∨ sf.rxState = .failed then (sf, true)
  else
    match vtpParseCommonFrame aead frame frameTotal sf.key sfVtpChunk with
    | none => (sfFail sf "bad VTP frame (GCM tag or size mismatch)", false)
    | some f =>
        if sf.rxState = .wait then sfProcessMeta io sf f.data
        else sfProcessChunk sha256Hex io sf f.data

/-- How much of the buffer the loop takes off after a frame; the sums are
32-bit. -/
def sfCut (buf : Bytes) : Option ℕ :=
  if buf.length < 4 then none
  else
    let n := (u32At buf 0).toNat
    if buf.length < (4 + n) % 2 ^ 32 then none else some ((4 + n) % 2 ^ 32)

/-- The body of the loop. `frame_total` is not reduced to 32 bits. -/
def sfHandle (aead : Aead) (io : SfIo) (sf : StreamFile) (buf : Bytes) : StreamFile × Bool :=
  sfProcessFrame sha256Hex aead io sf buf (4 + (u32At buf 0).toNat)

def sfStopped (sf : StreamFile) : Bool :=
  decide (sf.rxState = .failed) || decide (sf.rxState = .done)

/-- Contiguous stream bytes: reassemble and process frames. -/
def sfOnData (aead : Aead) (io : SfIo) (sf : StreamFile) (data : Bytes) : StreamFile :=
  if sf.closed then sf
  else
    let r := Framing.feed sfCut (sfHandle sha256Hex aead io) sfStopped (sf, sf.rxbuf) data
    { r.1 with rxbuf := r.2 }

end Receive

/-! ## Public calls -/

/-- `size` is the size of the regular file at the path, `none` if it cannot be
opened. `false` is the error return. -/
def streamFileStartSend (sf : StreamFile) (size : Option ℕ) (wireName : Bytes) :
    StreamFile × Bool :=
  if sf.closed then (sf, false)
  else if sf.txState ≠ .idle then (sf, false)
  else
    match size with
    | none => (sf, false)
    | some total =>
        ({ sf with txFdOpen := true, txWire := wireName, txTotal := total, txOffset := 0
                   txMetaSent := false, txState := .active }, true)

theorem streamFileStartSend_ok {sf sf' : StreamFile} {size : Option ℕ} {wireName : Bytes}
    (h : streamFileStartSend sf size wireName = (sf', true)) :
    ∃ total, size = some total ∧
      sf' = { sf with txFdOpen := true, txWire := wireName, txTotal := total, txOffset := 0
                      txMetaSent := false, txState := .active } := by
  unfold streamFileStartSend at h
  split at h
  · cases h
  split at h
  · cases h
  split at h
  · cases h
  · exact ⟨_, rfl, (congrArg Prod.fst h).symm⟩

end HwPhoneLink.Stream
