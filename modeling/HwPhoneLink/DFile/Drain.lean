import HwPhoneLink.DFile.Reset
import HwPhoneLink.Lib.Greedy

/-!
# The frames of a DFile stream

`dc_drain` handles the frames of the greedy parse of everything the connection
has received, in whatever reads it came and whatever happens in between.
-/

namespace HwPhoneLink.DFile

open BigEndian Path Framing Transitions HwPhoneLink.Testfile

/-! ## Cutting -/

/-- The header is in the first eight bytes. -/
theorem dfileFrameHeaderUnpack_append {buf : Bytes} (h : dfileFrameHeaderLen ≤ buf.length)
    (more : Bytes) : dfileFrameHeaderUnpack (buf ++ more) = dfileFrameHeaderUnpack buf := by
  have hshort : ¬ buf.length < dfileFrameHeaderLen := Nat.not_lt.mpr h
  have hshort' : ¬ (buf ++ more).length < dfileFrameHeaderLen := by
    rw [List.length_append]
    exact Nat.not_lt.mpr (Nat.le_add_right_of_le h)
  have hfield : ∀ {n off : ℕ}, off + n ≤ dfileFrameHeaderLen →
      field n off (buf ++ more) = field n off buf := fun hn =>
    field_append_left (Nat.le_trans hn h) more
  unfold dfileFrameHeaderUnpack u8At u16At
  rw [if_neg hshort, if_neg hshort', hfield (by decide), hfield (by decide), hfield (by decide),
    hfield (by decide), hfield (by decide)]

theorem dfileFrameHeaderUnpack_long {buf : Bytes}
    (h : dfileFrameHeaderUnpack buf ≠ .incomplete) : dfileFrameHeaderLen ≤ buf.length := by
  by_contra hshort
  exact h (by rw [dfileFrameHeaderUnpack, if_pos (Nat.not_le.mp hshort)])

/-- A corrupt header, or a complete frame. -/
theorem dcCut_some {buf : Bytes} {k : ℕ} (h : dcCut buf = some k) :
    (dfileFrameHeaderUnpack buf = .invalid ∧ k = 0) ∨
      ∃ head, dfileFrameHeaderUnpack buf = .ok head ∧
        k = dfileFrameHeaderLen + head.length.toNat ∧ k ≤ buf.length := by
  unfold dcCut at h
  split at h
  · cases h
  · rename_i hhead
    exact Or.inl ⟨hhead, (Option.some.inj h).symm⟩
  · rename_i head hhead
    by_cases hlen : buf.length < dfileFrameHeaderLen + head.length.toNat
    · simp only [if_pos hlen] at h
      cases h
    · simp only [if_neg hlen] at h
      cases h
      exact Or.inr ⟨head, hhead, rfl, Nat.not_lt.mp hlen⟩

theorem dcCut_stable : StableCut dcCut where
  le := by
    intro buf k h
    rcases dcCut_some h with ⟨-, rfl⟩ | ⟨head, -, -, hle⟩
    · exact Nat.zero_le _
    · exact hle
  more := by
    intro buf k h more
    rcases dcCut_some h with ⟨hhead, rfl⟩ | ⟨head, hhead, rfl, hle⟩
    · have hlong := dfileFrameHeaderUnpack_long (by rw [hhead]; exact DFileUnpack.noConfusion)
      rw [dcCut, dfileFrameHeaderUnpack_append hlong, hhead]
    · have hlong := dfileFrameHeaderUnpack_long (by rw [hhead]; exact DFileUnpack.noConfusion)
      rw [dcCut, dfileFrameHeaderUnpack_append hlong, hhead]
      have hmore : ¬ (buf ++ more).length < dfileFrameHeaderLen + head.length.toNat := by
        rw [List.length_append]
        exact Nat.not_lt.mpr (Nat.le_add_right_of_le hle)
      simp only [if_neg hmore]

theorem dcCut_nil : dcCut [] = none := rfl

theorem shutdownCommon_stopped (env : DcEnv) (reason : String) (c : DFileConn) :
    (shutdownCommon env reason c).stopped = true := by
  rw [DFileConn.stopped, shutdownCommon_state, decide_eq_true rfl, Bool.or_true]

theorem dcHandle_frame (env : DcEnv) (c : DFileConn) {buf : Bytes} {k : ℕ}
    (h : dcCut buf = some k) (hk : 0 < k) :
    dcHandle env c buf = (handleFrame env (buf.take k) c,
      !(handleFrame env (buf.take k) c).stopped) := by
  rcases dcCut_some h with ⟨-, rfl⟩ | ⟨head, hhead, rfl, -⟩
  · exact absurd hk (Nat.lt_irrefl 0)
  · simp only [dcHandle, hhead]

theorem dcHandle_corrupt (env : DcEnv) (c : DFileConn) {buf : Bytes} (h : dcCut buf = some 0) :
    dcHandle env c buf = (shutdownCommon env "corrupt frame header" c, false) := by
  rcases dcCut_some h with ⟨hhead, -⟩ | ⟨head, -, hlen, -⟩
  · simp only [dcHandle, hhead]
  · exact absurd hlen.symm (Nat.ne_of_gt (Nat.add_pos_left (by decide) _))

/-- The front frame alone is cut off the same. -/
theorem dcCut_take {buf : Bytes} {k : ℕ} (h : dcCut buf = some k) (hk : 0 < k) :
    dcCut (buf.take k) = some k := by
  rcases dcCut_some h with ⟨-, rfl⟩ | ⟨head, hhead, hlen, hle⟩
  · exact absurd hk (Nat.lt_irrefl 0)
  have htake : (buf.take k).length = k := List.length_take_of_le hle
  have hlong : dfileFrameHeaderLen ≤ (buf.take k).length := by
    rw [htake, hlen]
    exact Nat.le_add_right _ _
  have hunpack := dfileFrameHeaderUnpack_append hlong (buf.drop k)
  rw [List.take_append_drop, hhead] at hunpack
  have hwhole : ¬ (buf.take k).length < dfileFrameHeaderLen + head.length.toNat := by
    rw [htake, hlen]
    exact Nat.lt_irrefl _
  rw [dcCut, ← hunpack]
  simp only [if_neg hwhole]
  rw [hlen]

theorem dcHandle_frames (env : DcEnv) :
    FrameHandler dcCut (dcHandle env) DFileConn.stopped where
  front := by
    intro c buf k h hk
    rw [dcHandle_frame env c h hk, dcHandle_frame env c (dcCut_take h hk) hk, List.take_take,
      Nat.min_self]
  goes := by
    intro c buf k h hk
    rw [dcHandle_frame env c h hk]
  gives := by
    intro c buf h
    rw [dcHandle_corrupt env c h]
    exact ⟨rfl, shutdownCommon_stopped env _ c⟩

/-! ## What a read leaves -/

section
variable (env : DcEnv) (c : DFileConn)

@[simp] theorem emit_rxbuf (e : DcEvent) : (c.emit e).rxbuf = c.rxbuf := rfl

theorem setTrans_rxbuf (isSender : Bool) (t : DCTrans) : (c.setTrans isSender t).rxbuf = c.rxbuf := by
  cases isSender <;> rfl

theorem andThen_rxbuf {k : DFileConn → DFileConn} (hk : ∀ c, (k c).rxbuf = c.rxbuf) :
    (c.andThen k).rxbuf = c.rxbuf := by
  unfold DFileConn.andThen
  split
  · rfl
  · exact hk c

theorem whileOpen_rxbuf {k : DFileConn → DFileConn} (hk : ∀ c, (k c).rxbuf = c.rxbuf) :
    (c.whileOpen k).rxbuf = c.rxbuf := by
  unfold DFileConn.whileOpen
  split
  · rfl
  · exact hk c

@[simp] theorem dcSendRst_rxbuf (transId code : UInt16) (ids : List UInt16) :
    (dcSendRst env transId code ids c).rxbuf = c.rxbuf := by
  unfold dcSendRst
  split <;> rfl

/-- Failing a transfer keeps what the transfers, the sends and the callbacks leave. -/
theorem transFail_keeps {α : Type} (π : DFileConn → α)
    (hsend : ∀ c f, π (dcSend env c f).1 = π c) (htrans : ∀ c b t, π (DFileConn.setTrans c b t) = π c)
    (hemit : ∀ c e, π (DFileConn.emit c e) = π c) (isSender : Bool) (reason : String)
    (sendRst : Bool) : π (transFail env isSender reason sendRst c) = π c := by
  have hrst : ∀ c transId, π (dcSendRst env transId dfileRstCancel [] c) = π c := by
    intro c transId
    unfold dcSendRst
    split
    · rfl
    · exact hsend c _
  have hlast : ∀ c e, π (DFileConn.andThen c fun c => c.emit e) = π c := by
    intro c e
    unfold DFileConn.andThen
    split
    · rfl
    · exact hemit c e
  unfold transFail
  split
  · rfl
  split
  · rfl
  simp only
  rw [hlast]
  split
  · rw [hrst, htrans]
  · rw [htrans]

@[simp] theorem transFail_rxbuf (isSender : Bool) (reason : String) (sendRst : Bool) :
    (transFail env isSender reason sendRst c).rxbuf = c.rxbuf :=
  transFail_keeps env c DFileConn.rxbuf (fun _ _ => rfl) setTrans_rxbuf (fun _ _ => rfl) _ _ _

/-- A failure that ends a C function. -/
theorem andFail_rxbuf (isSender : Bool) (reason : String) (sendRst : Bool) :
    (c.andThen (transFail env isSender reason sendRst)).rxbuf = c.rxbuf :=
  andThen_rxbuf c fun c => transFail_rxbuf env c isSender reason sendRst

@[simp] theorem shutdownCommon_rxbuf (reason : String) :
    (shutdownCommon env reason c).rxbuf = c.rxbuf := by
  unfold shutdownCommon
  split
  · rfl
  · simp

/-- The connection in the result of a call that is taken apart. -/
theorem rxbuf_of_eq {α : Type} {r : DFileConn × α} {c' : DFileConn} {a : α} {buf : Bytes}
    (h : r = (c', a)) (hr : r.1.rxbuf = buf) : c'.rxbuf = buf := by
  rw [h] at hr
  exact hr

theorem dcSendIdlist_rxbuf (type : DFileFrameType) (transId : UInt16) (ids : List UInt16) :
    (dcSendIdlist env type transId ids c).1.rxbuf = c.rxbuf := by
  unfold dcSendIdlist
  split <;> rfl

theorem dcSendLocalSetting_rxbuf : (dcSendLocalSetting env c).rxbuf = c.rxbuf := by
  unfold dcSendLocalSetting
  split
  · rfl
  split
  · rw [shutdownCommon_rxbuf]
  have hraw : ∀ f, (dcSendRaw env c f).1.rxbuf = c.rxbuf := fun _ => rfl
  split
  · rename_i hsent
    have hkept := rxbuf_of_eq hsent (hraw _)
    exact hkept
  · rename_i hsent
    rw [shutdownCommon_rxbuf]
    have hkept := rxbuf_of_eq hsent (hraw _)
    exact hkept
  · rename_i hsent
    rw [shutdownCommon_rxbuf]
    have hkept := rxbuf_of_eq hsent (hraw _)
    exact hkept

/-! ### The receiver -/

theorem rxFlushAck_rxbuf : (rxFlushAck env c).rxbuf = c.rxbuf := by
  unfold rxFlushAck
  split
  · rfl
  rename_i t _
  simp only
  split
  · rfl
  split
  · rw [transFail_rxbuf]
  rename_i f _
  have hsend := dcSend_rxbuf env { c with rx := some { t with ackPending := false } } f
  split
  · rename_i hsent
    exact rxbuf_of_eq hsent hsend
  · rename_i hsent
    rw [andFail_rxbuf]
    exact rxbuf_of_eq hsent hsend

theorem rxSendDone_rxbuf (sha256Hex : Bytes → Bytes) :
    (rxSendDone sha256Hex env c).rxbuf = c.rxbuf := by
  unfold rxSendDone
  split
  · rfl
  split
  · rfl
  simp only
  split
  · split
    · rename_i hsent
      rw [andFail_rxbuf]
      have hkept := rxbuf_of_eq hsent (dcSendIdlist_rxbuf env _ _ _ _)
      exact hkept
    · rename_i hsent
      have hkept := rxbuf_of_eq hsent (dcSendIdlist_rxbuf env _ _ _ _)
      exact hkept
  · rw [andFail_rxbuf, dcSendRst_rxbuf]

theorem rxTick_rxbuf (sha256Hex : Bytes → Bytes) : (rxTick sha256Hex env c).rxbuf = c.rxbuf := by
  unfold rxTick
  split
  · rfl
  split
  · rfl
  rw [whileOpen_rxbuf]
  · split
    · exact rxFlushAck_rxbuf env c
    · rfl
  · intro c
    split
    · exact rxSendDone_rxbuf env c sha256Hex
    · rfl

/-! ### The sender -/

theorem txSendHeaderFrom_rxbuf (transId : UInt16) (ents : List DFileHeaderEntry) (fuel : ℕ) :
    ∀ (start : ℕ) (c : DFileConn),
      (txSendHeaderFrom env transId ents fuel start c).1.rxbuf = c.rxbuf := by
  induction fuel with
  | zero => intro start c; rfl
  | succ fuel ih =>
      intro start c
      unfold txSendHeaderFrom
      split
      · split
        · rfl
        split
        · rename_i hsent
          have hkept := rxbuf_of_eq hsent (dcSend_rxbuf env c _)
          exact hkept
        · rename_i hsent
          rw [ih]
          have hkept := rxbuf_of_eq hsent (dcSend_rxbuf env c _)
          exact hkept
      · rfl

theorem txSendHeader_rxbuf (t : DCTrans) : (txSendHeader env t c).1.rxbuf = c.rxbuf :=
  txSendHeaderFrom_rxbuf env _ _ _ _ c

theorem sendFilesImpl_rxbuf (items : List DFileSendItem) :
    (sendFilesImpl env items c).1.rxbuf = c.rxbuf := by
  unfold sendFilesImpl
  split
  · rfl
  split
  · rfl
  split
  · rfl
  simp only
  split
  · rfl
  · rfl
  · split
    · rename_i hsent
      show (DFileConn.andThen _ _).rxbuf = _
      rw [andThen_rxbuf _ fun _ => by rfl]
      have hkept := rxbuf_of_eq hsent (txSendHeader_rxbuf env _ _)
      exact hkept
    · rename_i hsent
      have hkept := rxbuf_of_eq hsent (txSendHeader_rxbuf env _ _)
      exact hkept

theorem txSendBlock_rxbuf (transId : UInt16) (flag : UInt8) (readError sendError : String)
    (f : DCFile) (seq : ℕ) (p : TxPump) :
    (txSendBlock env transId flag readError sendError f seq p).conn.rxbuf = p.conn.rxbuf := by
  unfold txSendBlock
  split
  · rfl
  split
  · rfl
  split
  · rename_i hsent
    have hkept := rxbuf_of_eq hsent (dcSend_rxbuf env p.conn _)
    exact hkept
  · rename_i hsent
    have hkept := rxbuf_of_eq hsent (dcSend_rxbuf env p.conn _)
    exact hkept

theorem txPumpNew_rxbuf (transId : UInt16) (fuel : ℕ) : ∀ (p : TxPump) (f : DCFile),
    (txPumpNew env transId fuel p f).1.conn.rxbuf = p.conn.rxbuf := by
  induction fuel with
  | zero => intro p f; rfl
  | succ fuel ih =>
      intro p f
      unfold txPumpNew
      split
      · simp only
        split
        · exact txSendBlock_rxbuf env transId _ _ _ f _ p
        · rw [ih, txSendBlock_rxbuf]
      · rfl

theorem txPumpRetran_rxbuf (transId : UInt16) (p : TxPump) (f : DCFile) :
    (txPumpRetran env transId p f).1.conn.rxbuf = p.conn.rxbuf := by
  unfold txPumpRetran
  split
  · rfl
  split
  · simp only
    split
    · exact txSendBlock_rxbuf env transId _ _ _ f _ p
    · exact txSendBlock_rxbuf env transId _ _ _ f _ p
  · rfl

theorem txPumpFile_rxbuf (transId : UInt16) (p : TxPump) (f : DCFile) :
    (txPumpFile env transId p f).1.conn.rxbuf = p.conn.rxbuf := by
  unfold txPumpFile
  split
  · rfl
  simp only
  split
  · exact txPumpNew_rxbuf env transId _ p f
  · rw [txPumpRetran_rxbuf, txPumpNew_rxbuf]

theorem txPumpFiles_rxbuf (transId : UInt16) (fs : List DCFile) : ∀ p : TxPump,
    (txPumpFiles env transId p fs).1.conn.rxbuf = p.conn.rxbuf := by
  induction fs with
  | nil => intro p; rfl
  | cons f fs ih =>
      intro p
      unfold txPumpFiles
      split
      · rfl
      · show (txPumpFiles env transId _ fs).1.conn.rxbuf = _
        rw [ih, txPumpFile_rxbuf]

theorem txPump_rxbuf : (txPump env c).rxbuf = c.rxbuf := by
  unfold txPump
  split
  · rfl
  simp only
  split
  · exact txPumpFiles_rxbuf env _ _ _
  · rw [andFail_rxbuf]
    exact txPumpFiles_rxbuf env _ _ _

theorem txFinish_rxbuf : (txFinish env c).rxbuf = c.rxbuf := by
  unfold txFinish
  split
  · rfl
  split
  · rfl
  split
  · rename_i hsent
    rw [andFail_rxbuf]
    have hkept := rxbuf_of_eq hsent (dcSendIdlist_rxbuf env _ _ _ _)
    exact hkept
  · rename_i hsent
    have hkept := rxbuf_of_eq hsent (dcSendIdlist_rxbuf env _ _ _ _)
    exact hkept

theorem txAfterPump_rxbuf : (txAfterPump env c).rxbuf = c.rxbuf := by
  unfold txAfterPump
  split
  · rfl
  rename_i t _
  simp only
  generalize (if t.phase = .txSending ∧ txAllSent t then { t with phase := .txWaitDone } else t) = u
  split
  · exact txFinish_rxbuf env _
  · rfl

theorem txTick_rxbuf : (txTick env c).rxbuf = c.rxbuf := by
  unfold txTick
  split
  · rw [whileOpen_rxbuf _ (txAfterPump_rxbuf env), txPump_rxbuf]
  · rfl

theorem txRetryHeader_rxbuf : (txRetryHeader env c).rxbuf = c.rxbuf := by
  unfold txRetryHeader
  split
  · rfl
  split
  · simp only
    split
    · rw [transFail_rxbuf]
    split
    · rename_i hsent
      have hkept := rxbuf_of_eq hsent (txSendHeader_rxbuf env _ _)
      exact hkept
    · rename_i hsent
      rw [andFail_rxbuf]
      have hkept := rxbuf_of_eq hsent (txSendHeader_rxbuf env _ _)
      exact hkept
  · rfl

theorem dcTimeout_rxbuf (isSender : Bool) : (dcTimeout env isSender c).rxbuf = c.rxbuf := by
  unfold dcTimeout
  split
  · rfl
  rename_i t _
  by_cases hlate : t.phase ≠ (if isSender then DCPhase.txDone else DCPhase.rxDone) ∧
      t.phase ≠ .failed ∧ env.now - t.t0Ms > dcTransferTimeoutMs
  · rw [if_pos hlate, transFail_rxbuf]
  · rw [if_neg hlate]

theorem onTick_rxbuf (sha256Hex : Bytes → Bytes) : (onTick sha256Hex env c).rxbuf = c.rxbuf := by
  unfold onTick
  split
  · rw [shutdownCommon_rxbuf]
  · simp only
    rw [whileOpen_rxbuf _ (txRetryHeader_rxbuf env), whileOpen_rxbuf _ (txTick_rxbuf env),
      whileOpen_rxbuf _ fun c => rxTick_rxbuf env c sha256Hex,
      andThen_rxbuf _ fun c => dcTimeout_rxbuf env c false, dcTimeout_rxbuf]

end

/-! ## One read -/

theorem shutdownCommon_closeReason (env : DcEnv) (reason : String) {c : DFileConn}
    (hopen : c.stopped = false) : (shutdownCommon env reason c).closeReason = some reason := by
  have hkeeps : ∀ c isSender, (transFail env isSender reason false c).closeReason = c.closeReason :=
    fun c isSender => transFail_keeps env c DFileConn.closeReason (fun _ _ => rfl)
      (fun _ b _ => by cases b <;> rfl) (fun _ _ => rfl) isSender reason false
  have hstate := (DFileConn.stopped_eq_false hopen).2
  rw [shutdownCommon, if_neg hstate]
  show (transFail env false reason false (transFail env true reason false _)).closeReason = _
  rw [hkeeps, hkeeps]

/-- The connection has closed because its buffer starts with a corrupt header. -/
structure DFileConn.Corrupt (c : DFileConn) : Prop where
  buffer : dcCut c.rxbuf = some 0
  stopped : c.stopped = true
  reason : c.closeReason = some "corrupt frame header"

/-- The calls of `handle_frame` in a read, each with the connection it meets. -/
def dcFrames (env : DcEnv) (chunk : Bytes) (c : DFileConn) : List (DFileConn × Bytes) :=
  framesOf (dcDispatched env chunk c)

theorem dcFrames_handled {env : DcEnv} {chunk : Bytes} {c : DFileConn} {d : DFileConn × Bytes}
    (hd : d ∈ dcFrames env chunk c) : (dcHandle env d.1 d.2).1 = handleFrame env d.2 d.1 := by
  obtain ⟨buf, k, hcut, hk, heq⟩ := framesOf_dispatched _ hd
  rw [heq, dcHandle_frame env d.1 (dcCut_take hcut hk) hk, List.take_take, Nat.min_self]

/-- A read handles the frames of the parse, and closes at what is no frame. -/
theorem dcRead_parse {env : DcEnv} {chunk : Bytes} {c : DFileConn} (hopen : c.stopped = false)
    (hkeep : ∀ d ∈ dcFrames env chunk c, (handleFrame env d.2 d.1).stopped = false) :
    (dcFrames env chunk c).map Prod.snd = (parse dcCut (c.rxbuf ++ chunk)).1 ∧
      (dcRead env chunk c).rxbuf = (parse dcCut (c.rxbuf ++ chunk)).2 ∧
      ((dcCut (dcRead env chunk c).rxbuf = none ∧ (dcRead env chunk c).stopped = false) ∨
        (dcRead env chunk c).Corrupt) := by
  obtain ⟨hframes, s', hs', hdrain⟩ := drain_parse dcCut_stable (dcHandle_frames env) dcCut_nil
    (c.rxbuf ++ chunk).length (s := c) (Nat.le_refl _) hopen fun d hd => by
      rw [dcFrames_handled hd]
      exact hkeep d hd
  have hread : dcRead env chunk c =
      { (drain dcCut (dcHandle env) DFileConn.stopped (c.rxbuf ++ chunk).length c
          (c.rxbuf ++ chunk)).1 with
        rxbuf := (drain dcCut (dcHandle env) DFileConn.stopped (c.rxbuf ++ chunk).length c
          (c.rxbuf ++ chunk)).2 } := rfl
  rw [hdrain] at hread
  have hrest : (dcRead env chunk c).rxbuf = (parse dcCut (c.rxbuf ++ chunk)).2 := by rw [hread]
  refine ⟨hframes, hrest, ?_⟩
  rcases parse_rest dcCut_stable (c.rxbuf ++ chunk) with hnone | hcorrupt
  · left
    rw [if_pos hnone] at hread
    exact ⟨hrest ▸ hnone, by rw [hread]; exact hs'⟩
  · right
    have hsome : ¬ dcCut (parse dcCut (c.rxbuf ++ chunk)).2 = none := by
      rw [hcorrupt]
      exact Option.some_ne_none 0
    rw [if_neg hsome, dcHandle_corrupt env s' hcorrupt] at hread
    constructor
    · rw [hrest, hcorrupt]
    · rw [hread]
      exact shutdownCommon_stopped env _ s'
    · rw [hread]
      exact shutdownCommon_closeReason env _ hs'

/-! ## Runs -/

/-- The bytes that an event receives. -/
def DcEv.chunk : DcEv → Bytes
  | .read _ chunk => chunk
  | _ => []

/-- The bytes that the connection receives along a run. -/
def received (es : List DcEv) : Bytes := (es.map DcEv.chunk).flatten

section
variable (sha256Hex : Bytes → Bytes)

/-- The calls of `handle_frame` along a run, each with the connection it meets. -/
def DFileConn.handled (c : DFileConn) (es : List DcEv) : List (DFileConn × DcEnv × Bytes) :=
  (c.dispatches sha256Hex es).filter fun d => !d.2.2.isEmpty

/-- Every call of `handle_frame` leaves the connection open. -/
def DFileConn.StaysOpen (c : DFileConn) (es : List DcEv) : Prop :=
  ∀ d ∈ c.handled sha256Hex es, (handleFrame d.2.1 d.2.2 d.1).stopped = false

end

section
variable {sha256Hex : Bytes → Bytes}

/-- An event other than a read leaves the buffer, and dispatches nothing. -/
theorem DFileConn.step_quiet {c c' : DFileConn} {e : DcEv} (hs : c.step sha256Hex e = some c')
    (he : ∀ env chunk, e ≠ .read env chunk) :
    c'.rxbuf = c.rxbuf ∧ e.dispatches c = [] ∧ e.chunk = [] := by
  unfold DFileConn.step at hs
  split at hs
  · cases hs
    cases e with
    | start env => exact ⟨dcSendLocalSetting_rxbuf env c, rfl, rfl⟩
    | read env chunk => exact absurd rfl (he env chunk)
    | eof env => exact ⟨shutdownCommon_rxbuf env c _, rfl, rfl⟩
    | socketError env message => exact ⟨shutdownCommon_rxbuf env c _, rfl, rfl⟩
    | tick env => exact ⟨onTick_rxbuf env c sha256Hex, rfl, rfl⟩
    | sendFiles env items => exact ⟨sendFilesImpl_rxbuf env c items, rfl, rfl⟩
    | close env => exact ⟨shutdownCommon_rxbuf env c _, rfl, rfl⟩
  · cases hs

theorem DFileConn.step_open {c c' : DFileConn} {e : DcEv} (hs : c.step sha256Hex e = some c') :
    c.stopped = false := by
  unfold DFileConn.step at hs
  split at hs
  · rename_i henabled
    rw [Bool.and_eq_true, Bool.not_eq_true'] at henabled
    exact henabled.1
  · cases hs

theorem DFileConn.step_read {c c' : DFileConn} {env : DcEnv} {chunk : Bytes}
    (hs : c.step sha256Hex (.read env chunk) = some c') : c' = dcRead env chunk c := by
  unfold DFileConn.step at hs
  split at hs
  · exact (Option.some.inj hs).symm
  · cases hs

theorem DFileConn.handled_cons {c c' : DFileConn} {e : DcEv} {es : List DcEv}
    (hs : c.step sha256Hex e = some c') :
    c.handled sha256Hex (e :: es) =
      (e.dispatches c).filter (fun d => !d.2.2.isEmpty) ++ c'.handled sha256Hex es := by
  simp only [DFileConn.handled, DFileConn.dispatches, hs, List.filter_append]

theorem dispatches_read (env : DcEnv) (chunk : Bytes) (c : DFileConn) :
    ((DcEv.read env chunk).dispatches c).filter (fun d => !d.2.2.isEmpty) =
      (dcFrames env chunk c).map fun d => (d.1, env, d.2) := by
  rw [DcEv.dispatches, List.filter_map]
  rfl

/-- The buffer of a connection between two events. -/
def DFileConn.Waits (c : DFileConn) : Prop := dcCut c.rxbuf = none ∨ c.Corrupt

/-- **The run of a connection over its stream.** -/
theorem DFileConn.run_parse (es : List DcEv) : ∀ {c c' : DFileConn}, c.Waits →
    run (DFileConn.step sha256Hex) c es = some c' → c.StaysOpen sha256Hex es →
      (c.handled sha256Hex es).map (fun d => d.2.2) = (parse dcCut (c.rxbuf ++ received es)).1 ∧
      c'.rxbuf = (parse dcCut (c.rxbuf ++ received es)).2 ∧ c'.Waits ∧
      ∀ es' env chunk, es = es' ++ [.read env chunk] → (c'.stopped = true ↔ c'.Corrupt) := by
  induction es with
  | nil =>
      intro c c' hwaits hrun _
      cases hrun
      have hstop : dcCut c.rxbuf = none ∨ dcCut c.rxbuf = some 0 :=
        hwaits.imp_right DFileConn.Corrupt.buffer
      have hnil : c.rxbuf ++ received [] = c.rxbuf := List.append_nil _
      rw [hnil, parse_stop hstop]
      exact ⟨rfl, rfl, hwaits, fun es' _ _ hnone => by cases es' <;> cases hnone⟩
  | cons e es ih =>
      intro c c' hwaits hrun hkeep
      obtain ⟨c₁, hs, hrest⟩ := run_cons_eq_some hrun
      have hopen := DFileConn.step_open hs
      have hnone : dcCut c.rxbuf = none := hwaits.resolve_right fun hcorrupt => by
        rw [hcorrupt.stopped] at hopen
        cases hopen
      rw [DFileConn.StaysOpen, DFileConn.handled_cons hs] at hkeep
      have hkeep₁ : c₁.StaysOpen sha256Hex es := fun d hd =>
        hkeep d (List.mem_append_right _ hd)
      have hreceived : received (e :: es) = e.chunk ++ received es := List.flatten_cons
      rw [DFileConn.handled_cons hs, List.map_append, hreceived, ← List.append_assoc,
        parse_append dcCut_stable]
      by_cases hread : ∃ env chunk, e = .read env chunk
      · obtain ⟨env, chunk, rfl⟩ := hread
        obtain rfl := DFileConn.step_read hs
        rw [dispatches_read] at hkeep ⊢
        obtain ⟨hframes, hbuf, hnext⟩ := dcRead_parse hopen fun d (hd : d ∈ dcFrames env chunk c) =>
          hkeep (d.1, env, d.2) (List.mem_append_left _ (List.mem_map_of_mem hd))
        obtain ⟨htail, hend, hwaits', hlast⟩ := ih (hnext.imp_left And.left) hrest hkeep₁
        rw [hbuf] at htail hend
        refine ⟨?_, hend, hwaits', ?_⟩
        · rw [htail, List.map_map]
          exact congrArg (· ++ _) hframes
        · intro es' env' chunk' heq
          cases es' with
          | nil =>
              obtain rfl := (List.cons.inj heq).2
              cases hrest
              constructor
              · intro hstop
                refine hnext.resolve_left fun hlive => ?_
                rw [hlive.2] at hstop
                cases hstop
              · exact DFileConn.Corrupt.stopped
          | cons e es' => exact hlast es' env' chunk' (List.cons.inj heq).2
      · obtain ⟨hbuf, hno, hchunk⟩ := DFileConn.step_quiet hs fun env chunk h =>
          hread ⟨env, chunk, h⟩
        obtain ⟨htail, hend, hwaits', hlast⟩ := ih (c := c₁) (Or.inl (hbuf ▸ hnone)) hrest hkeep₁
        rw [hchunk, List.append_nil, parse_stop (Or.inl hnone), hno]
        rw [hbuf] at htail hend
        refine ⟨htail, hend, hwaits', ?_⟩
        intro es' env' chunk' heq
        cases es' with
        | nil => exact absurd ⟨env', chunk', (List.cons.inj heq).1⟩ hread
        | cons e' es' => exact hlast es' env' chunk' (List.cons.inj heq).2

/-- **A connection handles the frames of its stream**, whatever the reads are and whatever
happens between them. -/
theorem DFileConn.handles_parse {now : UInt64} {recvDir : Option Bytes} {es : List DcEv}
    {c : DFileConn} (hrun : run (DFileConn.step sha256Hex) (dcAlloc now recvDir) es = some c)
    (hopen : (dcAlloc now recvDir).StaysOpen sha256Hex es) :
    -- the frames are those of the parse
    ((dcAlloc now recvDir).handled sha256Hex es).map (fun d => d.2.2) =
        (parse dcCut (received es)).1 ∧
      -- no byte is lost or repeated
      c.rxbuf = (parse dcCut (received es)).2 ∧
      (((dcAlloc now recvDir).handled sha256Hex es).map fun d => d.2.2).flatten ++ c.rxbuf =
        received es ∧
      -- the connection waits for more, or has closed at the first corrupt header
      (dcCut c.rxbuf = none ∨ c.Corrupt) ∧
      (∀ es' env chunk, es = es' ++ [.read env chunk] → (c.stopped = true ↔ c.Corrupt)) ∧
      (c.Corrupt → ∀ more, parse dcCut (received es ++ more) =
        ((parse dcCut (received es)).1, c.rxbuf ++ more)) ∧
      -- the inner loop ends
      ∀ env c buf, Drained dcCut DFileConn.stopped
        (drain dcCut (dcHandle env) DFileConn.stopped buf.length c buf) := by
  obtain ⟨hframes, hrest, hwaits, hlast⟩ := DFileConn.run_parse es (Or.inl rfl) hrun hopen
  have hstream : (dcAlloc now recvDir).rxbuf ++ received es = received es := rfl
  rw [hstream] at hframes hrest
  refine ⟨hframes, hrest, ?_, hwaits, hlast, ?_, ?_⟩
  · rw [hframes, hrest, parse_flatten dcCut_stable]
  · intro hcorrupt more
    have hstop := hcorrupt.buffer
    rw [hrest] at hstop ⊢
    rw [parse_append dcCut_stable, parse_stop (Or.inr (dcCut_stable.more hstop more)),
      List.append_nil]
  · intro env c buf
    exact drain_ends dcCut_stable (dcHandle_frames env) _ (Nat.le_refl _) dcCut_nil

/-- A frame of a type that nothing uses. -/
def ignoredFrame : Bytes := [200, 0, 0, 0, 0, 0, 0, 1, 42]

/-- The peer's setting in two reads, the second with the front of an ignored frame,
then the rest of it and a header of length zero. -/
def splitReads : List DcEv :=
  let env := oneByteEnv 0 fun _ => dcTakesAll
  [.start env, .read env (dcPeerSetting.take 5),
    .read env (dcPeerSetting.drop 5 ++ ignoredFrame.take 8), .tick env,
    .read env (ignoredFrame.drop 8 ++ List.replicate 10 0)]

theorem DFileConn.handles_parse_split :
    ((dcAlloc 0 none).handled id splitReads).map (fun d => d.2.2) =
      [dcPeerSetting, ignoredFrame] := by
  obtain ⟨c, hrun⟩ := Option.isSome_iff_exists.mp (show
    (run (DFileConn.step id) (dcAlloc 0 none) splitReads).isSome = true by decide +kernel)
  have hopen : (dcAlloc 0 none).StaysOpen id splitReads := by
    unfold DFileConn.StaysOpen
    decide +kernel
  rw [(DFileConn.handles_parse hrun hopen).1]
  decide +kernel

end

end HwPhoneLink.DFile
