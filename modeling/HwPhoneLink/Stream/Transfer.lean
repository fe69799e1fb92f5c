import HwPhoneLink.Stream.Sender

/-!
# A file through a session

The frames of a session that sends an unchanging file, cut anywhere and given
to the `sf_on_data` of another session with the same key. The sender's frames
are the metadata and then chunks of the content (`SentInv`); the receiver has
handled some of them (`RxAt`), which is what a reader of the stream keeps
however the stream is cut (`Framing.Reads`).
-/

namespace HwPhoneLink.Stream

open BigEndian HwPhoneLink.Fillp HwPhoneLink.Testfile HwPhoneLink.Vtp

/-! ## What the sender queues -/

/-- A call into the sending session. -/
inductive SfCall : Type where
  | fill (env : SfFillEnv)
  | txComplete
  | data (io : SfIo) (bytes : Bytes)

/-- The session, and the frames it has passed to `fillp_peer_send`. -/
def sfCall (sha256Hex : Bytes → Bytes) (aead : Aead) (s : StreamFile × List Bytes) :
    SfCall → StreamFile × List Bytes
  | .fill env => ((sfFill aead env s.1).1, s.2 ++ (sfFill aead env s.1).2.chunks)
  | .txComplete => (sfOnTxComplete s.1, s.2)
  | .data io bytes => (sfOnData sha256Hex aead io s.1 bytes, s.2)

/-- The reads of the call are reads of the file: a read returns a part of the
content at its offset, at most as long as asked for, and nothing only at the
end. -/
def ReadsFile (content : Bytes) : SfCall → Prop
  | .fill env => ∀ off, ∃ chunk, env.pread off = some chunk ∧ chunk <+: content.drop off ∧
      chunk.length ≤ sfVtpChunk ∧ (chunk = [] → content.length ≤ off)
  | _ => True

/-- The frames so far carry the metadata and the chunks. -/
structure SentInv (aead : Aead) (content key info : Bytes) (s : StreamFile × List Bytes)
    (chunks : List Bytes) : Prop where
  keyed : s.1.key = key
  described : sfMetadata s.1 = info
  unsent : s.1.txMetaSent = false → chunks = []
  frames : List.Forall₂ (SfFrame aead key) (if s.1.txMetaSent then info :: chunks else []) s.2
  read : chunks.flatten = content.take s.1.txOffset
  offset : s.1.txOffset ≤ content.length
  sizes : ∀ c ∈ chunks, c ≠ [] ∧ c.length ≤ sfVtpChunk

theorem SentInv.kept {aead : Aead} {content key info : Bytes} {s : StreamFile × List Bytes}
    {chunks : List Bytes} (h : SentInv aead content key info s chunks) {sf : StreamFile}
    (hk : TxKept s.1 sf) : SentInv aead content key info (sf, s.2) chunks := by
  refine ⟨hk.key.trans h.keyed, ?_, ?_, ?_, ?_, ?_, h.sizes⟩
  · rw [sfMetadata, hk.total, hk.wire]
    exact h.described
  · rw [hk.metaSent]
    exact h.unsent
  · rw [hk.metaSent]
    exact h.frames
  · rw [hk.offset]
    exact h.read
  · rw [hk.offset]
    exact h.offset

theorem sfOnTxComplete_sentInv {aead : Aead} {content key info : Bytes}
    {s : StreamFile × List Bytes} {chunks : List Bytes}
    (h : SentInv aead content key info s chunks) :
    SentInv aead content key info (sfOnTxComplete s.1, s.2) chunks := by
  rcases sfOnTxComplete_cases s.1 with heq | ⟨-, m, heq⟩
  · rw [heq]
    exact h
  · rw [heq]
    exact ⟨h.keyed, h.described, h.unsent, h.frames, h.read, h.offset, h.sizes⟩

theorem sfFill_sentInv {aead : Aead} {content key info : Bytes} {s : StreamFile × List Bytes}
    {chunks : List Bytes} (h : SentInv aead content key info s chunks) {env : SfFillEnv}
    (hread : ReadsFile content (.fill env)) :
    ∃ chunks', SentInv aead content key info
      ((sfFill aead env s.1).1, s.2 ++ (sfFill aead env s.1).2.chunks) chunks' := by
  have hcases := sfFill_filled aead env s.1
  generalize sfFill aead env s.1 = r at hcases
  cases hcases with
  | quiet _ _ => exact ⟨chunks, by simpa using h⟩
  | done _ => exact ⟨chunks, by simpa using h⟩
  | eof _ _ _ => exact ⟨chunks, by simpa using h⟩
  | failed why _ =>
      refine ⟨chunks, ?_⟩
      simpa using h.kept (sfFail_kept s.1 why)
  | metadata frame _ hsent hframe =>
      have hnone := h.unsent hsent
      have hframes := h.frames
      rw [hsent] at hframes
      have hempty : s.2 = [] := List.forall₂_nil_left_iff.mp hframes
      refine ⟨chunks, h.keyed, h.described, (fun hfalse => by cases hfalse), ?_,
        h.read, h.offset, h.sizes⟩
      rw [hnone, hempty]
      refine .cons ⟨env, s.1, h.keyed, ?_⟩ .nil
      rw [← h.described]
      exact hframe
  | chunk chunk frame _ hsent _ hchunk hne hframe =>
      obtain ⟨c, hc, hpre, hmax, -⟩ := hread s.1.txOffset
      obtain rfl : c = chunk := Option.some.inj (hc.symm.trans hchunk)
      have hframes := h.frames
      rw [hsent, if_pos rfl] at hframes
      have hlen := hpre.length_le
      rw [List.length_drop] at hlen
      have hoff := h.offset
      refine ⟨chunks ++ [c], h.keyed, h.described, ?_, ?_, ?_, ?_, ?_⟩
      · intro hfalse
        rw [hsent] at hfalse
        cases hfalse
      · simp only [hsent, if_true]
        exact List.rel_append hframes (.cons ⟨env, s.1, h.keyed, hframe⟩ .nil)
      · simp only [List.flatten_append, List.flatten_cons, List.flatten_nil, List.append_nil]
        rw [h.read, List.take_add, ← List.prefix_iff_eq_take.mp hpre]
      · simp only
        omega
      · intro x hx
        rcases List.mem_append.mp hx with hx | hx
        · exact h.sizes x hx
        · rw [List.mem_singleton.mp hx]
          exact ⟨hne, hmax⟩

/-- The frames of a whole run of the sender. -/
theorem sfCall_sentInv (sha256Hex : Bytes → Bytes) {aead : Aead} {content key info : Bytes}
    (calls : List SfCall) : ∀ {s : StreamFile × List Bytes} {chunks : List Bytes},
    SentInv aead content key info s chunks → (∀ c ∈ calls, ReadsFile content c) →
    ∃ chunks', SentInv aead content key info (calls.foldl (sfCall sha256Hex aead) s) chunks' := by
  induction calls with
  | nil => intro s chunks h _; exact ⟨chunks, h⟩
  | cons c cs ih =>
      intro s chunks h hreads
      have hrest : ∀ c' ∈ cs, ReadsFile content c' := fun c' hc' =>
        hreads c' (List.mem_cons_of_mem _ hc')
      cases c with
      | fill env =>
          obtain ⟨chunks', h'⟩ := sfFill_sentInv h (hreads (.fill env) (by simp))
          exact ih h' hrest
      | txComplete => exact ih (sfOnTxComplete_sentInv h) hrest
      | data io bytes => exact ih (h.kept (sfOnData_kept sha256Hex aead io s.1 bytes)) hrest

/-! ## The frames on the wire -/

theorem SfFrame.length {aead : Aead} {key data frame : Bytes} (h : SfFrame aead key data frame) :
    frame.length = vtpCommonFrameSize data.length := by
  obtain ⟨env, sf, rfl, hframe⟩ := h
  exact vtpBuildCommonFrame_length env.nonce_length hframe

/-- The length word of a frame. -/
theorem SfFrame.word {aead : Aead} {key data frame : Bytes} (h : SfFrame aead key data frame)
    (hsize : data.length ≤ sfVtpChunk) : 4 + (u32At frame 0).toNat = frame.length := by
  have hlen := h.length
  obtain ⟨env, sf, rfl, hframe⟩ := h
  unfold sfSendFrame vtpBuildCommonFrame at hframe
  simp only at hframe
  split at hframe
  · cases hframe
  obtain ⟨n, hn, hmap⟩ := Option.bind_eq_some_iff.mp hframe
  obtain ⟨⟨ct, tag⟩, hsealed, hbuilt⟩ := Option.map_eq_some_iff.mp hmap
  rw [hlen, ← hbuilt, u32At_zero, UInt32.toNat_ofNat', Nat.mod_eq_of_lt]
  · simp only [vtpCommonFrameSize]
    omega
  · simp only [vtpCommonFrameSize, vtpNonceLen, vtpHeaderLen, vtpTagLen, sfVtpChunk] at hsize ⊢
    omega

theorem SfFrame.parse {aead : Aead} {key data frame : Bytes} (h : SfFrame aead key data frame)
    (hsize : data.length ≤ sfVtpChunk) :
    ∃ f, vtpParseCommonFrame aead frame frame.length key sfVtpChunk = some f ∧ f.data = data := by
  obtain ⟨env, sf, rfl, hframe⟩ := h
  have hsmall : vtpCommonFrameSize data.length < 2 ^ 32 := by
    simp only [vtpCommonFrameSize, vtpNonceLen, vtpHeaderLen, vtpTagLen, sfVtpChunk] at hsize ⊢
    omega
  have hparse := vtpParseCommonFrame_build env.nonce_length hframe hsize hsmall []
  rw [List.append_nil] at hparse
  exact ⟨_, hparse, rfl⟩

/-- The reassembly cuts the stream at the ends of the frames. -/
theorem SfFrame.isFrame (sha256Hex : Bytes → Bytes) {aead : Aead} {key data frame : Bytes}
    (h : SfFrame aead key data frame) (hsize : data.length ≤ sfVtpChunk) (io : SfIo) :
    Framing.IsFrame sfCut (sfHandle sha256Hex aead io) frame := by
  have hword := h.word hsize
  have hlen := h.length
  simp only [vtpCommonFrameSize, vtpNonceLen, vtpHeaderLen, vtpTagLen, sfVtpChunk] at hlen hsize
  have hmod : (4 + (u32At frame 0).toNat) % 2 ^ 32 = frame.length := by
    rw [hword, Nat.mod_eq_of_lt (by omega)]
  refine ⟨?_, ?_, ?_⟩
  · intro more
    unfold sfCut
    rw [if_neg (by simp; omega), u32At_append_left (by omega)]
    simp only [hmod]
    rw [if_neg (by simp)]
  · intro p q hpq hne
    have hshorter : p.length < frame.length := by
      rw [hpq, List.length_append]
      have := List.length_pos_iff.mpr hne
      omega
    unfold sfCut
    split
    · rfl
    · rename_i hfour
      have hsame : u32At p 0 = u32At frame 0 := by
        rw [hpq, u32At_append_left (by omega)]
      simp only [hsame, hmod]
      rw [if_pos hshorter]
  · intro sf more
    unfold sfHandle
    rw [u32At_append_left (by omega), hword]
    unfold sfProcessFrame
    rw [vtpParseCommonFrame_local]

/-! ## What the receiver holds -/

/-- A wire name that the metadata check accepts and that promises nothing false
about the content. -/
structure WireName (sha256Hex : Bytes → Bytes) (content name : Bytes) : Prop where
  nonempty : name ≠ []
  slash : Path.slash ∉ name
  dots : ¬ [Path.dot, Path.dot] <:+: name
  hidden : name.head? ≠ some Path.dot
  nul : (0 : UInt8) ∉ name
  short : name.length ≤ 32758
  notH264 : ¬ ascii ".h264" <:+ name
  sha : ftTestfileNameSha name = none ∨ ftTestfileNameSha name = some (sha256Hex content)

/-- The calls of `on_done` for the receive direction. -/
def rxReports (sf : StreamFile) : List SfDone := sf.done.filter fun d => !d.isSend

/-- A wire name that the metadata frame can carry and its check accepts. -/
structure AcceptedName (name : Bytes) : Prop where
  accepted : sfNameRejected name name.length = false
  nul : (0 : UInt8) ∉ name
  short : name.length ≤ 32758

/-- The receive half after the frames with the given payloads; `honest` says that
the name promises nothing false. -/
inductive RxAt (content name : Bytes) (honest : Prop) : List Bytes → StreamFile → Prop
  | waiting {sf : StreamFile} (state : sf.rxState = .wait) (dir : sf.recvDir.isSome = true)
      (written : sf.written = []) (reports : rxReports sf = []) : RxAt content name honest [] sf
  | receiving {sf : StreamFile} (info : Bytes) (chunks : List Bytes) (state : sf.rxState = .data)
      (rxName : sf.rxName = name) (total : sf.rxTotal = UInt64.ofNat content.length)
      (received : sf.rxReceived = UInt64.ofNat chunks.flatten.length)
      (sha : sf.rxSha = chunks.flatten)
      (expected : honest → sf.rxExpectedSha = ftTestfileNameSha name)
      (written : sf.written = chunks.flatten) (reports : rxReports sf = [])
      (more : chunks = [] ∨ chunks.flatten ≠ content) :
      RxAt content name honest (info :: chunks) sf
  | received {sf : StreamFile} (info : Bytes) (chunks : List Bytes) (state : sf.rxState = .done)
      (fd : sf.rxFdOpen = false) (written : sf.written = content) (nonempty : content ≠ [])
      (ok : Bool) (m : String) (reports : rxReports sf = [⟨false, ok, m⟩])
      (verdict : honest → ok = true) :
      RxAt content name honest (info :: chunks) sf

theorem h264TestfileNameSha_none {name : Bytes} (h : ¬ ascii ".h264" <:+ name) :
    h264TestfileNameSha name = none := by
  have hdrop : name.drop (name.length - (ascii ".h264").length) ≠ ascii ".h264" := by
    intro heq
    exact h (heq ▸ List.drop_suffix _ _)
  unfold h264TestfileNameSha nameSha
  split
  · rfl
  split
  · rfl
  · rfl

theorem WireName.accepted {sha256Hex : Bytes → Bytes} {content name : Bytes}
    (h : WireName sha256Hex content name) : AcceptedName name where
  accepted := by
    have hlen : name.length ≠ 0 := fun he => h.nonempty (List.length_eq_zero_iff.mp he)
    simp [sfNameRejected, hlen, h.slash, h.dots, h.hidden]
  nul := h.nul
  short := h.short

section Receive
variable {sha256Hex : Bytes → Bytes} {content name : Bytes} {honest : Prop}

/-- The metadata frame of the file opens it. -/
theorem sfProcessMeta_rxAt (hname : AcceptedName name)
    (hhonest : honest → WireName sha256Hex content name) {io : SfIo} (hopen : io.openOk = true)
    {sf : StreamFile} (h : RxAt content name honest [] sf) {sender : StreamFile}
    (htotal : sender.txTotal = content.length) (hwire : sender.txWire = name) :
    (sfProcessMeta io sf (sfMetadata sender)).2 = true ∧
      RxAt content name honest [sfMetadata sender] (sfProcessMeta io sf (sfMetadata sender)).1 := by
  cases h with
  | waiting hstate hdir hwritten hreports =>
      obtain ⟨dir, hdir⟩ := Option.isSome_iff_exists.mp hdir
      have hshort := hname.short
      have hout : sfMetadata sender = putU64 (UInt64.ofNat content.length) ++
          (putU16 (UInt16.ofNat name.length) ++ name) := by rw [sfMetadata, htotal, hwire]
      have hlen : (sfMetadata sender).length = 10 + name.length := by
        rw [hout]
        simp only [List.length_append, putU64_length, putU16_length]
        omega
      have hu64 : u64At (sfMetadata sender) 0 = UInt64.ofNat content.length := by
        rw [hout]
        exact u64At_zero _ _
      have hu16 : (u16At (sfMetadata sender) 8).toNat = name.length := by
        rw [hout, u16At_append _ _ _ (putU64_length _), UInt16.toNat_ofNat',
          Nat.mod_eq_of_lt (by omega)]
      have hfield : field name.length 10 (sfMetadata sender) = name := by
        have hpre : (putU64 (UInt64.ofNat content.length) ++
            putU16 (UInt16.ofNat name.length)).length = 10 := by simp
        have hname := field_append _ name [] hpre rfl
        rw [hout]
        simpa [List.append_assoc] using hname
      have hcstr := Path.cString_of_no_nul hname.nul
      have hsha : honest → (h264TestfileNameSha name).or (ftTestfileNameSha name) =
          ftTestfileNameSha name := fun h => by
        rw [h264TestfileNameSha_none (hhonest h).notH264, Option.none_or]
      unfold sfProcessMeta
      simp only [hdir, hu16, hfield, hcstr, hname.accepted, hopen, hu64]
      rw [if_neg (by omega), if_neg (by omega)]
      exact ⟨rfl, .receiving _ [] rfl rfl rfl rfl rfl hsha rfl hreports (Or.inl rfl)⟩

theorem sfVerify_ok (hname : WireName sha256Hex content name) (io : SfIo) {sf : StreamFile}
    (hrx : sf.rxName = name) (hexp : sf.rxExpectedSha = ftTestfileNameSha name)
    (hsha : sf.rxSha = content) : ∃ m, sfVerify sha256Hex io sf = (true, m) := by
  unfold sfVerify
  rw [hrx, if_neg hname.notH264, hexp, hsha]
  rcases hname.sha with h | h
  · rw [h]
    exact ⟨_, rfl⟩
  · rw [h]
    exact ⟨_, if_pos rfl⟩

/-- A data frame that continues the content is written. -/
theorem sfProcessChunk_rxAt (hhonest : honest → WireName sha256Hex content name)
    (hsize : content.length < 2 ^ 64) {io : SfIo} (hwrite : ∀ off n, io.pwrite off n = n)
    {sf : StreamFile} {info chunk : Bytes} {chunks : List Bytes}
    (h : RxAt content name honest (info :: chunks) sf) (hdata : sf.rxState = .data)
    (hne : chunk ≠ []) (hnext : (chunks ++ [chunk]).flatten <+: content) :
    (sfProcessChunk sha256Hex io sf chunk).2 = true ∧
      RxAt content name honest (info :: (chunks ++ [chunk]))
        (sfProcessChunk sha256Hex io sf chunk).1 := by
  cases h with
  | received _ _ hstate =>
      rw [hdata] at hstate
      cases hstate
  | receiving _ _ hstate hrx htotal hreceived hsha hexp hwritten hreports =>
      have hpos : 0 < chunk.length := List.length_pos_iff.mpr hne
      have hflat : (chunks ++ [chunk]).flatten = chunks.flatten ++ chunk := by simp
      have hle := hnext.length_le
      have hsum : sf.rxReceived + UInt64.ofNat chunk.length =
          UInt64.ofNat (chunks ++ [chunk]).flatten.length := by
        rw [hreceived, hflat, List.length_append, UInt64.ofNat_add]
      have hfits : ¬ sf.rxReceived + UInt64.ofNat chunk.length > sf.rxTotal := by
        rw [hsum, htotal, gt_iff_lt, UInt64.lt_iff_toNat_lt, UInt64.toNat_ofNat',
          UInt64.toNat_ofNat', Nat.mod_eq_of_lt (by omega), Nat.mod_eq_of_lt (by omega)]
        exact Nat.not_lt.mpr hle
      have hmore : (sf.written ++ chunk.take chunk.length) = (chunks ++ [chunk]).flatten := by
        rw [List.take_length, hwritten, hflat]
      have hhash : sf.rxSha ++ chunk = (chunks ++ [chunk]).flatten := by rw [hsha, hflat]
      unfold sfProcessChunk
      rw [if_pos hpos, if_neg hfits]
      simp only [hwrite, ne_eq, not_true_eq_false, if_false, hmore, hhash, hsum]
      refine ⟨trivial, ?_⟩
      unfold sfComplete
      by_cases hlast : (chunks ++ [chunk]).flatten.length = content.length
      · have hall : (chunks ++ [chunk]).flatten = content := hnext.eq_of_length hlast
        rw [if_pos (by rw [htotal, hlast])]
        set sf' := { sf with
          written := (chunks ++ [chunk]).flatten, rxSha := (chunks ++ [chunk]).flatten
          rxReceived := UInt64.ofNat (chunks ++ [chunk]).flatten.length
          rxFdOpen := false } with hsf'
        have hverdict : honest → (sfVerify sha256Hex io sf').1 = true := by
          intro h
          obtain ⟨m, hm⟩ := sfVerify_ok (hhonest h) io (show sf'.rxName = name from hrx) (hexp h)
            (show sf'.rxSha = content from hall)
          rw [hm]
        have hcontent : content ≠ [] := by
          rw [← hall, hflat]
          simp [hne]
        refine .received info _ rfl rfl hall hcontent _ (sfVerify sha256Hex io sf').2 ?_ hverdict
        simp only [rxReports, sfReport, List.filter_append] at hreports ⊢
        rw [hreports]
        rfl
      · have hdiff : ¬ UInt64.ofNat (chunks ++ [chunk]).flatten.length = sf.rxTotal := by
          intro heq
          apply hlast
          have hnat := congrArg UInt64.toNat (heq.trans htotal)
          rwa [UInt64.toNat_ofNat', UInt64.toNat_ofNat', Nat.mod_eq_of_lt (by omega),
            Nat.mod_eq_of_lt (by omega)] at hnat
        rw [if_neg hdiff]
        refine .receiving info _ hstate hrx htotal rfl rfl hexp rfl hreports (Or.inr ?_)
        exact fun heq => hlast (congrArg List.length heq)

/-! ## Frame by frame -/

/-- The receiver after the frames `done`. -/
structure RxInv (content name : Bytes) (honest : Prop) (key : Bytes) (payloads done : List Bytes)
    (sf : StreamFile) : Prop where
  key : sf.key = key
  closed : sf.closed = false
  at' : RxAt content name honest (payloads.take done.length) sf

theorem sfStopped_false {sf : StreamFile} (h : sfStopped sf = false) :
    ¬ (sf.rxState = .done ∨ sf.rxState = .failed) := by
  simp only [sfStopped, Bool.or_eq_false_iff, decide_eq_false_iff_not] at h
  exact fun hor => hor.elim h.2 h.1

/-- A complete frame in the buffer is parsed and processed by state. -/
theorem sfHandle_frame (sha256Hex : Bytes → Bytes) {aead : Aead} (io : SfIo) {sf : StreamFile}
    {data frame : Bytes} (h : SfFrame aead sf.key data frame) (hsize : data.length ≤ sfVtpChunk)
    (hlive : sfStopped sf = false) :
    sfHandle sha256Hex aead io sf frame =
      if sf.rxState = .wait then sfProcessMeta io sf data
      else sfProcessChunk sha256Hex io sf data := by
  obtain ⟨f, hparse, rfl⟩ := h.parse hsize
  unfold sfHandle sfProcessFrame
  rw [if_neg (sfStopped_false hlive), h.word hsize, hparse]

theorem rxInv_handles {aead : Aead} {key : Bytes} (hname : AcceptedName name)
    (hhonest : honest → WireName sha256Hex content name) (hlen : content.length < 2 ^ 64) {io : SfIo}
    (hopen : io.openOk = true) (hwrite : ∀ off n, io.pwrite off n = n) {sender : StreamFile}
    (htotal : sender.txTotal = content.length) (hwire : sender.txWire = name)
    {chunks payloads frames : List Bytes} (hchunks : chunks.flatten <+: content)
    (hsizes : ∀ c ∈ chunks, c ≠ [] ∧ c.length ≤ sfVtpChunk)
    (hpayloads : payloads <+: sfMetadata sender :: chunks)
    (hframes : List.Forall₂ (SfFrame aead key) payloads frames) :
    Framing.Handles (sfHandle sha256Hex aead io) sfStopped
      (RxInv content name honest key (sfMetadata sender :: chunks)) frames := by
  intro done f rest sf hsplit hinv hlive
  obtain ⟨hcount, hrel⟩ := List.forall₂_iff_get.mp hframes
  have hdone : done.length < frames.length := by simp [hsplit]
  have hpl : done.length < payloads.length := hcount ▸ hdone
  have hget : frames.get ⟨done.length, hdone⟩ = f := by simp [hsplit]
  have hframe := hrel done.length hpl hdone
  rw [hget] at hframe
  -- the payload of the frame, in the list of all payloads
  set pl := payloads.get ⟨done.length, hpl⟩ with hpldef
  have hnth : (sfMetadata sender :: chunks)[done.length]? = some pl := by
    obtain ⟨more, hmore⟩ := hpayloads
    rw [← hmore, List.getElem?_append_left hpl, List.getElem?_eq_getElem hpl]
    rfl
  have htake : (sfMetadata sender :: chunks).take (done ++ [f]).length =
      (sfMetadata sender :: chunks).take done.length ++ [pl] := by
    rw [List.length_append, List.length_singleton, List.take_add_one, hnth]
    rfl
  have hstep : ∀ {r : StreamFile × Bool}, sfHandle sha256Hex aead io sf f = r → r.2 = true →
      RxAt content name honest ((sfMetadata sender :: chunks).take done.length ++ [pl]) r.1 →
      RxInv content name honest key (sfMetadata sender :: chunks) (done ++ [f])
        (sfHandle sha256Hex aead io sf f).1 ∧
        ((sfHandle sha256Hex aead io sf f).2 = true ∨
          sfStopped (sfHandle sha256Hex aead io sf f).1 = true) := by
    intro r hr hgo hrx
    have hkept : TxKept sf (sfHandle sha256Hex aead io sf f).1 :=
      sfProcessFrame_kept sha256Hex aead io sf f _
    refine ⟨⟨hkept.key.trans hinv.key, hkept.closed.trans hinv.closed, ?_⟩, Or.inl (hr ▸ hgo)⟩
    rw [htake, hr]
    exact hrx
  have hat := hinv.at'
  have hkeyed : SfFrame aead sf.key pl f := hinv.key ▸ hframe
  cases hk : done.length with
  | zero =>
      rw [hk] at hnth hat
      simp only [List.getElem?_cons_zero, Option.some.injEq] at hnth
      have hshort := hname.short
      have hsize : pl.length ≤ sfVtpChunk := by
        rw [← hnth, sfMetadata, hwire]
        simp only [List.length_append, putU64_length, putU16_length, sfVtpChunk]
        omega
      have hwait : sf.rxState = .wait := by
        cases hat with
        | waiting hstate => exact hstate
      have hhandle := sfHandle_frame sha256Hex io hkeyed hsize hlive
      rw [if_pos hwait, ← hnth] at hhandle
      obtain ⟨hgo, hrx⟩ := sfProcessMeta_rxAt hname hhonest hopen hat htotal hwire
      refine hstep hhandle hgo ?_
      rw [hk, ← hnth]
      exact hrx
  | succ k =>
      rw [hk] at hnth hat
      simp only [List.getElem?_cons_succ] at hnth
      rw [List.take_succ_cons] at hat
      have hmem : pl ∈ chunks := List.mem_of_getElem? hnth
      obtain ⟨hne, hsize⟩ := hsizes pl hmem
      have hdata : sf.rxState = .data := by
        cases hat with
        | receiving _ _ hstate => exact hstate
        | received _ _ hstate => exact absurd (Or.inl hstate) (sfStopped_false hlive)
      have hhandle := sfHandle_frame sha256Hex io hkeyed hsize hlive
      rw [if_neg (by simp [hdata])] at hhandle
      have hnext : (chunks.take k ++ [pl]).flatten <+: content := by
        have htake' : chunks.take (k + 1) = chunks.take k ++ [pl] := by
          rw [List.take_add_one, hnth]
          rfl
        rw [← htake']
        refine List.IsPrefix.trans ?_ hchunks
        conv_rhs => rw [← List.take_append_drop (k + 1) chunks, List.flatten_append]
        exact List.prefix_append _ _
      obtain ⟨hgo, hrx⟩ := sfProcessChunk_rxAt hhonest hlen hwrite hat hdata hne hnext
      refine hstep hhandle hgo ?_
      rw [hk, List.take_succ_cons]
      exact hrx

/-! ## The whole stream -/

/-- A session that has received nothing and may receive. -/
structure RxFresh (sf : StreamFile) : Prop where
  closed : sf.closed = false
  state : sf.rxState = .wait
  dir : sf.recvDir.isSome = true
  rxbuf : sf.rxbuf = []
  written : sf.written = []
  reports : rxReports sf = []

/-- The buffer is no part of what the receiver holds. -/
theorem RxAt.setRxbuf {payloads : List Bytes} {sf : StreamFile}
    (h : RxAt content name honest payloads sf) (rxbuf : Bytes) :
    RxAt content name honest payloads { sf with rxbuf := rxbuf } := by
  cases h with
  | waiting h1 h2 h3 h4 => exact .waiting h1 h2 h3 h4
  | receiving i cs h1 h2 h3 h4 h5 h6 h7 h8 h9 => exact .receiving i cs h1 h2 h3 h4 h5 h6 h7 h8 h9
  | received i cs h1 h2 h3 h4 ok m h5 h6 => exact .received i cs h1 h2 h3 h4 ok m h5 h6

/-- A call of `sf_on_data` keeps the place in the stream, and leaves nothing that
could be handled. -/
theorem sfOnData_reads {aead : Aead} {io : SfIo} {key : Bytes} {payloads frames : List Bytes}
    (hframes : ∀ f ∈ frames, Framing.IsFrame sfCut (sfHandle sha256Hex aead io) f)
    (hhandles : Framing.Handles (sfHandle sha256Hex aead io) sfStopped
      (RxInv content name honest key payloads) frames) {chunk tail : Bytes} {sf : StreamFile}
    (h : Framing.Reads sfStopped (RxInv content name honest key payloads) frames (chunk ++ tail)
      (sf, sf.rxbuf)) {sf' : StreamFile} (hsf : sf' = sfOnData sha256Hex aead io sf chunk) :
    Framing.Reads sfStopped (RxInv content name honest key payloads) frames tail (sf', sf'.rxbuf) ∧
      Framing.Drained sfCut sfStopped (sf', sf'.rxbuf) := by
  have hopen : sf.closed = false := by
    obtain ⟨_, _, _, hinv, _⟩ := h
    exact hinv.closed
  have hdrained := h.feed_drained rfl hframes hhandles
  obtain ⟨done, rest, hsplit, ⟨hk, hc, hat⟩, hbuf⟩ := h.feed rfl hframes hhandles
  unfold sfOnData at hsf
  rw [hopen, if_neg (by simp)] at hsf
  rw [hsf]
  exact ⟨⟨done, rest, hsplit, ⟨hk, hc, hat.setRxbuf _⟩, hbuf⟩, hdrained⟩

theorem foldl_sfOnData_reads {aead : Aead} {io : SfIo} {key : Bytes}
    {payloads frames : List Bytes}
    (hframes : ∀ f ∈ frames, Framing.IsFrame sfCut (sfHandle sha256Hex aead io) f)
    (hhandles : Framing.Handles (sfHandle sha256Hex aead io) sfStopped
      (RxInv content name honest key payloads) frames) (arrived : List Bytes) :
    ∀ {tail : Bytes} {sf t : StreamFile}, t = arrived.foldl (sfOnData sha256Hex aead io) sf →
      Framing.Reads sfStopped (RxInv content name honest key payloads) frames
        (arrived.flatten ++ tail) (sf, sf.rxbuf) →
      Framing.Drained sfCut sfStopped (sf, sf.rxbuf) →
      Framing.Reads sfStopped (RxInv content name honest key payloads) frames tail (t, t.rxbuf) ∧
        Framing.Drained sfCut sfStopped (t, t.rxbuf) := by
  induction arrived with
  | nil =>
      rintro tail sf t rfl h hdrained
      exact ⟨h, hdrained⟩
  | cons c cs ih =>
      rintro tail sf t ht h -
      rw [List.flatten_cons, List.append_assoc] at h
      obtain ⟨hnext, hdrained⟩ := sfOnData_reads hframes hhandles h rfl
      exact ih ht hnext hdrained

/-! ## What the frames are to the receiver -/

/-- The frames a sending session has queued: the metadata and chunks of the
content, each of them a frame to the reassembly, and handled in turn. -/
structure Queued (sha256Hex : Bytes → Bytes) (aead : Aead) (io : SfIo) (content name : Bytes)
    (honest : Prop) (sender : StreamFile) (s : StreamFile × List Bytes) (chunks : List Bytes) :
    Prop where
  sent : SentInv aead content sender.key (sfMetadata sender) s chunks
  isFrame : ∀ f ∈ s.2, Framing.IsFrame sfCut (sfHandle sha256Hex aead io) f
  handles : Framing.Handles (sfHandle sha256Hex aead io) sfStopped
    (RxInv content name honest sender.key (sfMetadata sender :: chunks)) s.2

theorem Queued.of_calls {aead : Aead} {io : SfIo} (hname : AcceptedName name)
    (hhonest : honest → WireName sha256Hex content name) (hlen : content.length < 2 ^ 64)
    {idle sender : StreamFile}
    (hstart : streamFileStartSend idle (some content.length) name = (sender, true))
    {calls : List SfCall} (hreads : ∀ c ∈ calls, ReadsFile content c)
    (hopen : io.openOk = true) (hwrite : ∀ off n, io.pwrite off n = n) :
    ∃ chunks, Queued sha256Hex aead io content name honest sender
      (calls.foldl (sfCall sha256Hex aead) (sender, [])) chunks := by
  obtain ⟨total, htotal', hsender⟩ := streamFileStartSend_ok hstart
  obtain ⟨htotal, hwire, hunsent, hoff⟩ : sender.txTotal = content.length ∧
      sender.txWire = name ∧ sender.txMetaSent = false ∧ sender.txOffset = 0 := by
    rw [hsender, ← Option.some.inj htotal']
    exact ⟨rfl, rfl, rfl, rfl⟩
  have hinit : SentInv aead content sender.key (sfMetadata sender) (sender, []) [] := by
    refine ⟨rfl, rfl, fun _ => rfl, ?_, ?_, ?_, by simp⟩
    · rw [hunsent]
      exact .nil
    · rw [hoff]
      rfl
    · rw [hoff]
      exact Nat.zero_le _
  obtain ⟨chunks, hsent⟩ := sfCall_sentInv sha256Hex calls hinit hreads
  set frames := (calls.foldl (sfCall sha256Hex aead) (sender, [])).2
  have hchunks : chunks.flatten <+: content := hsent.read ▸ List.take_prefix _ _
  obtain ⟨payloads, hpayloads, hforall⟩ : ∃ payloads, payloads <+: sfMetadata sender :: chunks ∧
      List.Forall₂ (SfFrame aead sender.key) payloads frames := by
    refine ⟨_, ?_, hsent.frames⟩
    split
    · exact List.prefix_refl _
    · exact List.nil_prefix
  have hsizes : ∀ pl ∈ payloads, pl.length ≤ sfVtpChunk := by
    intro pl hpl
    rcases List.mem_cons.mp (hpayloads.subset hpl) with rfl | hmem
    · have hshort := hname.short
      rw [sfMetadata, hwire]
      simp only [List.length_append, putU64_length, putU16_length, sfVtpChunk]
      omega
    · exact (hsent.sizes pl hmem).2
  have hframes : ∀ f ∈ frames, Framing.IsFrame sfCut (sfHandle sha256Hex aead io) f := by
    intro f hf
    obtain ⟨i, hi, rfl⟩ := List.getElem_of_mem hf
    obtain ⟨hcount, hrel⟩ := List.forall₂_iff_get.mp hforall
    exact (hrel i (hcount ▸ hi) hi).isFrame sha256Hex
      (hsizes _ (List.get_mem payloads ⟨i, hcount ▸ hi⟩)) io
  exact ⟨chunks, hsent, hframes, rxInv_handles hname hhonest hlen hopen hwrite htotal hwire hchunks
    hsent.sizes hpayloads hforall⟩

/-- A fresh receiver has read nothing of the stream. -/
theorem RxFresh.reads {receiver : StreamFile} (h : RxFresh receiver) {key : Bytes}
    (hkey : receiver.key = key) {payloads frames : List Bytes} {stream : Bytes}
    (hstream : stream = frames.flatten) :
    Framing.Reads sfStopped (RxInv content name honest key payloads) frames stream
        (receiver, receiver.rxbuf) ∧
      Framing.Drained sfCut sfStopped (receiver, receiver.rxbuf) := by
  constructor
  · refine ⟨[], frames, rfl, ⟨hkey, h.closed, .waiting h.state h.dir h.written h.reports⟩,
      fun _ => ?_⟩
    rw [h.rxbuf, List.nil_append]
    exact hstream
  · right
    rw [h.rxbuf]
    rfl

end Receive

/-- **A transfer writes the content.** Whatever part of the sender's stream has
arrived, and however it was cut, the bytes written are a prefix of the content,
no frame was rejected, and at most one result was reported, a success with the
whole content written. -/
theorem StreamFile.transfer {sha256Hex : Bytes → Bytes} {aead : Aead} {content name : Bytes}
    (hname : WireName sha256Hex content name) (hlen : content.length < 2 ^ 64)
    {idle sender : StreamFile}
    (hstart : streamFileStartSend idle (some content.length) name = (sender, true))
    {calls : List SfCall} (hreads : ∀ c ∈ calls, ReadsFile content c)
    {receiver : StreamFile} (hfresh : RxFresh receiver) (hkey : receiver.key = sender.key)
    {io : SfIo} (hopen : io.openOk = true) (hwrite : ∀ off n, io.pwrite off n = n)
    {arrived : List Bytes}
    (harrived : arrived.flatten <+:
      (calls.foldl (sfCall sha256Hex aead) (sender, [])).2.flatten)
    {t : StreamFile} (ht : t = arrived.foldl (sfOnData sha256Hex aead io) receiver) :
    t.written <+: content ∧ t.rxState ≠ .failed ∧ (rxReports t).length ≤ 1 ∧
      ∀ d ∈ rxReports t, d.ok = true ∧ t.written = content := by
  obtain ⟨chunks, hsent, hframes, hhandles⟩ :
      ∃ chunks, Queued sha256Hex aead io content name True sender
        (calls.foldl (sfCall sha256Hex aead) (sender, [])) chunks :=
    Queued.of_calls hname.accepted (fun _ => hname) hlen hstart hreads hopen hwrite
  have hchunks : chunks.flatten <+: content := hsent.read ▸ List.take_prefix _ _
  obtain ⟨tail, htail⟩ := harrived
  obtain ⟨hstartAt, hdrained⟩ := hfresh.reads hkey htail
  obtain ⟨⟨done, _, _, hinv, _⟩, -⟩ :=
    foldl_sfOnData_reads hframes hhandles arrived ht hstartAt hdrained
  have hat := hinv.at'
  generalize hpls : (sfMetadata sender :: chunks).take done.length = pls at hat
  cases hat with
  | waiting hstate _ hwritten hreports =>
      rw [hwritten, hreports, hstate]
      exact ⟨List.nil_prefix, by simp, by simp, by simp⟩
  | receiving info cs hstate _ _ _ _ _ hwritten hreports =>
      rw [hwritten, hreports, hstate]
      refine ⟨?_, by simp, by simp, by simp⟩
      have hcs : cs <+: chunks := by
        have hpre : info :: cs <+: sfMetadata sender :: chunks := hpls ▸ List.take_prefix _ _
        exact (List.cons_prefix_cons.mp hpre).2
      obtain ⟨more, rfl⟩ := hcs
      rw [List.flatten_append] at hchunks
      exact (List.prefix_append _ _).trans hchunks
  | received info cs hstate _ hwritten _ ok m hreports hverdict =>
      rw [hwritten, hreports, hstate, hverdict trivial]
      exact ⟨List.prefix_refl _, by simp, by simp, by simp⟩

/-! ## Both ends agree that the file is complete -/

/-- A call before the end of file keeps the send from being done and its file open. -/
theorem sfCall_unfinished {sha256Hex : Bytes → Bytes} {aead : Aead} {s : StreamFile × List Bytes}
    (h : s.1.txState ≠ .done ∧ s.1.txFdOpen = true) {c : SfCall} (hc : c ≠ .txComplete) :
    (sfCall sha256Hex aead s c).1.txState ≠ .done ∧
      (sfCall sha256Hex aead s c).1.txFdOpen = true := by
  have hkept : ∀ {sf : StreamFile}, TxKept s.1 sf → sf.txState ≠ .done ∧ sf.txFdOpen = true := by
    intro sf hk
    refine ⟨?_, hk.fdOpen.trans h.2⟩
    rcases hk.state with hs | ⟨-, hs⟩
    · rw [hs]
      exact h.1
    · simp [hs]
  cases c with
  | txComplete => exact absurd rfl hc
  | data io bytes => exact hkept (sfOnData_kept sha256Hex aead io s.1 bytes)
  | fill env =>
      show (sfFill aead env s.1).1.txState ≠ .done ∧ (sfFill aead env s.1).1.txFdOpen = true
      have hcases := sfFill_filled aead env s.1
      generalize sfFill aead env s.1 = r at hcases
      cases hcases with
      | failed why _ => exact hkept (sfFail_kept s.1 why)
      | _ => exact h

theorem foldl_sfCall_unfinished (sha256Hex : Bytes → Bytes) (aead : Aead) {calls : List SfCall} :
    ∀ {s : StreamFile × List Bytes}, s.1.txState ≠ .done ∧ s.1.txFdOpen = true →
      (∀ c ∈ calls, c ≠ .txComplete) →
      (calls.foldl (sfCall sha256Hex aead) s).1.txState ≠ .done ∧
        (calls.foldl (sfCall sha256Hex aead) s).1.txFdOpen = true := by
  induction calls with
  | nil => intro s h _; exact h
  | cons c cs ih =>
      intro s h hcs
      exact ih (sfCall_unfinished h (hcs c (by simp))) fun c' hc' =>
        hcs c' (List.mem_cons_of_mem _ hc')

/-- The `-1` of a fill call means that the metadata and all of the file are queued. -/
theorem SentInv.of_eof {aead : Aead} {content key info : Bytes} {s : StreamFile × List Bytes}
    {chunks : List Bytes} (h : SentInv aead content key info s chunks)
    (hopen : s.1.txState ≠ .done ∧ s.1.txFdOpen = true) {env : SfFillEnv}
    (hread : ReadsFile content (.fill env)) (heof : (sfFill aead env s.1).2.ret = -1) :
    s.1.txMetaSent = true ∧ chunks.flatten = content := by
  have hcases := sfFill_filled aead env s.1
  generalize sfFill aead env s.1 = r at hcases heof
  cases hcases with
  | quiet _ _ => simp at heof
  | failed _ _ => simp at heof
  | metadata frame _ _ _ => simp only at heof; omega
  | chunk _ frame _ _ _ _ _ _ => simp only at heof; omega
  | done hdone => exact absurd hdone hopen.1
  | eof _ hsent hend =>
      obtain ⟨chunk, hchunk, -, -, hnil⟩ := hread s.1.txOffset
      obtain rfl : [] = chunk := Option.some.inj ((hend hopen.2).symm.trans hchunk)
      exact ⟨hsent, by rw [h.read, List.take_of_length_le (hnil rfl)]⟩

/-- **A file read to its end and delivered.** The calls of the sender up to the
fill call `last`, which returns `-1`, and the frames it queued, delivered in
pieces. -/
structure Delivered (sha256Hex : Bytes → Bytes) (aead : Aead) (io : SfIo) (content name : Bytes)
    (sender : StreamFile) (calls : List SfCall) (last : SfFillEnv) (receiver : StreamFile)
    (arrived : List Bytes) : Prop where
  accepted : AcceptedName name
  size : content.length < 2 ^ 64
  start : ∃ idle, streamFileStartSend idle (some content.length) name = (sender, true)
  reads : ∀ c ∈ calls, ReadsFile content c
  unfinished : ∀ c ∈ calls, c ≠ .txComplete
  lastRead : ReadsFile content (.fill last)
  eof : (sfFill aead last (calls.foldl (sfCall sha256Hex aead) (sender, [])).1).2.ret = -1
  fresh : RxFresh receiver
  key : receiver.key = sender.key
  opens : io.openOk = true
  writes : ∀ off n, io.pwrite off n = n
  arrived : arrived.flatten = (calls.foldl (sfCall sha256Hex aead) (sender, [])).2.flatten

/-- The receiver knows that the file is complete. -/
def RxComplete (sf : StreamFile) : Prop :=
  sf.rxState = .done ∧ sf.rxFdOpen = false ∧ ∃ d, rxReports sf = [d]

/-- **The two ends agree**, except about the empty file: the receiver tests for
completion only after a data frame, and the sender sends none. -/
theorem StreamFile.completes_iff {sha256Hex : Bytes → Bytes} {aead : Aead} {io : SfIo}
    {content name : Bytes} {sender receiver : StreamFile} {calls : List SfCall} {last : SfFillEnv}
    {arrived : List Bytes}
    (h : Delivered sha256Hex aead io content name sender calls last receiver arrived) :
    RxComplete (arrived.foldl (sfOnData sha256Hex aead io) receiver) ↔ content ≠ [] := by
  generalize ht : arrived.foldl (sfOnData sha256Hex aead io) receiver = t
  obtain ⟨idle, hstart⟩ := h.start
  obtain ⟨chunks, hsent, hframes, hhandles⟩ :
      ∃ chunks, Queued sha256Hex aead io content name False sender
        (calls.foldl (sfCall sha256Hex aead) (sender, [])) chunks :=
    Queued.of_calls h.accepted False.elim h.size hstart h.reads h.opens h.writes
  have hopen : sender.txState ≠ .done ∧ sender.txFdOpen = true := by
    obtain ⟨total, -, hsender⟩ := streamFileStartSend_ok hstart
    rw [hsender]
    exact ⟨by simp, rfl⟩
  obtain ⟨hmeta, hall⟩ := hsent.of_eof
    (foldl_sfCall_unfinished sha256Hex aead hopen h.unfinished) h.lastRead h.eof
  -- the whole stream has been read
  obtain ⟨hstartAt, hdrained⟩ := h.fresh.reads h.key (h.arrived.trans rfl)
  rw [← List.append_nil arrived.flatten] at hstartAt
  obtain ⟨hreads, hend⟩ := foldl_sfOnData_reads hframes hhandles arrived ht.symm hstartAt hdrained
  obtain ⟨done, hinv, hdone⟩ := hreads.all hframes hend
  change sfStopped t = true ∨ _ at hdone
  have hat : RxAt content name False _ t := hinv.at'
  generalize hpls : (sfMetadata sender :: chunks).take done.length = pls at hat
  have hfull : t.rxState ≠ .failed ∧ t.rxState ≠ .done → pls = sfMetadata sender :: chunks := by
    rintro ⟨hfailed, hnot⟩
    have hlive : sfStopped t = false := by simp [sfStopped, hfailed, hnot]
    rw [hlive] at hdone
    have hcount := hsent.frames.length_eq
    rw [if_pos hmeta] at hcount
    rw [← hpls, hdone.resolve_left (by simp), ← hcount, List.take_length]
  cases hat with
  | waiting hstate _ _ _ =>
      have hbad := hfull (by simp [hstate])
      cases hbad
  | received _ _ hstate hfd _ hne ok m hreports _ =>
      constructor
      · exact fun _ => hne
      · exact fun _ => ⟨hstate, hfd, _, hreports⟩
  | receiving info cs hstate _ _ _ _ _ _ _ hmore =>
      have hsame := hfull (by simp [hstate])
      obtain ⟨-, rfl⟩ := List.cons.inj hsame
      have hempty : content = [] := by
        rw [← hall, hmore.resolve_right (fun hne => hne hall)]
        rfl
      constructor
      · rintro ⟨hdone', -, -⟩
        rw [hstate] at hdone'
        cases hdone'
      · exact fun hne => absurd hempty hne

/-! ## A file of one byte -/

theorem oneByteEnv_reads (i : UInt8) : ReadsFile [65] (.fill (oneByteEnv i)) := by
  intro off
  refine ⟨List.drop off [65], rfl, List.prefix_refl _, ?_, ?_⟩
  · simp only [List.length_drop, List.length_singleton, sfVtpChunk]
    omega
  · intro hnil
    exact List.drop_eq_nil_iff.mp hnil

theorem oneByteFile_frames :
    ([SfCall.fill (oneByteEnv 1), .fill (oneByteEnv 2)].foldl (sfCall (fun _ => []) oneByteAead)
      (oneByteFile, [])).2 = [oneByteFrame 0, oneByteFrame 1] := by decide +kernel

def oneByteReceiver : StreamFile :=
  { streamFileNew (List.replicate 32 0) with recvDir := some (ascii "/tmp") }

/-- The two frames, cut inside the first one. -/
def oneByteArrived : List Bytes := [(oneByteFrame 0).take 50, (oneByteFrame 0).drop 50 ++ oneByteFrame 1]

/-- What the receiver makes of them. -/
def oneByteReceived : StreamFile :=
  oneByteArrived.foldl (sfOnData (fun _ => []) oneByteAead ⟨true, fun _ n => n, true⟩) oneByteReceiver

theorem oneByteCalls_read : ∀ c ∈ [SfCall.fill (oneByteEnv 1), .fill (oneByteEnv 2)],
    ReadsFile [65] c := by
  intro c hc
  simp only [List.mem_cons, List.not_mem_nil, or_false] at hc
  rcases hc with rfl | rfl
  · exact oneByteEnv_reads 1
  · exact oneByteEnv_reads 2

theorem StreamFile.transfer_one_byte :
    oneByteReceived.rxState = .done ∧ oneByteReceived.written <+: [65] ∧
      oneByteReceived.rxState ≠ .failed ∧ (rxReports oneByteReceived).length ≤ 1 ∧
      ∀ d ∈ rxReports oneByteReceived, d.ok = true ∧ oneByteReceived.written = [65] := by
  have hname : WireName (fun _ => []) [65] [97] :=
    ⟨by decide, by decide, by decide, by decide, by decide, by decide, by decide,
      Or.inl (by decide)⟩
  have hstart : streamFileStartSend (streamFileNew (List.replicate 32 0)) (some [(65 : UInt8)].length)
      [97] = (oneByteFile, true) := rfl
  have harrived : oneByteArrived.flatten <+: ([SfCall.fill (oneByteEnv 1),
      .fill (oneByteEnv 2)].foldl (sfCall (fun _ => []) oneByteAead) (oneByteFile, [])).2.flatten := by
    rw [oneByteFile_frames]
    exact ⟨[], by simp [oneByteArrived, ← List.append_assoc]⟩
  have hfresh : RxFresh oneByteReceiver := ⟨rfl, rfl, rfl, rfl, rfl, rfl⟩
  have hkey : oneByteReceiver.key = oneByteFile.key := rfl
  have hdef : oneByteReceived = oneByteArrived.foldl
      (sfOnData (fun _ => []) oneByteAead ⟨true, fun _ n => n, true⟩) oneByteReceiver := rfl
  exact ⟨by decide +kernel, StreamFile.transfer hname (by decide) hstart oneByteCalls_read hfresh hkey rfl
    (fun _ _ => rfl) harrived hdef⟩

theorem StreamFile.completes_iff_one_byte :
    RxComplete oneByteReceived ↔ ([65] : Bytes) ≠ [] := by
  have harrived : oneByteArrived.flatten = ([SfCall.fill (oneByteEnv 1),
      .fill (oneByteEnv 2)].foldl (sfCall (fun _ => []) oneByteAead) (oneByteFile, [])).2.flatten := by
    rw [oneByteFile_frames]
    simp [oneByteArrived, ← List.append_assoc]
  have hdelivered : Delivered (fun _ => []) oneByteAead ⟨true, fun _ n => n, true⟩ [65] [97]
      oneByteFile [.fill (oneByteEnv 1), .fill (oneByteEnv 2)] (oneByteEnv 2) oneByteReceiver
      oneByteArrived :=
    ⟨⟨by decide, by decide, by decide⟩, by decide, ⟨streamFileNew (List.replicate 32 0), rfl⟩,
      oneByteCalls_read, by simp, oneByteEnv_reads 2, by decide +kernel,
      ⟨rfl, rfl, rfl, rfl, rfl, rfl⟩, rfl, rfl, fun _ _ => rfl, harrived⟩
  exact StreamFile.completes_iff hdelivered

/-! ## The empty file -/

/-- The metadata frame of the empty file `a`, sealed with AES-256-GCM under the
zero key. -/
def emptySealed : List VtpSealed :=
  [{ key := List.replicate 32 0, nonce := List.replicate 12 1
     plain := vtpHeader 1 0 0 0 11 ++ [0, 0, 0, 0, 0, 0, 0, 0, 0, 1, 97]
     ct := [116, 64, 195, 106, 122, 137, 120, 253, 98, 182, 228, 141, 187, 47, 124, 105, 188, 101,
      236, 91, 15, 230, 53, 54, 15, 180, 112]
     tag := [88, 63, 196, 1, 4, 221, 242, 195, 178, 77, 49, 102, 112, 238, 207, 12] }]

def emptyAead : Aead := Aead.ofAnswers emptySealed (by decide) (by decide)

def emptyEnv : SfFillEnv where
  nonce := some (List.replicate 12 1)
  nonce_length := by simp [vtpNonceLen]
  timestamp := 0
  pread := fun _ => some []

def emptyFile : StreamFile :=
  { streamFileNew (List.replicate 32 0) with txFdOpen := true, txWire := [97], txState := .active }

/-- The frame the sender queues. -/
def emptyFrame : Bytes :=
  ([SfCall.fill emptyEnv].foldl (sfCall (fun _ => []) emptyAead) (emptyFile, [])).2.flatten

/-- **The empty file is never complete for the receiver.** -/
theorem StreamFile.not_completes_empty :
    Delivered (fun _ => []) emptyAead ⟨true, fun _ n => n, true⟩ [] [97] emptyFile
        [.fill emptyEnv] emptyEnv oneByteReceiver [emptyFrame] ∧
      ¬ RxComplete ([emptyFrame].foldl
        (sfOnData (fun _ => []) emptyAead ⟨true, fun _ n => n, true⟩) oneByteReceiver) := by
  have hread : ReadsFile [] (.fill emptyEnv) := fun _ =>
    ⟨[], rfl, by simp, by simp, fun _ => Nat.zero_le _⟩
  constructor
  · exact ⟨⟨by decide, by decide, by decide⟩, by decide,
      ⟨streamFileNew (List.replicate 32 0), rfl⟩, by simpa using hread, by simp, hread,
      by decide +kernel, ⟨rfl, rfl, rfl, rfl, rfl, rfl⟩, rfl, rfl, fun _ _ => rfl,
      by simp [emptyFrame]⟩
  · rintro ⟨hdone, -, -⟩
    have hdata : ([emptyFrame].foldl
      (sfOnData (fun _ => []) emptyAead ⟨true, fun _ n => n, true⟩) oneByteReceiver).rxState =
        .data := by decide +kernel
    rw [hdata] at hdone
    cases hdone

end HwPhoneLink.Stream
