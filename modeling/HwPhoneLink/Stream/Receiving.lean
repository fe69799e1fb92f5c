import HwPhoneLink.Stream.Transfer

/-!
# A receiver with failures of its own

The receive half of a session whose file calls may fail and whose own send may fail, on the frames
that a sender of an unchanging file has queued. It has handled some of the frames, or it has failed
and reported that once (`RxHeld`); what it has written is a front of the content in both cases.
-/

namespace HwPhoneLink.Stream

open BigEndian HwPhoneLink.Fillp HwPhoneLink.Testfile HwPhoneLink.Vtp

/-! ## The payloads of frames -/

/-- The frames carry the payloads, which the receiver has room for. -/
structure Carries (aead : Aead) (key : Bytes) (pls frames : List Bytes) : Prop where
  frames : List.Forall₂ (SfFrame aead key) pls frames
  sizes : ∀ pl ∈ pls, pl.length ≤ sfVtpChunk

section
variable {aead : Aead} {key : Bytes}

/-- A frame has one payload. -/
theorem SfFrame.payload_unique {data data' frame : Bytes} (h : SfFrame aead key data frame)
    (h' : SfFrame aead key data' frame) (hsize : data.length ≤ sfVtpChunk)
    (hsize' : data'.length ≤ sfVtpChunk) : data = data' := by
  obtain ⟨f, hf, hdata⟩ := h.parse hsize
  obtain ⟨f', hf', hdata'⟩ := h'.parse hsize'
  obtain rfl : f = f' := Option.some.inj (hf.symm.trans hf')
  exact hdata.symm.trans hdata'

theorem Carries.unique {pls pls' frames : List Bytes} (h : Carries aead key pls frames)
    (h' : Carries aead key pls' frames) : pls = pls' := by
  obtain ⟨hframes, hsizes⟩ := h
  obtain ⟨hframes', hsizes'⟩ := h'
  induction hframes generalizing pls' with
  | nil => exact (List.forall₂_nil_right_iff.mp hframes').symm
  | cons hhead _ ih =>
      obtain ⟨pl', rest', hhead', hrest', rfl⟩ := List.forall₂_cons_right_iff.mp hframes'
      rw [hhead.payload_unique hhead' (hsizes _ List.mem_cons_self)
        (hsizes' _ List.mem_cons_self), ih (fun pl hpl => hsizes pl (List.mem_cons_of_mem _ hpl))
        hrest' fun pl hpl => hsizes' pl (List.mem_cons_of_mem _ hpl)]

/-- The payloads of the first frames are the first payloads. -/
theorem Carries.take {pls frames : List Bytes} (h : Carries aead key pls frames) (n : ℕ) :
    Carries aead key (pls.take n) (frames.take n) :=
  ⟨List.forall₂_take n h.frames, fun pl hpl => h.sizes pl (List.mem_of_mem_take hpl)⟩

/-- The frames of a sender carry the metadata and the chunks. -/
theorem SentInv.carries {content name : Bytes} {sender : StreamFile}
    {s : StreamFile × List Bytes} {chunks : List Bytes}
    (h : SentInv aead content key (sfMetadata sender) s chunks) (hname : AcceptedName name)
    (hwire : sender.txWire = name) :
    ∃ pls, pls <+: sfMetadata sender :: chunks ∧ Carries aead key pls s.2 := by
  have hinfo : (sfMetadata sender).length ≤ sfVtpChunk := by
    have hshort := hname.short
    rw [sfMetadata, hwire]
    simp only [List.length_append, putU64_length, putU16_length, sfVtpChunk]
    omega
  have hfront : (if s.1.txMetaSent then sfMetadata sender :: chunks else []) <+:
      sfMetadata sender :: chunks := by
    split
    · exact List.prefix_refl _
    · exact List.nil_prefix
  refine ⟨_, hfront, h.frames, fun pl hpl => ?_⟩
  rcases List.mem_cons.mp (hfront.subset hpl) with rfl | hmem
  · exact hinfo
  · exact (h.sizes pl hmem).2

/-- Each frame is one to the reassembly. -/
theorem SentInv.isFrame (sha256Hex : Bytes → Bytes) {content name : Bytes} {sender : StreamFile}
    {s : StreamFile × List Bytes} {chunks : List Bytes}
    (h : SentInv aead content key (sfMetadata sender) s chunks) (hname : AcceptedName name)
    (hwire : sender.txWire = name) (io : SfIo) :
    ∀ f ∈ s.2, Framing.IsFrame sfCut (sfHandle sha256Hex aead io) f := by
  obtain ⟨pls, -, hcarries⟩ := h.carries hname hwire
  intro f hf
  obtain ⟨i, hi, rfl⟩ := List.getElem_of_mem hf
  obtain ⟨hcount, hrel⟩ := List.forall₂_iff_get.mp hcarries.frames
  exact (hrel i (hcount ▸ hi) hi).isFrame sha256Hex
    (hcarries.sizes _ (List.get_mem pls ⟨i, hcount ▸ hi⟩)) io

end

/-! ## The receive half -/

/-- The send half and the reports on it may differ. -/
structure RxSame (sf sf' : StreamFile) : Prop where
  fields : sf' = { sf with
    txState := sf'.txState, txWire := sf'.txWire, txFdOpen := sf'.txFdOpen
    txTotal := sf'.txTotal, txOffset := sf'.txOffset, txMetaSent := sf'.txMetaSent
    done := sf'.done }
  reports : rxReports sf' = rxReports sf

/-- A receive half that was open has failed, and nothing else has happened to it. -/
structure RxBroken (sf sf' : StreamFile) : Prop where
  was : sf.rxState = .data ∨ sf.rxState = .wait ∧ sf.recvDir.isSome = true
  state : sf'.rxState = .failed
  key : sf'.key = sf.key
  closed : sf'.closed = sf.closed
  rxbuf : sf'.rxbuf = sf.rxbuf
  written : sf'.written = sf.written
  reports : ∃ why, rxReports sf' = rxReports sf ++ [⟨false, false, why⟩]

theorem RxSame.refl (sf : StreamFile) : RxSame sf sf := ⟨rfl, rfl⟩

theorem rxReports_append (sf : StreamFile) (d : SfDone) :
    rxReports { sf with done := sf.done ++ [d] } =
      rxReports sf ++ if d.isSend then [] else [d] := by
  obtain ⟨isSend, ok, message⟩ := d
  unfold rxReports
  cases isSend <;> simp

theorem RxSame.reported {sf sf' : StreamFile} (h : RxSame sf sf') {d : SfDone}
    (hd : d.isSend = true) : RxSame sf { sf' with done := sf'.done ++ [d] } := by
  refine ⟨?_, ?_⟩
  · rw [h.fields]
  · rw [rxReports_append, hd, if_pos rfl, List.append_nil, h.reports]

theorem RxBroken.same {sf sf' sf'' : StreamFile} (h : RxBroken sf sf') (hs : RxSame sf' sf'') :
    RxBroken sf sf'' := by
  obtain ⟨hfields, hreports⟩ := hs
  obtain ⟨why, hwhy⟩ := h.reports
  refine ⟨h.was, ?_, ?_, ?_, ?_, ?_, why, hreports.trans hwhy⟩
  · rw [hfields]
    exact h.state
  · rw [hfields]
    exact h.key
  · rw [hfields]
    exact h.closed
  · rw [hfields]
    exact h.rxbuf
  · rw [hfields]
    exact h.written

theorem sfFailRx_half (sf : StreamFile) (why : String) :
    RxSame sf (sfFailRx sf why) ∨ RxBroken sf (sfFailRx sf why) := by
  have hreports : rxReports (sfReport { sf with rxState := .failed } false false why) =
      rxReports sf ++ [⟨false, false, why⟩] := rxReports_append _ _
  unfold sfFailRx
  split
  · rename_i hwait
    split
    · rename_i hdir
      exact Or.inr ⟨Or.inr ⟨hwait, hdir⟩, rfl, rfl, rfl, rfl, rfl, why, hreports⟩
    · exact Or.inl (.refl sf)
  · rename_i hdata
    exact Or.inr ⟨Or.inl hdata, rfl, rfl, rfl, rfl, rfl, why, hreports⟩
  · exact Or.inl (.refl sf)

/-- **A failure** leaves the receive half as it was, or breaks it. -/
theorem sfFail_half (sf : StreamFile) (why : String) :
    RxSame sf (sfFail sf why) ∨ RxBroken sf (sfFail sf why) := by
  have htx : RxSame (sfFailRx sf why) (sfFail sf why) := by
    unfold sfFail
    simp only
    split
    · exact ⟨rfl, (rxReports_append _ _).trans (List.append_nil _)⟩
    · exact .refl _
  rcases sfFailRx_half sf why with hsame | hbroken
  · left
    refine ⟨?_, htx.reports.trans hsame.reports⟩
    rw [htx.fields, hsame.fields]
  · exact Or.inr (hbroken.same htx)

/-- An open receive half breaks. -/
theorem sfFail_breaks {sf : StreamFile}
    (h : sf.rxState = .data ∨ sf.rxState = .wait ∧ sf.recvDir.isSome = true) (why : String) :
    RxBroken sf (sfFail sf why) := by
  rcases sfFail_half sf why with hsame | hbroken
  · exfalso
    have hstate : (sfFail sf why).rxState = sf.rxState := by rw [hsame.fields]
    have hfailed : (sfFail sf why).rxState = .failed := by
      have hrx : (sfFailRx sf why).rxState = .failed := by
        rcases h with h | ⟨h, hdir⟩
        · simp [sfFailRx, h, sfReport]
        · simp [sfFailRx, h, hdir, sfReport]
      unfold sfFail
      simp only
      split
      · exact hrx
      · exact hrx
    rw [hfailed] at hstate
    rcases h with h | ⟨h, -⟩
    · rw [h] at hstate
      cases hstate
    · rw [h] at hstate
      cases hstate
  · exact hbroken

/-- **A call of the fill function** does to the receive half what a failure does, if anything. -/
theorem sfFill_half (aead : Aead) (env : SfFillEnv) (sf : StreamFile) :
    RxSame sf (sfFill aead env sf).1 ∨ RxBroken sf (sfFill aead env sf).1 := by
  have hcases := sfFill_filled aead env sf
  generalize sfFill aead env sf = r at hcases
  cases hcases with
  | quiet _ _ => exact Or.inl (.refl sf)
  | done _ => exact Or.inl (.refl sf)
  | eof _ _ _ => exact Or.inl (.refl sf)
  | metadata frame _ _ _ => exact Or.inl ⟨rfl, rfl⟩
  | chunk chunk frame _ _ _ _ _ _ => exact Or.inl ⟨rfl, rfl⟩
  | failed why _ => exact sfFail_half sf why

theorem sfOnTxComplete_half (sf : StreamFile) : RxSame sf (sfOnTxComplete sf) := by
  rcases sfOnTxComplete_cases sf with heq | ⟨-, m, heq⟩
  · rw [heq]
    exact .refl sf
  · rw [heq]
    exact ⟨rfl, (rxReports_append _ _).trans (List.append_nil _)⟩

/-! ## What the receiver holds -/

/-- The receive half has failed, and has reported that once. -/
structure RxFailed (content : Bytes) (sf : StreamFile) : Prop where
  state : sf.rxState = .failed
  written : sf.written <+: content
  reports : ∃ why, rxReports sf = [⟨false, false, why⟩]

/-- The receiver after the frames `done`. -/
structure RxHeld (sha256Hex : Bytes → Bytes) (aead : Aead) (content name key : Bytes)
    (done : List Bytes) (sf : StreamFile) : Prop where
  keyed : sf.key = key
  closed : sf.closed = false
  half : (∃ pls, Carries aead key pls done ∧ (pls.drop 1).flatten <+: content ∧
    RxAt content name (WireName sha256Hex content name) pls sf) ∨ RxFailed content sf

section
variable {sha256Hex : Bytes → Bytes} {aead : Aead} {content name key : Bytes}
  {done : List Bytes} {sf sf' : StreamFile}

/-- The content is written in order. -/
theorem RxAt.written_front {honest : Prop} {pls : List Bytes}
    (h : RxAt content name honest pls sf) (hpls : (pls.drop 1).flatten <+: content) :
    sf.written <+: content := by
  cases h with
  | waiting _ _ hwritten _ =>
      rw [hwritten]
      exact List.nil_prefix
  | receiving _ chunks _ _ _ _ _ _ hwritten _ _ =>
      rw [hwritten]
      exact hpls
  | received _ _ _ _ hwritten _ _ _ _ _ =>
      rw [hwritten]

/-- A receive half that breaks had reported nothing. -/
theorem RxAt.broken {honest : Prop} {pls : List Bytes} (h : RxAt content name honest pls sf)
    (hpls : (pls.drop 1).flatten <+: content) (hb : RxBroken sf sf') : RxFailed content sf' := by
  have hwritten := h.written_front hpls
  have hquiet : rxReports sf = [] := by
    cases h with
    | waiting _ _ _ hreports => exact hreports
    | receiving _ _ _ _ _ _ _ _ _ hreports _ => exact hreports
    | received _ _ hstate _ _ _ _ _ _ _ =>
        rcases hb.was with hwas | ⟨hwas, -⟩
        · rw [hstate] at hwas
          cases hwas
        · rw [hstate] at hwas
          cases hwas
  obtain ⟨why, hwhy⟩ := hb.reports
  refine ⟨hb.state, ?_, why, ?_⟩
  · rw [hb.written]
    exact hwritten
  · rw [hwhy, hquiet, List.nil_append]

theorem RxAt.same {honest : Prop} {pls : List Bytes} (h : RxAt content name honest pls sf)
    (hs : RxSame sf sf') : RxAt content name honest pls sf' := by
  obtain ⟨hfields, hreports⟩ := hs
  rw [hfields]
  rw [hfields] at hreports
  cases h with
  | waiting h1 h2 h3 h4 => exact .waiting h1 h2 h3 (hreports.trans h4)
  | receiving i cs h1 h2 h3 h4 h5 h6 h7 h8 h9 =>
      exact .receiving i cs h1 h2 h3 h4 h5 h6 h7 (hreports.trans h8) h9
  | received i cs h1 h2 h3 h4 ok m h5 h6 =>
      exact .received i cs h1 h2 h3 h4 ok m (hreports.trans h5) h6

/-- A call that is not of the receiver keeps what it holds. -/
theorem RxHeld.own (h : RxHeld sha256Hex aead content name key done sf)
    (hs : RxSame sf sf' ∨ RxBroken sf sf') : RxHeld sha256Hex aead content name key done sf' := by
  rcases hs with hs | hb
  · refine ⟨?_, ?_, ?_⟩
    · rw [hs.fields]
      exact h.keyed
    · rw [hs.fields]
      exact h.closed
    · rcases h.half with ⟨pls, hcarries, hpls, hat⟩ | hfailed
      · exact Or.inl ⟨pls, hcarries, hpls, hat.same hs⟩
      · refine Or.inr ⟨?_, ?_, ?_⟩
        · rw [hs.fields]
          exact hfailed.state
        · rw [hs.fields]
          exact hfailed.written
        · rw [hs.reports]
          exact hfailed.reports
  · refine ⟨hb.key.trans h.keyed, hb.closed.trans h.closed, Or.inr ?_⟩
    rcases h.half with ⟨pls, -, hpls, hat⟩ | hfailed
    · exact hat.broken hpls hb
    · exfalso
      rcases hb.was with hwas | ⟨hwas, -⟩
      · rw [hfailed.state] at hwas
        cases hwas
      · rw [hfailed.state] at hwas
        cases hwas

theorem RxHeld.setRxbuf (h : RxHeld sha256Hex aead content name key done sf) (rxbuf : Bytes) :
    RxHeld sha256Hex aead content name key done { sf with rxbuf := rxbuf } := by
  refine ⟨h.keyed, h.closed, ?_⟩
  rcases h.half with ⟨pls, hcarries, hpls, hat⟩ | hfailed
  · exact Or.inl ⟨pls, hcarries, hpls, hat.setRxbuf rxbuf⟩
  · exact Or.inr ⟨hfailed.state, hfailed.written, hfailed.reports⟩

/-- At most one result is reported, and a success with the whole content written. -/
theorem RxHeld.sound (h : RxHeld sha256Hex aead content name key done sf) :
    sf.written <+: content ∧ (rxReports sf).length ≤ 1 ∧
      ∀ d ∈ rxReports sf, d.ok = true → sf.written = content := by
  rcases h.half with ⟨pls, -, hpls, hat⟩ | hfailed
  · refine ⟨hat.written_front hpls, ?_⟩
    cases hat with
    | waiting _ _ _ hreports => simp [hreports]
    | receiving _ _ _ _ _ _ _ _ _ hreports _ => simp [hreports]
    | received _ _ _ _ hwritten _ ok m hreports _ => simp [hreports, hwritten]
  · obtain ⟨why, hwhy⟩ := hfailed.reports
    exact ⟨hfailed.written, by simp [hwhy], by simp [hwhy]⟩

end

/-! ## Frame by frame -/

/-- The file calls if none of them failed. -/
def SfIo.good (io : SfIo) : SfIo := ⟨true, fun _ n => n, io.readable⟩

/-- What a failing file call leaves, beside what the handler does when none fails. -/
structure IoFailed (sf good failed : StreamFile) : Prop where
  state : failed.rxState = .failed
  key : failed.key = sf.key
  closed : failed.closed = sf.closed
  reports : ∃ why, rxReports failed = rxReports sf ++ [⟨false, false, why⟩]
  written : failed.written <+: good.written

theorem RxBroken.ioFailed {sf sf₁ good failed : StreamFile} (h : RxBroken sf₁ failed)
    (hkey : sf₁.key = sf.key) (hclosed : sf₁.closed = sf.closed) (hdone : sf₁.done = sf.done)
    (hwritten : sf₁.written <+: good.written) : IoFailed sf good failed := by
  obtain ⟨why, hwhy⟩ := h.reports
  refine ⟨h.state, h.key.trans hkey, h.closed.trans hclosed, ⟨why, ?_⟩, h.written ▸ hwritten⟩
  rw [hwhy, rxReports, hdone, rxReports]

section
variable {sha256Hex : Bytes → Bytes} {aead : Aead} {content name key : Bytes}

/-- The metadata frame when `open` fails. -/
theorem sfProcessMeta_io (io : SfIo) {sf : StreamFile} (hwait : sf.rxState = .wait)
    (hwritten : sf.written = []) (out : Bytes) :
    sfProcessMeta io sf out = sfProcessMeta io.good sf out ∨
      IoFailed sf (sfProcessMeta io.good sf out).1 (sfProcessMeta io sf out).1 := by
  unfold sfProcessMeta
  split
  · exact Or.inl rfl
  rename_i dir hdir
  split
  · exact Or.inl rfl
  simp only
  split
  · exact Or.inl rfl
  split
  · exact Or.inl rfl
  by_cases hopen : io.openOk = true
  · left
    have hgood : io.good.openOk = io.openOk := hopen.symm
    rw [hgood]
  · right
    have hbad : (!io.openOk) = true := by simpa using hopen
    rw [if_pos hbad]
    have hopens : sf.recvDir.isSome = true := by rw [hdir]; rfl
    have hbroken := @sfFail_breaks
      { sf with rxName := Path.cString (field (u16At out 8).toNat 10 out) }
      (Or.inr ⟨hwait, hopens⟩) "cannot open received file"
    refine hbroken.ioFailed rfl rfl rfl ?_
    show sf.written <+: _
    rw [hwritten]
    exact List.nil_prefix

/-- A data frame when `pwrite` fails. -/
theorem sfProcessChunk_io (io : SfIo) {sf : StreamFile} (hdata : sf.rxState = .data)
    (out : Bytes) :
    sfProcessChunk sha256Hex io sf out = sfProcessChunk sha256Hex io.good sf out ∨
      IoFailed sf (sfProcessChunk sha256Hex io.good sf out).1
        (sfProcessChunk sha256Hex io sf out).1 := by
  unfold sfProcessChunk
  split
  swap
  · exact Or.inl rfl
  split
  · exact Or.inl rfl
  simp only
  by_cases hall : io.pwrite sf.rxReceived.toNat out.length = out.length
  · left
    have hgood : io.good.pwrite sf.rxReceived.toNat out.length = out.length := rfl
    rw [if_neg (not_not.mpr hall), if_neg (not_not.mpr hgood), hall, hgood]
    rfl
  · right
    have hgood : io.good.pwrite sf.rxReceived.toNat out.length = out.length := rfl
    rw [if_pos hall, if_neg (not_not.mpr hgood), hgood, List.take_length]
    have hbroken := @sfFail_breaks
      { sf with written := sf.written ++ out.take (io.pwrite sf.rxReceived.toNat out.length) }
      (Or.inl hdata) "received file write error"
    refine hbroken.ioFailed rfl rfl rfl ?_
    have hkept : ∀ sf' : StreamFile, (sfComplete sha256Hex io.good sf').written = sf'.written := by
      intro sf'
      unfold sfComplete
      split <;> rfl
    rw [hkept]
    exact List.prefix_append_right_inj _ |>.mpr (List.take_prefix _ _)

/-- **A frame under failing file calls.** -/
theorem sfHandle_io (sha256Hex : Bytes → Bytes) (aead : Aead) (io : SfIo) {sf : StreamFile}
    (hlive : sfStopped sf = false) (hwait : sf.rxState = .wait → sf.written = []) (f : Bytes) :
    sfHandle sha256Hex aead io sf f = sfHandle sha256Hex aead io.good sf f ∨
      IoFailed sf (sfHandle sha256Hex aead io.good sf f).1 (sfHandle sha256Hex aead io sf f).1 := by
  unfold sfHandle sfProcessFrame
  rw [if_neg (sfStopped_false hlive), if_neg (sfStopped_false hlive)]
  split
  · exact Or.inl rfl
  by_cases hstate : sf.rxState = .wait
  · rw [if_pos hstate, if_pos hstate]
    exact sfProcessMeta_io io hstate (hwait hstate) _
  · rw [if_neg hstate, if_neg hstate]
    refine sfProcessChunk_io io ?_ _
    have hnot := sfStopped_false hlive
    cases hrx : sf.rxState with
    | wait => exact absurd hrx hstate
    | data => rfl
    | done => exact absurd (Or.inl hrx) hnot
    | failed => exact absurd (Or.inr hrx) hnot

/-- **Every frame of the sender is handled**, whatever the file calls do. -/
theorem rxHeld_handles (hname : AcceptedName name) (hlen : content.length < 2 ^ 64)
    {sender : StreamFile} (htotal : sender.txTotal = content.length)
    (hwire : sender.txWire = name) {s : StreamFile × List Bytes} {chunks : List Bytes}
    (hsent : SentInv aead content key (sfMetadata sender) s chunks) (io : SfIo) :
    Framing.Handles (sfHandle sha256Hex aead io) sfStopped
      (RxHeld sha256Hex aead content name key) s.2 := by
  intro done f rest sf hsplit hheld hlive
  obtain ⟨all, hall, hcarried⟩ := hsent.carries hname hwire
  have hchunks : chunks.flatten <+: content := hsent.read ▸ List.take_prefix _ _
  rcases hheld.half with ⟨pls, hcarries, -, hat⟩ | hfailed
  swap
  · have hstopped : sfStopped sf = true := by simp [sfStopped, hfailed.state]
    rw [hlive] at hstopped
    cases hstopped
  -- what has been handled carries the first payloads
  have hcount := hcarried.frames.length_eq
  have hlt : done.length < all.length := by
    rw [hcount, hsplit, List.length_append, List.length_cons]
    omega
  have hdone : s.2.take done.length = done := by rw [hsplit, List.take_left]
  have hmore : s.2.take (done.length + 1) = done ++ [f] := by
    rw [hsplit, List.take_length_add_append, List.take_succ_cons, List.take_zero]
  have hnext : Carries aead key (all.take (done.length + 1)) (done ++ [f]) :=
    hmore ▸ hcarried.take (done.length + 1)
  have hpls : pls = all.take done.length := by
    have hfirst := hcarried.take done.length
    rw [hdone] at hfirst
    exact hcarries.unique hfirst
  have htake : ∀ n ≤ all.length, (sfMetadata sender :: chunks).take n = all.take n := by
    intro n hn
    obtain ⟨more, hmore⟩ := hall
    rw [← hmore, List.take_append_of_le_length hn]
  have hfront : ((all.take (done.length + 1)).drop 1).flatten <+: content := by
    refine List.IsPrefix.trans ?_ hchunks
    obtain ⟨more, hmore⟩ := ((List.take_prefix (done.length + 1) all).trans hall).drop 1
    rw [List.drop_one, List.drop_one, List.tail_cons] at hmore
    rw [List.drop_one, ← hmore, List.flatten_append]
    exact List.prefix_append _ _
  have hinv : RxInv content name (WireName sha256Hex content name) key
      (sfMetadata sender :: chunks) done sf := ⟨hheld.keyed, hheld.closed, by rw [htake _ hlt.le, ← hpls]; exact hat⟩
  obtain ⟨⟨hkey, hclosed, hat'⟩, hgo⟩ := (show
      Framing.Handles (sfHandle sha256Hex aead io.good) sfStopped
        (RxInv content name (WireName sha256Hex content name) key (sfMetadata sender :: chunks))
        s.2 from
      rxInv_handles hname id hlen rfl (fun _ _ => rfl) htotal hwire hchunks hsent.sizes
        hall hcarried.frames) done f rest sf hsplit hinv hlive
  rw [List.length_append, List.length_singleton, htake _ hlt] at hat'
  have hwait : sf.rxState = .wait → sf.written = [] := by
    intro hstate
    cases hat with
    | waiting _ _ hwritten _ => exact hwritten
    | receiving _ _ hrx _ _ _ _ _ _ _ _ =>
        rw [hrx] at hstate
        cases hstate
    | received _ _ hrx _ _ _ _ _ _ _ =>
        rw [hrx] at hstate
        cases hstate
  rcases sfHandle_io sha256Hex aead io hlive hwait f with heq | hio
  · rw [heq]
    exact ⟨⟨hkey, hclosed, Or.inl ⟨_, hnext, hfront, hat'⟩⟩, hgo⟩
  · have hquiet : rxReports sf = [] := by
      cases hat with
      | waiting _ _ _ hreports => exact hreports
      | receiving _ _ _ _ _ _ _ _ _ hreports _ => exact hreports
      | received _ _ hrx _ _ _ _ _ _ _ =>
          exact absurd (Or.inl hrx) (sfStopped_false hlive)
    obtain ⟨why, hwhy⟩ := hio.reports
    rw [hquiet, List.nil_append] at hwhy
    have hfailed : RxFailed content (sfHandle sha256Hex aead io sf f).1 :=
      ⟨hio.state, hio.written.trans (hat'.written_front hfront), why, hwhy⟩
    refine ⟨⟨hio.key.trans hheld.keyed, hio.closed.trans hheld.closed, Or.inr hfailed⟩, ?_⟩
    exact Or.inr (by simp [sfStopped, hfailed.state])

/-! ## Stream bytes -/

/-- A call of `sf_on_data` keeps the place in the stream, and leaves nothing that could be
handled. -/
theorem sfOnData_held (hname : AcceptedName name) (hlen : content.length < 2 ^ 64)
    {sender : StreamFile} (htotal : sender.txTotal = content.length)
    (hwire : sender.txWire = name) {s : StreamFile × List Bytes} {chunks : List Bytes}
    (hsent : SentInv aead content key (sfMetadata sender) s chunks) (io : SfIo)
    {chunk tail : Bytes} {sf : StreamFile}
    (h : Framing.Reads sfStopped (RxHeld sha256Hex aead content name key) s.2 (chunk ++ tail)
      (sf, sf.rxbuf)) {sf' : StreamFile} (hsf : sf' = sfOnData sha256Hex aead io sf chunk) :
    Framing.Reads sfStopped (RxHeld sha256Hex aead content name key) s.2 tail (sf', sf'.rxbuf) ∧
      Framing.Drained sfCut sfStopped (sf', sf'.rxbuf) := by
  have hopen : sf.closed = false := by
    obtain ⟨_, _, _, hheld, _⟩ := h
    exact hheld.closed
  have hhandles : Framing.Handles (sfHandle sha256Hex aead io) sfStopped
      (RxHeld sha256Hex aead content name key) s.2 := rxHeld_handles hname hlen htotal hwire hsent io
  have hframes := hsent.isFrame sha256Hex hname hwire io
  have hdrained := h.feed_drained rfl hframes hhandles
  obtain ⟨done, rest, hsplit, hheld, hbuf⟩ := h.feed rfl hframes hhandles
  unfold sfOnData at hsf
  rw [hopen, if_neg (by simp)] at hsf
  rw [hsf]
  exact ⟨⟨done, rest, hsplit, hheld.setRxbuf _, hbuf⟩, hdrained⟩

theorem foldl_sfOnData_held (hname : AcceptedName name) (hlen : content.length < 2 ^ 64)
    {sender : StreamFile} (htotal : sender.txTotal = content.length)
    (hwire : sender.txWire = name) {s : StreamFile × List Bytes} {chunks : List Bytes}
    (hsent : SentInv aead content key (sfMetadata sender) s chunks) (io : SfIo)
    (arrived : List Bytes) : ∀ {tail : Bytes} {sf : StreamFile},
    Framing.Reads sfStopped (RxHeld sha256Hex aead content name key) s.2 (arrived.flatten ++ tail)
      (sf, sf.rxbuf) →
    Framing.Drained sfCut sfStopped (sf, sf.rxbuf) →
    Framing.Reads sfStopped (RxHeld sha256Hex aead content name key) s.2 tail
        (arrived.foldl (sfOnData sha256Hex aead io) sf,
          (arrived.foldl (sfOnData sha256Hex aead io) sf).rxbuf) ∧
      Framing.Drained sfCut sfStopped (arrived.foldl (sfOnData sha256Hex aead io) sf,
        (arrived.foldl (sfOnData sha256Hex aead io) sf).rxbuf) := by
  induction arrived with
  | nil => exact fun h hdrained => ⟨h, hdrained⟩
  | cons c cs ih =>
      intro tail sf h _
      rw [List.flatten_cons, List.append_assoc] at h
      obtain ⟨hnext, hdrained⟩ := sfOnData_held hname hlen htotal hwire hsent io h rfl
      exact ih hnext hdrained

end

end HwPhoneLink.Stream
