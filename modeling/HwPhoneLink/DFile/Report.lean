import HwPhoneLink.DFile.Source

/-!
# What a report rests on

A receiver hands over its DONE frame when it has a file for every entry of the list and every
file is complete, and a sender reports its transfer only after a DONE frame for it. Neither
takes this back, whatever happens to the transfer afterwards.
-/

namespace HwPhoneLink.DFile

open BigEndian Path Framing Transitions HwPhoneLink.Testfile

/-- Every entry has its file, and every file is complete. -/
structure HasAll (u : DCTrans) : Prop where
  confirmed : Confirmed u
  complete : rxComplete u = true

/-- The DONE frames among the writes are for a transfer that has everything. -/
def DoneSound (c : DFileConn) : Prop :=
  ∀ w ∈ c.out, ∀ l, dfileDecodeIdlist w .fileTransferDone = some l →
    ∃ u, c.rx = some u ∧ l.transId = u.transId ∧ HasAll u

/-- A transfer that has everything goes on with it. -/
def KeepsAll (c c' : DFileConn) : Prop :=
  ∀ u, c.rx = some u → HasAll u → ∃ u', c'.rx = some u' ∧ u'.transId = u.transId ∧ HasAll u'

/-- The sender has heard DONE before it reports a delivery. -/
structure TxTold (Heard : Bytes → Prop) (c : DFileConn) : Prop where
  done : ∀ t, c.tx = some t → t.doneReceived = true → ∃ w l, Heard w ∧
    dfileDecodeIdlist w .fileTransferDone = some l ∧ l.transId = t.transId
  told : ∀ n m, (n, DcEvent.result true true m) ∈ c.events →
    ∃ t, c.tx = some t ∧ t.phase = .txDone ∧ t.doneReceived = true

/-! ## The receiver -/

section
variable {sha256Hex : Bytes → Bytes} {env : DcEnv} {late : Prop} {fr : Option Bytes}
  {c c' : DFileConn}

theorem KeepsAll.of_rx (h : c'.rx = c.rx) : KeepsAll c c' :=
  fun u hu hall => ⟨u, h.trans hu, rfl, hall⟩

/-- The transfer goes on with the same list and files that are as complete. -/
theorem KeepsAll.of_files {t t' : DCTrans} (ht : c.rx = some t) (ht' : c'.rx = some t')
    (hid : t'.transId = t.transId) (hnode : t'.nodeNumber = t.nodeNumber)
    (hhdr : Confirmed t → t'.hdr = t.hdr)
    (hfiles : t'.files.map DCFile.headerEntry = t.files.map DCFile.headerEntry)
    (hcomplete : rxComplete t = true → rxComplete t' = true) : KeepsAll c c' := by
  intro u hu hall
  obtain rfl : t = u := Option.some.inj (ht.symm.trans hu)
  have hlist := hhdr hall.confirmed
  exact ⟨t', ht', hid, ⟨⟨by rw [hnode, hlist]; exact hall.confirmed.full,
    by rw [hfiles, hlist]; exact hall.confirmed.files⟩, hcomplete hall.complete⟩⟩

/-- The transfer enters another phase. -/
theorem KeepsAll.enters {t t' : DCTrans} (ht : c.rx = some t) (ht' : c'.rx = some t')
    (hid : t'.transId = t.transId) (hnode : t'.nodeNumber = t.nodeNumber) (hhdr : t'.hdr = t.hdr)
    (hfiles : t'.files = t.files) : KeepsAll c c' :=
  .of_files ht ht' hid hnode (fun _ => hhdr) (by rw [hfiles])
    fun hall => (rxComplete_congr (by rw [hfiles])).trans hall

theorem KeepsAll.fail (isSender : Bool) (reason : String) (sendRst : Bool) :
    KeepsAll c (transFail env isSender reason sendRst c) := by
  rcases transFail_spec env isSender reason sendRst c with hsame |
    ⟨t, w, crash, ht, -, -, -, heq⟩
  · rw [hsame]
    exact .of_rx rfl
  · rw [heq]
    cases isSender with
    | true => exact .of_rx rfl
    | false => exact .enters (t := t) ht rfl rfl rfl rfl rfl

/-- **A transfer that has everything keeps it.** -/
theorem DcMove.keepsAll (hm : DcMove sha256Hex env late fr c c') : KeepsAll c c' := by
  cases hm with
  | fail isSender reason sendRst => exact .fail isSender reason sendRst
  | @header t frame x _ _ _ hfrom =>
      rcases hfrom with ⟨hnone, -⟩ | ⟨ht, -, -, -, hnode⟩
      · intro u hu
        rw [hnone] at hu
        cases hu
      · refine .of_files ht rfl rfl rfl (fun hall => ?_) rfl fun h => h
        apply rxAddEntries_full
        rw [← hnode]
        exact hall.full
  | @opened t frame x dir _ _ ht _ _ hnone =>
      intro u hu hall
      obtain rfl : t = u := Option.some.inj (ht.symm.trans hu)
      exact absurd hnone (rxComplete_iff.mp hall.complete).1
  | waitData ht => exact .enters ht rfl rfl rfl rfl rfl
  | @write t frame d file _ _ ht =>
      refine .of_files ht rfl rfl rfl (fun _ => rfl)
        (updateFile_map (g := rxWriteBlock c.blockSize d.payload) DCFile.headerEntry
          (fun _ => rfl) t.files) fun hall => ?_
      obtain ⟨hne, hfiles⟩ := rxComplete_iff.mp hall
      refine rxComplete_iff.mpr ⟨?_, fun f hf => ?_⟩
      · rw [Ne, ← List.length_eq_zero_iff, updateFile_length, List.length_eq_zero_iff]
        exact hne
      · rcases updateFile_mem hf with hf | ⟨f₀, hf₀, -, rfl⟩
        · exact hfiles f hf
        · show (f₀.writeComplete || _) = true
          rw [hfiles f₀ hf₀, Bool.true_or]
  | flushNone ht => exact .enters ht rfl rfl rfl rfl rfl
  | flush ht => exact .enters ht rfl rfl rfl rfl rfl
  | @digest t ht =>
      refine .of_files ht rfl rfl rfl (fun _ => rfl)
        (rxCheckFiles_map sha256Hex DCFile.headerEntry (fun _ _ => rfl) t.files) fun hall => ?_
      rw [← hall]
      exact rxComplete_congr (rxCheckFiles_map sha256Hex _ (fun _ _ => rfl) t.files)
  | done ht => exact .enters ht rfl rfl rfl rfl rfl
  | doneack _ ht => exact .enters ht rfl rfl rfl rfl rfl
  | _ => exact .of_rx rfl

theorem DoneSound.next {ws : List Bytes} (h : DoneSound c) (hkeep : KeepsAll c c')
    (hout : c'.out = c.out ++ ws)
    (hws : ∀ w ∈ ws, ∀ l, dfileDecodeIdlist w .fileTransferDone = some l →
      ∃ u, c.rx = some u ∧ l.transId = u.transId ∧ HasAll u) : DoneSound c' := by
  intro w hw l hl
  have hold : ∃ u, c.rx = some u ∧ l.transId = u.transId ∧ HasAll u := by
    rw [hout, List.mem_append] at hw
    exact hw.elim (fun hw => h w hw l hl) fun hw => hws w hw l hl
  obtain ⟨u, hu, hid, hall⟩ := hold
  obtain ⟨u', hu', hid', hall'⟩ := hkeep u hu hall
  exact ⟨u', hu', hid.trans hid'.symm, hall'⟩

theorem DoneSound.silent (h : DoneSound c) (hkeep : KeepsAll c c') (hout : c'.out = c.out) :
    DoneSound c' :=
  h.next hkeep (hout.trans (List.append_nil _).symm) fun _ hw => absurd hw List.not_mem_nil

/-- What of a DONE frame is written names the transfer. -/
theorem done_transId {transId : UInt16} {ids : List UInt16} {f w : Bytes} {l : DFileIdlist}
    (hids : ids ≠ []) (hf : dfileEncodeIdlist dcIdlistCap .fileTransferDone 0 transId ids = some f)
    (hw : w <+: f) (hl : dfileDecodeIdlist w .fileTransferDone = some l) :
    w = f ∧ l.transId = transId := by
  obtain ⟨hframe, hcarried, -⟩ := dfileEncodeIdlist_frame hids hf
  obtain ⟨hd, q, hq, -⟩ := framePayload_of_bind hl
  have hwhole : w = f := hframe ▸ whole_of_framePayload hcarried (hframe ▸ hw) hq
  rw [hwhole, dfileDecodeIdlist_encode hids hf] at hl
  cases hl
  exact ⟨hwhole, rfl⟩

/-- What a write of a DONE frame says. -/
theorem DcHands.doneSound {f w : Bytes} {l : DFileIdlist}
    (hlate : late → ∃ t, c.rx = some t ∧ Confirmed t) (hreported : RxReported c)
    (hs : DcHands env late c f) (hw : w ∈ (dcWrite env c f).1)
    (hl : dfileDecodeIdlist w .fileTransferDone = some l) :
    ∃ u, c.rx = some u ∧ l.transId = u.transId ∧ HasAll u := by
  have hpre := dcWrite_front hw
  have hno : ∀ {type}, IsFrameOf type f → type ≠ .fileTransferDone → False := by
    intro type hframe hne
    rw [dfileDecodeIdlist, PieceOf.no_payload ⟨f, hframe, hpre⟩ hne] at hl
    cases hl
  cases hs with
  | setting hf =>
      obtain ⟨hframe, hcarried⟩ := dfileEncodeSetting_frame hf
      exact (hno ⟨_, _, _, hframe, hcarried⟩ (by decide)).elim
  | list _ hf =>
      obtain ⟨hframe, hcarried, -⟩ := dfileEncodeFileHeader_frame (by decide) hf
      exact (hno ⟨_, _, _, hframe, hcarried⟩ (by decide)).elim
  | block _ _ _ _ hf =>
      obtain ⟨hframe, hcarried⟩ := dfileEncodeData_frame hf
      exact (hno ⟨_, _, _, hframe, hcarried⟩ (by decide)).elim
  | other hframe htype => exact (hno hframe htype.2.2.2).elim
  | @done t ht hphase hcomplete hf =>
      have hids : (t.files.map fun f => f.fileId) ≠ [] := by
        rw [Ne, List.map_eq_nil_iff]
        exact (rxComplete_iff.mp hcomplete).1
      obtain ⟨hframe, hcarried, -⟩ := dfileEncodeIdlist_frame hids hf
      have hne : f ≠ [] := IsFrameOf.ne_nil ⟨_, _, _, hframe, hcarried⟩
      obtain ⟨hwhole, hid⟩ := done_transId hids hf hpre hl
      refine ⟨t, ht, hid, ?_, hcomplete⟩
      rcases hphase with hwait | hl | htakes
      · exact hreported.receiving t ht hwait
      · obtain ⟨u, hu, hall⟩ := hlate hl
        obtain rfl : t = u := Option.some.inj (ht.symm.trans hu)
        exact hall
      · -- nothing has been written
        unfold dcWrite at hw
        split at hw
        · cases hw
        · rw [List.mem_singleton, hwhole, (dcSendLoop_takes _ hne htakes).1] at hw
          exact absurd hw hne

theorem DcMove.doneSound (hlate : late → ∃ t, c.rx = some t ∧ Confirmed t) (hbase : DcBase c)
    (hreported : RxReported c) (h : DoneSound c) (hm : DcMove sha256Hex env late fr c c') :
    DoneSound c' := by
  intro w hw l hl
  have hold : ∃ u, c.rx = some u ∧ l.transId = u.transId ∧ HasAll u := by
    rcases hm.hands hbase with hout | ⟨f, hhands, hout⟩
    · exact h w (hout ▸ hw) l hl
    · rw [hout, List.mem_append] at hw
      exact hw.elim (fun hw => h w hw l hl) fun hw => hhands.doneSound hlate hreported hw hl
  obtain ⟨u, hu, hid, hall⟩ := hold
  obtain ⟨u', hu', hid', hall'⟩ := hm.keepsAll u hu hall
  exact ⟨u', hu', hid.trans hid'.symm, hall'⟩

end

/-! ## The sender -/

section
variable {Heard : Bytes → Prop} {sha256Hex : Bytes → Bytes} {env : DcEnv} {late : Prop}
  {fr : Option Bytes} {c c' : DFileConn} {t : DCTrans}

/-- What of a sending transfer the report rests on. -/
structure SameDone (t t' : DCTrans) : Prop where
  transId : t'.transId = t.transId
  doneReceived : t'.doneReceived = t.doneReceived
  ended : t.phase = .txDone → t'.phase = .txDone

theorem sameDone_rel (o : Option DCTrans) : Option.Rel SameDone o o := by
  cases o with
  | none => exact .none
  | some t => exact .some ⟨rfl, rfl, id⟩

/-- The transfer goes on, with no delivery reported. -/
theorem TxTold.next (h : TxTold Heard c) (hrel : Option.Rel SameDone c.tx c'.tx)
    (hevents : ∀ n m, (n, DcEvent.result true true m) ∈ c'.events →
      (n, DcEvent.result true true m) ∈ c.events) : TxTold Heard c' where
  done t' ht' hdone := by
    obtain ⟨t, ht, hsame⟩ := rel_some_right hrel ht'
    rw [hsame.transId]
    exact h.done t ht (hsame.doneReceived ▸ hdone)
  told n m hmem := by
    obtain ⟨t, ht, hphase, hdone⟩ := h.told n m (hevents n m hmem)
    obtain ⟨t', ht', hsame⟩ := rel_some_left hrel ht
    exact ⟨t', ht', hsame.ended hphase, hsame.doneReceived.trans hdone⟩

theorem TxTold.kept (h : TxTold Heard c) (hrel : Option.Rel SameDone c.tx c'.tx)
    (hevents : c'.events = c.events) : TxTold Heard c' :=
  h.next hrel fun _ _ hmem => hevents ▸ hmem

/-- Something else is reported. -/
theorem TxTold.reports (h : TxTold Heard c) {e : ℕ × DcEvent} (hrel : Option.Rel SameDone c.tx c'.tx)
    (hevents : c'.events = c.events ++ [e]) (he : ∀ m, e.2 ≠ .result true true m) :
    TxTold Heard c' := by
  refine h.next hrel fun n m hmem => ?_
  rw [hevents, List.mem_append, List.mem_singleton] at hmem
  rcases hmem with hmem | rfl
  · exact hmem
  · exact absurd rfl (he m)

/-- Before the transfer is done, nothing has been reported. -/
theorem TxTold.not_told (h : TxTold Heard c) (hphase : ∀ t, c.tx = some t → t.phase ≠ .txDone)
    (n : ℕ) (m : String) : (n, DcEvent.result true true m) ∉ c.events := by
  intro hmem
  obtain ⟨t, ht, hdone, -⟩ := h.told n m hmem
  exact hphase t ht hdone

theorem TxTold.not_told_of (h : TxTold Heard c) (ht : c.tx = some t) (hphase : t.phase ≠ .txDone)
    (n : ℕ) (m : String) : (n, DcEvent.result true true m) ∉ c.events := by
  refine h.not_told (fun u hu => ?_) n m
  obtain rfl : t = u := Option.some.inj (ht.symm.trans hu)
  exact hphase

theorem DcMove.txTold (hfr : ∀ frame, fr = some frame → Heard frame) (h : TxTold Heard c)
    (hm : DcMove sha256Hex env late fr c c') : TxTold Heard c' := by
  have hgoes : ∀ {t t' : DCTrans}, c.tx = some t → c'.tx = some t' → SameDone t t' →
      Option.Rel SameDone c.tx c'.tx := by
    intro t t' ht ht' hsame
    rw [ht, ht']
    exact .some hsame
  cases hm with
  | fail isSender reason sendRst =>
      rcases transFail_spec env isSender reason sendRst c with hsame |
        ⟨t, w, crash, ht, hlive, -, -, heq⟩
      · rw [hsame]
        exact h
      · have hrel : Option.Rel SameDone c.tx
            (c.setTrans isSender { t with phase := .failed }).tx := by
          cases isSender with
          | false => exact sameDone_rel _
          | true =>
              have htx : c.tx = some t := ht
              rw [htx]
              refine .some ⟨rfl, rfl, fun hdone => ?_⟩
              rw [hdone] at hlive
              cases hlive
        rw [heq]
        cases crash with
        | none => exact h.reports hrel rfl fun m => by simp
        | some k => exact h.kept hrel rfl
  | closed => exact h.reports (sameDone_rel _) rfl fun m => by simp
  | negotiate => exact h.reports (sameDone_rel _) rfl fun m => by simp
  | fileList => exact h.reports (sameDone_rel _) rfl fun m => by simp
  | startTx _ hfree =>
      refine ⟨by rintro u ⟨⟩ ⟨⟩, fun n m hmem => absurd hmem (h.not_told (fun t ht => ?_) n m)⟩
      rw [hfree] at ht
      cases ht
  | dropTx ht hphase =>
      refine ⟨(by rintro u ⟨⟩), fun n m hmem => absurd hmem (h.not_told_of ht ?_ n m)⟩
      rw [hphase]
      exact DCPhase.noConfusion
  | armed ht hphase =>
      refine h.kept (hgoes ht rfl ⟨rfl, rfl, fun hdone => ?_⟩) rfl
      rw [hphase] at hdone
      cases hdone
  | retry _ _ ht => exact h.kept (hgoes ht rfl ⟨rfl, rfl, id⟩) rfl
  | @ctrl t frame type l _ ht hphase =>
      have hof := txCtrlUpdate_of env type l.ids t
      refine h.kept (hgoes ht rfl ⟨hof.transId, hof.doneReceived, fun hdone => ?_⟩) rfl
      rw [hphase] at hdone
      cases hdone
  | newBlock ht => exact h.kept (hgoes ht rfl ⟨rfl, rfl, id⟩) rfl
  | retran ht => exact h.kept (hgoes ht rfl ⟨rfl, rfl, id⟩) rfl
  | allSent ht hphase =>
      refine h.kept (hgoes ht rfl ⟨rfl, rfl, fun hdone => ?_⟩) rfl
      rw [hphase] at hdone
      cases hdone
  | ack _ ht => exact h.kept (hgoes ht rfl ⟨rfl, rfl, id⟩) rfl
  | @doneReceived t frame l hf ht _ hrunning hl hid =>
      constructor
      · rintro u ⟨⟩ -
        exact ⟨frame, l, hfr frame hf, hl, hid⟩
      · exact fun n m hmem => absurd hmem (h.not_told_of ht hrunning n m)
  | @finish t f ht _ hrunning _ hdone =>
      constructor
      · rintro u ⟨⟩ -
        exact h.done t ht hdone
      · exact fun n m _ => ⟨_, rfl, rfl, hdone⟩
  | doneack => exact h.reports (sameDone_rel _) rfl fun m => by simp
  | _ => exact h.kept (sameDone_rel _) rfl

end

/-! ## Runs -/

section
variable {Heard : Bytes → Prop} {sha256Hex : Bytes → Bytes} {c c' : DFileConn}

theorem DcMoves.txTold {env : DcEnv} {late : Prop} {fr : Option Bytes}
    (hfr : ∀ frame, fr = some frame → Heard frame) (h : TxTold Heard c)
    (hm : DcMoves sha256Hex env late fr c c') : TxTold Heard c' := by
  induction hm with
  | refl => exact h
  | tail _ hlast ih => exact hlast.txTold hfr ih

theorem DFileConn.step_txTold {e : DcEv} (h : TxTold Heard c ∧ c.Sound) (hok : DcHears Heard c e)
    (hs : c.step sha256Hex e = some c') : TxTold Heard c' ∧ c'.Sound := by
  refine DFileConn.step_keeps_where (TxTold Heard) True (fun _ => True)
    (fun _ _ frame => Heard frame) ?_ ?_ h.1 h.2 trivial hok (fun _ _ _ => trivial) hs
  · intro env c c' _ hc hm
    exact hm.txTold (fun _ hf => by cases hf) hc
  · intro env c frame _ hc hidle hopen hheard
    have hmoves : DcMoves sha256Hex env True (some frame) c (handleFrame env frame c) :=
      handleFrame_moves hidle (DFileConn.stopped_eq_false hopen).2
    refine hmoves.txTold ?_ hc
    rintro f ⟨⟩
    exact hheard

theorem dcAlloc_txTold (now : UInt64) (recvDir : Option Bytes) :
    TxTold Heard (dcAlloc now recvDir) where
  done := by rintro t ⟨⟩
  told _ _ hmem := by cases hmem

/-- What the receiver has told the peer, and itself. -/
structure RxSound (c : DFileConn) : Prop where
  base : DcBase c
  reported : RxReported c
  done : DoneSound c

theorem DFileConn.step_rxSound {e : DcEv} (h : RxSound c ∧ c.Sound)
    (hs : c.step sha256Hex e = some c') : RxSound c' ∧ c'.Sound := by
  -- a late move belongs to a tick, which started with a transfer that waited for data
  have hlate : (∃ t, c.rx = some t ∧ t.phase = .rxWaitData) → ∃ t, c.rx = some t ∧ Confirmed t :=
    fun ⟨t, ht, hwait⟩ => ⟨t, ht, h.1.reported.receiving t ht hwait⟩
  by_cases hread : ∃ env chunk, e = .read env chunk
  · obtain ⟨env, chunk, rfl⟩ := hread
    refine DFileConn.step_keeps RxSound False (fun _ => True) ?_ h.1 h.2 trivial ?_ hs
    · intro env fr c c' _ hc hm
      exact ⟨hm.base hc.base, hm.reported (fun hl => hl.elim) hc.reported,
        hm.doneSound (fun hl => hl.elim) hc.base hc.reported hc.done⟩
    · intro env heq
      cases heq
  · have hquiet : e.dispatches c = [] := by
      cases e with
      | read env chunk => exact absurd ⟨env, chunk, rfl⟩ hread
      | _ => rfl
    have hboth : (RxSound c' ∧ ((∃ t, c.rx = some t ∧ t.phase = .rxWaitData) →
        ∃ t, c'.rx = some t ∧ Confirmed t)) ∧ c'.Sound := by
      refine DFileConn.step_keeps_where
        (fun c' => RxSound c' ∧ ((∃ t, c.rx = some t ∧ t.phase = .rxWaitData) →
          ∃ t, c'.rx = some t ∧ Confirmed t))
        (∃ t, c.rx = some t ∧ t.phase = .rxWaitData) (fun _ => True) (fun _ _ _ => False) ?_ ?_
        ⟨h.1, hlate⟩ h.2 trivial ?_ ?_ hs
      · intro env c₁ c₂ _ hc hm
        exact ⟨⟨hm.base hc.1.base, hm.reported hc.2 hc.1.reported,
          hm.doneSound hc.2 hc.1.base hc.1.reported hc.1.done⟩, fun hl => hm.confirmed (hc.2 hl)⟩
      · intro env c₁ frame _ _ _ _ hno
        exact hno.elim
      · rw [hquiet]
        exact fun d hd => absurd hd List.not_mem_nil
      · rintro env rfl ⟨t, f, hrx, hwait, -⟩
        exact ⟨t, dcTimeouts_waiting hrx hwait, hwait⟩
    exact ⟨hboth.1.1, hboth.2⟩

theorem dcAlloc_rxSound (now : UInt64) (recvDir : Option Bytes) :
    RxSound (dcAlloc now recvDir) where
  base := dcAlloc_base now recvDir
  reported := dcAlloc_reported now recvDir
  done _ hw := by cases hw

end

end HwPhoneLink.DFile
