import HwPhoneLink.DFile.Slots
import HwPhoneLink.DFile.Header

/-!
# What a reported receive means

`on_result(receiver, ok)` comes with the DONE_ACK, after the DONE frame: by then there is a
file for every entry of the list, in its order, and every file is complete.
-/

namespace HwPhoneLink.DFile

open BigEndian Path Framing Transitions HwPhoneLink.Testfile

/-- The list is complete, and every entry has its file. -/
structure Confirmed (t : DCTrans) : Prop where
  full : t.nodeNumber.toNat ≤ t.hdr.length
  files : t.files.map DCFile.headerEntry = t.hdr

structure RxReported (c : DFileConn) : Prop where
  opening : ∀ t, c.rx = some t → t.phase = .idle → t.files.map DCFile.headerEntry <+: t.hdr
  receiving : ∀ t, c.rx = some t → t.phase = .rxWaitData → Confirmed t
  finishing : ∀ t, c.rx = some t → t.phase = .rxWaitDoneack ∨ t.phase = .rxDone →
    Confirmed t ∧ t.doneSent = true ∧ rxComplete t = true
  told : ∀ n m, (n, DcEvent.result false true m) ∈ c.events →
    ∃ t, c.rx = some t ∧ t.phase = .rxDone

/-! ## The list of entries -/

theorem rxAddEntries_grows (node : ℕ) (es : List DFileHeaderEntry) :
    ∀ hdr : List DFileHeaderEntry, hdr <+: (rxAddEntries node hdr es).1 := by
  induction es with
  | nil => intro hdr; exact List.prefix_refl hdr
  | cons e es ih =>
      intro hdr
      rw [rxAddEntries]
      split
      · exact ih hdr
      split
      · exact List.prefix_refl hdr
      · exact (List.prefix_append hdr [e]).trans (ih (hdr ++ [e]))

/-- A complete list takes no more entries. -/
theorem rxAddEntries_full {node : ℕ} {hdr : List DFileHeaderEntry} (h : node ≤ hdr.length)
    (es : List DFileHeaderEntry) : (rxAddEntries node hdr es).1 = hdr := by
  induction es with
  | nil => rfl
  | cons e es ih =>
      rw [rxAddEntries]
      split
      · exact ih
      · rw [if_pos (Nat.lt_succ_of_le h)]

/-- Each file that is opened is for the next entry. -/
theorem rxOpenFiles_entries (env : DcEnv) (dir : Bytes) (blockSize : ℕ)
    (hes : List DFileHeaderEntry) : ∀ (opened : List Bytes) (files : List DCFile),
      (rxOpenFiles env dir blockSize opened files hes).2.1.map DCFile.headerEntry <+:
        files.map DCFile.headerEntry ++ hes := by
  induction hes with
  | nil =>
      intro opened files
      rw [List.append_nil]
      exact List.prefix_refl _
  | cons he hes ih =>
      intro opened files
      have hspec := (rxOpenFile_spec env dir blockSize opened he).1
      rw [rxOpenFiles]
      rcases hr : rxOpenFile env dir blockSize opened he with ⟨opened', f | why | -⟩
      · rw [hr] at hspec
        have hfresh := hspec f rfl
        have hentry : f.headerEntry = he := by
          rw [DCFile.headerEntry, hfresh.fileId, hfresh.size, hfresh.name, UInt64.ofNat_toNat]
        have hnext := ih opened' (files ++ [f])
        rw [List.map_append, List.map_singleton, hentry, List.append_assoc] at hnext
        exact hnext
      · exact List.prefix_append _ _
      · exact List.prefix_append _ _

section
variable {sha256Hex : Bytes → Bytes} {env : DcEnv} {late : Prop} {fr : Option Bytes}
  {c c' : DFileConn}

/-! ## One move -/

/-- Before the transfer is done, no receive has been reported. -/
theorem RxReported.not_told (h : RxReported c) {t : DCTrans} (ht : c.rx = some t)
    (hphase : t.phase ≠ .rxDone) (n : ℕ) (m : String) :
    (n, DcEvent.result false true m) ∉ c.events := by
  intro hmem
  obtain ⟨u, hu, hdone⟩ := h.told n m hmem
  obtain rfl : t = u := Option.some.inj (ht.symm.trans hu)
  exact hphase hdone

/-- The receiver is left alone. -/
theorem RxReported.same (h : RxReported c) (hrx : c'.rx = c.rx)
    (hevents : ∀ n m, (n, DcEvent.result false true m) ∈ c'.events →
      (n, DcEvent.result false true m) ∈ c.events) : RxReported c' where
  opening t ht := h.opening t (hrx ▸ ht)
  receiving t ht := h.receiving t (hrx ▸ ht)
  finishing t ht := h.finishing t (hrx ▸ ht)
  told n m hmem := hrx ▸ h.told n m (hevents n m hmem)

theorem RxReported.tells (h : RxReported c) {n : ℕ} {e : DcEvent} (hrx : c'.rx = c.rx)
    (hevents : c'.events = c.events ++ [(n, e)]) (he : ∀ m, e ≠ .result false true m) :
    RxReported c' := by
  apply h.same hrx
  intro k m hmem
  rw [hevents] at hmem
  rcases List.mem_append.mp hmem with hmem | hmem
  · exact hmem
  · exact absurd (congrArg Prod.snd (List.mem_singleton.mp hmem)).symm (he m)

/-- The transfer goes on in its phase, with the same list and the same files. -/
theorem RxReported.next {t t' : DCTrans} (h : RxReported c) (ht : c.rx = some t)
    (ht' : c'.rx = some t') (hphase : t'.phase = t.phase) (hnode : t'.nodeNumber = t.nodeNumber)
    (hhdr : t'.hdr = t.hdr)
    (hfiles : t'.files.map DCFile.headerEntry = t.files.map DCFile.headerEntry)
    (hdone : t'.doneSent = t.doneSent) (hcomplete : rxComplete t' = rxComplete t)
    (hevents : c'.events = c.events) : RxReported c' := by
  have hconfirmed : Confirmed t → Confirmed t' := by
    rintro ⟨hfull, hall⟩
    exact ⟨by rw [hnode, hhdr]; exact hfull, by rw [hfiles, hhdr]; exact hall⟩
  constructor
  · intro u hu hidle
    obtain rfl : t' = u := Option.some.inj (ht'.symm.trans hu)
    rw [hfiles, hhdr]
    exact h.opening t ht (hphase ▸ hidle)
  · intro u hu hwait
    obtain rfl : t' = u := Option.some.inj (ht'.symm.trans hu)
    exact hconfirmed (h.receiving t ht (hphase ▸ hwait))
  · intro u hu hend
    obtain rfl : t' = u := Option.some.inj (ht'.symm.trans hu)
    rw [hphase] at hend
    obtain ⟨hall, hsent, hcompl⟩ := h.finishing t ht hend
    exact ⟨hconfirmed hall, hdone.trans hsent, hcomplete.trans hcompl⟩
  · intro n m hmem
    rw [hevents] at hmem
    obtain ⟨u, hu, hend⟩ := h.told n m hmem
    obtain rfl : t = u := Option.some.inj (ht.symm.trans hu)
    exact ⟨t', ht', hphase.trans hend⟩

/-- A transfer that is not done enters another phase. -/
theorem RxReported.enters {t t' : DCTrans} (h : RxReported c) (ht : c.rx = some t)
    (hphase : t.phase ≠ .rxDone) (ht' : c'.rx = some t') (hidle : t'.phase ≠ .idle)
    (hwait : t'.phase = .rxWaitData → Confirmed t')
    (hend : t'.phase = .rxWaitDoneack ∨ t'.phase = .rxDone →
      Confirmed t' ∧ t'.doneSent = true ∧ rxComplete t' = true)
    (hevents : ∀ n m, (n, DcEvent.result false true m) ∈ c'.events →
      (n, DcEvent.result false true m) ∈ c.events ∨ t'.phase = .rxDone) : RxReported c' := by
  constructor
  · intro u hu h
    obtain rfl : t' = u := Option.some.inj (ht'.symm.trans hu)
    exact absurd h hidle
  · intro u hu
    obtain rfl : t' = u := Option.some.inj (ht'.symm.trans hu)
    exact hwait
  · intro u hu
    obtain rfl : t' = u := Option.some.inj (ht'.symm.trans hu)
    exact hend
  · intro n m hmem
    rcases hevents n m hmem with hold | hdone
    · exact absurd hold (h.not_told ht hphase n m)
    · exact ⟨t', ht', hdone⟩

theorem transFail_reported (h : RxReported c) (isSender : Bool) (reason : String) (sendRst : Bool) :
    RxReported (transFail env isSender reason sendRst c) := by
  rcases transFail_spec env isSender reason sendRst c with hsame |
    ⟨t, w, crash, ht, hlive, -, -, heq⟩
  · rw [hsame]
    exact h
  have hevents : ∀ n m, (n, DcEvent.result false true m) ∈
      (transFail env isSender reason sendRst c).events →
      (n, DcEvent.result false true m) ∈ c.events := by
    intro n m hmem
    rw [heq] at hmem
    simp only at hmem
    split at hmem
    · exact hmem
    · rcases List.mem_append.mp hmem with hmem | hmem
      · exact hmem
      · simp at hmem
  cases isSender with
  | true => exact h.same (by rw [heq]; rfl) hevents
  | false =>
      have hrx : c.rx = some t := ht
      have hrx' : (transFail env false reason sendRst c).rx = some { t with phase := .failed } := by
        rw [heq]
        rfl
      apply h.enters hrx (DCPhase.ne_of_terminal rfl hlive).symm hrx' DCPhase.noConfusion
      · intro hwait
        cases hwait
      · rintro (hend | hend) <;> cases hend
      · exact fun n m hmem => Or.inl (hevents n m hmem)

/-- A late move has a list with all its files. -/
theorem DcMove.reported
    (hlate : late → ∃ t, c.rx = some t ∧ Confirmed t) (h : RxReported c)
    (hm : DcMove sha256Hex env late fr c c') : RxReported c' := by
  have hne : ∀ {p : DCPhase}, p = .rxWaitData → p ≠ .rxDone := by
    rintro p rfl
    exact DCPhase.noConfusion
  cases hm with
  | fail isSender reason sendRst => exact transFail_reported h isSender reason sendRst
  | closed => exact h.tells rfl rfl fun m => DcEvent.noConfusion
  | negotiate => exact h.tells rfl rfl fun m => DcEvent.noConfusion
  | fileList => exact h.tells rfl rfl fun m => DcEvent.noConfusion
  | finish => exact h.tells rfl rfl fun m => by simp
  | @header t frame x _ _ _ hfrom =>
      have hnode : t.nodeNumber = x.nodeNumber := by
        rcases hfrom with ⟨-, rfl⟩ | hfrom
        · rfl
        · exact hfrom.2.2.2.2
      rcases hfrom with ⟨hnone, rfl⟩ | ⟨ht, hfail, hdone, -, -⟩
      · constructor
        · rintro u ⟨⟩ -
          exact List.nil_prefix
        · rintro u ⟨⟩ hphase
          cases hphase
        · rintro u ⟨⟩ (hphase | hphase) <;> cases hphase
        · intro n m hmem
          obtain ⟨u, hu, -⟩ := h.told n m hmem
          rw [hnone] at hu
          cases hu
      · have hsame : Confirmed t → (rxAddEntries x.nodeNumber.toNat t.hdr x.entries).1 = t.hdr := by
          intro hall
          apply rxAddEntries_full
          rw [← hnode]
          exact hall.full
        constructor
        · rintro u ⟨⟩ hidle
          exact (h.opening t ht hidle).trans (rxAddEntries_grows ..)
        · rintro u ⟨⟩ hwait
          have hall := h.receiving t ht hwait
          rw [hsame hall]
          exact ⟨hall.full, hall.files⟩
        · rintro u ⟨⟩ hend
          have hall := h.finishing t ht hend
          rw [hsame hall.1]
          exact ⟨⟨hall.1.full, hall.1.files⟩, hall.2⟩
        · intro n m hmem
          exact absurd hmem (h.not_told ht hdone n m)
  | @opened t frame x dir _ _ ht hidle hnode hfiles hdir =>
      constructor
      · rintro u ⟨⟩ -
        have hentries := rxOpenFiles_entries env dir c.blockSize t.hdr c.opened t.files
        rw [hfiles] at hentries ⊢
        exact hentries
      · rintro u ⟨⟩ hwait
        exact absurd (hidle.symm.trans hwait) DCPhase.noConfusion
      · rintro u ⟨⟩ (hend | hend) <;> exact absurd (hidle.symm.trans hend) DCPhase.noConfusion
      · intro n m hmem
        exact absurd hmem (h.not_told ht (by rw [hidle]; exact DCPhase.noConfusion) n m)
  | @waitData t f ht hidle hnode hids hf =>
      have hall : Confirmed t := by
        refine ⟨hnode, (h.opening t ht hidle).eq_of_length ?_⟩
        have hlength := congrArg List.length hids
        rw [List.length_map, List.length_map] at hlength
        rw [List.length_map, hlength]
      have hidle' : t.phase ≠ .rxDone := by
        rw [hidle]
        exact DCPhase.noConfusion
      apply h.enters ht hidle' rfl DCPhase.noConfusion
      · exact fun _ => ⟨hall.full, hall.files⟩
      · rintro (hend | hend) <;> cases hend
      · exact fun n m hmem => Or.inl hmem
  | @write t frame d file _ _ ht hwait =>
      have hall := h.receiving t ht hwait
      apply h.enters ht (hne hwait) rfl
      · rw [hwait]
        exact DCPhase.noConfusion
      · intro _
        refine ⟨hall.full, ?_⟩
        exact (updateFile_map (g := rxWriteBlock c.blockSize d.payload) DCFile.headerEntry
          (fun _ => rfl) t.files).trans hall.files
      · intro hend
        rw [hwait] at hend
        rcases hend with hend | hend <;> cases hend
      · exact fun n m hmem => Or.inl hmem
  | flushNone ht => exact h.next ht rfl rfl rfl rfl rfl rfl rfl rfl
  | flush ht => exact h.next ht rfl rfl rfl rfl rfl rfl rfl rfl
  | @digest t ht =>
      refine h.next ht rfl rfl rfl rfl ?_ rfl ?_ rfl
      · exact rxCheckFiles_map sha256Hex DCFile.headerEntry (fun _ _ => rfl) t.files
      · exact rxComplete_congr (rxCheckFiles_map sha256Hex _ (fun _ _ => rfl) t.files)
  | @done t f ht hphase hfirst hcomplete =>
      have hall : Confirmed t := by
        rcases hphase with hwait | hl
        · exact h.receiving t ht hwait
        · obtain ⟨u, hu, hall⟩ := hlate hl
          obtain rfl : t = u := Option.some.inj (ht.symm.trans hu)
          exact hall
      have hrunning : t.phase ≠ .rxDone := by
        intro hdone
        have hsent := (h.finishing t ht (Or.inr hdone)).2.1
        rw [hfirst] at hsent
        cases hsent
      apply h.enters ht hrunning rfl DCPhase.noConfusion
      · intro hwait
        cases hwait
      · exact fun _ => ⟨⟨hall.full, hall.files⟩, rfl, hcomplete⟩
      · exact fun n m hmem => Or.inl hmem
  | @doneack t frame l _ ht hphase =>
      have hall := h.finishing t ht (Or.inl hphase)
      have hrunning : t.phase ≠ .rxDone := by
        rw [hphase]
        exact DCPhase.noConfusion
      apply h.enters ht hrunning rfl DCPhase.noConfusion
      · intro hwait
        cases hwait
      · exact fun _ => ⟨⟨hall.1.full, hall.1.files⟩, hall.2⟩
      · exact fun n m _ => Or.inr rfl
  | _ => exact h.same rfl fun n m hmem => hmem

/-! ## Runs -/

/-- Without a frame the list and its files stay. -/
theorem DcMove.confirmed (h : ∃ t, c.rx = some t ∧ Confirmed t)
    (hm : DcMove sha256Hex env late none c c') : ∃ t, c'.rx = some t ∧ Confirmed t := by
  obtain ⟨t, ht, hall⟩ := h
  have hsame : ∀ {u u' : DCTrans}, c.rx = some u → c'.rx = some u' →
      u'.nodeNumber = u.nodeNumber → u'.hdr = u.hdr →
      u'.files.map DCFile.headerEntry = u.files.map DCFile.headerEntry →
      ∃ t, c'.rx = some t ∧ Confirmed t := by
    intro u u' hu hu' hnode hhdr hfiles
    obtain rfl : t = u := Option.some.inj (ht.symm.trans hu)
    exact ⟨u', hu', by rw [hnode, hhdr]; exact hall.full, by rw [hfiles, hhdr]; exact hall.files⟩
  cases hm with
  | fail isSender reason sendRst =>
      rcases transFail_spec env isSender reason sendRst c with heq | ⟨u, w, crash, hu, -, -, -, heq⟩
      · rw [heq]
        exact ⟨t, ht, hall⟩
      · cases isSender with
        | true => exact ⟨t, by rw [heq]; exact ht, hall⟩
        | false =>
            have hrx : c.rx = some u := hu
            have hrx' : (transFail env false reason sendRst c).rx =
                some { u with phase := .failed } := by
              rw [heq]
              rfl
            exact hsame hrx hrx' rfl rfl rfl
  | waitData hu => exact hsame hu rfl rfl rfl rfl
  | flushNone hu => exact hsame hu rfl rfl rfl rfl
  | flush hu => exact hsame hu rfl rfl rfl rfl
  | @digest u hu =>
      refine hsame hu rfl rfl rfl ?_
      exact rxCheckFiles_map sha256Hex DCFile.headerEntry (fun _ _ => rfl) u.files
  | done hu => exact hsame hu rfl rfl rfl rfl
  | header hf => cases hf
  | opened hf => cases hf
  | write hf => cases hf
  | doneack hf => cases hf
  | _ => exact ⟨t, ht, hall⟩

/-- A transfer that waits for data after the timeouts of a tick waited before. -/
theorem dcTimeouts_waiting {t : DCTrans} (ht : (dcTimeouts env c).rx = some t)
    (hwait : t.phase = .rxWaitData) : c.rx = some t := by
  have hone : ∀ (s : Bool) {c : DFileConn}, (dcTimeout env s c).rx = some t → c.rx = some t := by
    intro s c ht
    unfold dcTimeout at ht
    split at ht
    · exact ht
    generalize (if s then DCPhase.txDone else DCPhase.rxDone) = ended at ht
    split at ht
    · rcases transFail_spec env s "transfer timeout" true c with heq |
        ⟨u, w, crash, hu, -, -, -, heq⟩
      · rwa [heq] at ht
      · rw [heq] at ht
        cases s with
        | true => exact ht
        | false =>
            cases ht
            cases hwait
    · exact ht
  unfold dcTimeouts DFileConn.andThen at ht
  split at ht
  · exact hone true ht
  · exact hone true (hone false ht)

theorem DFileConn.step_reported {e : DcEv} (h : RxReported c ∧ c.Sound)
    (hs : c.step sha256Hex e = some c') : RxReported c' ∧ c'.Sound := by
  by_cases hread : ∃ env chunk, e = .read env chunk
  · obtain ⟨env, chunk, rfl⟩ := hread
    refine DFileConn.step_keeps RxReported False (fun _ => True) ?_ h.1 h.2 trivial ?_ hs
    · intro env fr c c' _ hc hm
      exact hm.reported (fun hl => hl.elim) hc
    · intro env heq
      cases heq
  · have hquiet : e.dispatches c = [] := by
      cases e with
      | read env chunk => exact absurd ⟨env, chunk, rfl⟩ hread
      | _ => rfl
    have hboth : (RxReported c' ∧ ((∃ t, c.rx = some t ∧ t.phase = .rxWaitData) →
        ∃ t, c'.rx = some t ∧ Confirmed t)) ∧ c'.Sound := by
      refine DFileConn.step_keeps_where
        (fun c' => RxReported c' ∧ ((∃ t, c.rx = some t ∧ t.phase = .rxWaitData) →
          ∃ t, c'.rx = some t ∧ Confirmed t))
        (∃ t, c.rx = some t ∧ t.phase = .rxWaitData) (fun _ => True) (fun _ _ _ => False) ?_ ?_
        ⟨h.1, ?_⟩ h.2 trivial ?_ ?_ hs
      · intro env c₁ c₂ _ hc hm
        exact ⟨hm.reported hc.2 hc.1, fun hl => hm.confirmed (hc.2 hl)⟩
      · intro env c₁ frame _ _ _ _ hno
        exact hno.elim
      · rintro ⟨t, ht, hwait⟩
        exact ⟨t, ht, h.1.receiving t ht hwait⟩
      · rw [hquiet]
        exact fun d hd => absurd hd List.not_mem_nil
      · rintro env rfl ⟨t, f, hrx, hwait, -⟩
        exact ⟨t, dcTimeouts_waiting hrx hwait, hwait⟩
    exact ⟨hboth.1.1, hboth.2⟩

theorem dcAlloc_reported (now : UInt64) (recvDir : Option Bytes) :
    RxReported (dcAlloc now recvDir) where
  opening _ ht := by cases ht
  receiving _ ht := by cases ht
  finishing _ ht := by cases ht
  told _ _ hmem := by cases hmem

end

end HwPhoneLink.DFile
