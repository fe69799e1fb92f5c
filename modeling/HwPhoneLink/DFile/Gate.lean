import HwPhoneLink.DFile.Delivery

/-!
# The pull gate

The receiver asks for the data: a sending transfer waits for confirms of all its files and
for a request, which `handle_tx_ctrl` takes only while it waits. Whatever order the frames
come in, no data goes out before.
-/

namespace HwPhoneLink.DFile

open BigEndian Path Framing Transitions HwPhoneLink.Testfile

/-- The header of the transfer is among the writes. -/
def HeaderSent (t : DCTrans) (out : List Bytes) : Prop :=
  ∃ frames, txHeaderFrames t = some frames ∧ frames <:+: out

/-- A frame of the transfer that came in after its header was sent and before anything
behind `out` was. -/
structure PullFrame (out : List Bytes) (t : DCTrans) (type : DFileFrameType)
    (named : List UInt16 → Prop) (d : DFileConn × DcEnv × Bytes) : Prop where
  before : d.1.out <+: out
  header : HeaderSent t d.1.out
  frame : ∃ l, dfileDecodeIdlist d.2.2 type = some l ∧ l.transId = t.transId ∧ named l.ids

/-- Confirms of all files and a request have come in. -/
structure GateOpened (H : Dispatched) (out : List Bytes) (t : DCTrans) : Prop where
  confirmed : ∀ f ∈ t.files, ∃ d ∈ H, PullFrame out t .fileHeaderConfirm (f.fileId ∈ ·) d
  requested : ∃ d ∈ H, PullFrame out t .fileTransferReq (fun _ => True) d

/-- A piece of a data frame of the transfer. -/
def DataOf (t : DCTrans) (w : Bytes) : Prop :=
  ∃ file ∈ t.files, ∃ flag seq block f,
    dfileEncodeData (dfileFrameMaxSize + 16) t.transId flag file.fileId seq block = some f ∧
      w <+: f

/-! ## The list that was announced -/

/-- The transfers announce the same files under the same number. -/
structure SameList (t t' : DCTrans) : Prop where
  transId : t'.transId = t.transId
  entries : t'.files.map DCFile.headerEntry = t.files.map DCFile.headerEntry

/-- What of a file the gate looks at. -/
def DCFile.gate (f : DCFile) : DFileHeaderEntry × Bool := (f.headerEntry, f.confirmed)

theorem mem_of_map_eq {α β : Type} {π : α → β} {as bs : List α} (h : as.map π = bs.map π) {a : α}
    (ha : a ∈ as) : ∃ b ∈ bs, π b = π a := by
  have hmem : π a ∈ bs.map π := h ▸ List.mem_map_of_mem ha
  exact List.mem_map.mp hmem

theorem entries_of_gate {fs gs : List DCFile} (h : fs.map DCFile.gate = gs.map DCFile.gate) :
    fs.map DCFile.headerEntry = gs.map DCFile.headerEntry := by
  have hfst := congrArg (List.map Prod.fst) h
  rw [List.map_map, List.map_map] at hfst
  exact hfst

section
variable {t t' : DCTrans}

theorem SameList.refl (t : DCTrans) : SameList t t := ⟨rfl, rfl⟩

theorem SameList.file (h : SameList t t') {f : DCFile} (hf : f ∈ t.files) :
    ∃ f' ∈ t'.files, f'.fileId = f.fileId := by
  obtain ⟨f', hf', hentry⟩ := mem_of_map_eq h.entries.symm hf
  exact ⟨f', hf', congrArg DFileHeaderEntry.fileId hentry⟩

theorem SameList.file' (h : SameList t t') {f : DCFile} (hf : f ∈ t'.files) :
    ∃ f₀ ∈ t.files, f₀.fileId = f.fileId := by
  obtain ⟨f₀, hf₀, hentry⟩ := mem_of_map_eq h.entries hf
  exact ⟨f₀, hf₀, congrArg DFileHeaderEntry.fileId hentry⟩

theorem SameList.frames (h : SameList t t') : txHeaderFrames t' = txHeaderFrames t := by
  have hlen := congrArg List.length h.entries
  rw [List.length_map, List.length_map] at hlen
  rw [txHeaderFrames, txHeaderFrames, h.transId, h.entries, hlen]

theorem HeaderSent.congr {out : List Bytes} (h : HeaderSent t out) (hsame : SameList t t') :
    HeaderSent t' out := by
  obtain ⟨frames, hframes, hin⟩ := h
  exact ⟨frames, hsame.frames.trans hframes, hin⟩

theorem HeaderSent.grow {out out' : List Bytes} (h : HeaderSent t out) (hout : out <+: out') :
    HeaderSent t out' := by
  obtain ⟨frames, hframes, hin⟩ := h
  exact ⟨frames, hframes, hin.trans hout.isInfix⟩

theorem PullFrame.congr {out out' : List Bytes} {type : DFileFrameType}
    {named : List UInt16 → Prop} {d : DFileConn × DcEnv × Bytes}
    (h : PullFrame out t type named d) (hsame : SameList t t') (hout : out <+: out') :
    PullFrame out' t' type named d where
  before := h.before.trans hout
  header := h.header.congr hsame
  frame := by
    obtain ⟨l, hl, hid, hnamed⟩ := h.frame
    exact ⟨l, hl, hid.trans hsame.transId.symm, hnamed⟩

theorem GateOpened.congr {H H' : Dispatched} {out : List Bytes} (h : GateOpened H out t)
    (hH : H ⊆ H') (hsame : SameList t t') : GateOpened H' out t' where
  confirmed f hf := by
    obtain ⟨f₀, hf₀, hid⟩ := hsame.file' hf
    obtain ⟨d, hd, hpull⟩ := h.confirmed f₀ hf₀
    rw [hid] at hpull
    exact ⟨d, hH hd, hpull.congr hsame (List.prefix_refl _)⟩
  requested := by
    obtain ⟨d, hd, hpull⟩ := h.requested
    exact ⟨d, hH hd, hpull.congr hsame (List.prefix_refl _)⟩

theorem DataOf.congr {w : Bytes} (h : DataOf t w) (hsame : SameList t t') : DataOf t' w := by
  obtain ⟨file, hfile, flag, seq, block, f, hf, hw⟩ := h
  obtain ⟨file', hfile', hid⟩ := hsame.file hfile
  rw [← hsame.transId, ← hid] at hf
  exact ⟨file', hfile', flag, seq, block, f, hf, hw⟩

end

/-! ## The invariant -/

/-- What holds of a transfer while its process lives. -/
structure TxGate (H : Dispatched) (out : List Bytes) (t : DCTrans) : Prop where
  live : t.phase ≠ .idle
  header : HeaderSent t out
  confirmed : ∀ f ∈ t.files, f.confirmed = true →
    ∃ d ∈ H, PullFrame out t .fileHeaderConfirm (f.fileId ∈ ·) d
  requested : t.reqReceived = true →
    ∃ d ∈ H, PullFrame out t .fileTransferReq (fun _ => True) d
  all : t.allConfirmed = true → ∀ f ∈ t.files, f.confirmed = true
  sending : t.phase = .txSending ∨ t.phase = .txWaitDone →
    t.allConfirmed = true ∧ t.reqReceived = true

theorem TxGate.opened {H : Dispatched} {out : List Bytes} {t : DCTrans} (h : TxGate H out t)
    (hphase : t.phase = .txSending ∨ t.phase = .txWaitDone) : GateOpened H out t where
  confirmed f hf := h.confirmed f hf (h.all (h.sending hphase).1 f hf)
  requested := h.requested (h.sending hphase).2

/-- A transfer that differs in nothing the gate looks at, unless it has ended. -/
theorem TxGate.congr {H H' : Dispatched} {out out' : List Bytes} {t t' : DCTrans}
    (h : TxGate H out t) (hH : H ⊆ H') (hout : out <+: out') (hid : t'.transId = t.transId)
    (hfiles : t'.files.map DCFile.gate = t.files.map DCFile.gate)
    (hreq : t'.reqReceived = t.reqReceived) (hall : t'.allConfirmed = t.allConfirmed)
    (hlive : t'.phase ≠ .idle)
    (hphase : t'.phase = .txSending ∨ t'.phase = .txWaitDone →
      t.phase = .txSending ∨ t.phase = .txWaitDone) : TxGate H' out' t' where
  live := hlive
  header := (h.header.congr ⟨hid, entries_of_gate hfiles⟩).grow hout
  confirmed f hf hconf := by
    obtain ⟨f₀, hf₀, hgate⟩ := mem_of_map_eq hfiles hf
    obtain ⟨hentry, hsame⟩ := Prod.mk.inj hgate
    obtain ⟨d, hd, hpull⟩ := h.confirmed f₀ hf₀ (hsame.trans hconf)
    rw [show f₀.fileId = f.fileId from congrArg DFileHeaderEntry.fileId hentry] at hpull
    exact ⟨d, hH hd, hpull.congr ⟨hid, entries_of_gate hfiles⟩ hout⟩
  requested h' := by
    obtain ⟨d, hd, hpull⟩ := h.requested (hreq ▸ h')
    exact ⟨d, hH hd, hpull.congr ⟨hid, entries_of_gate hfiles⟩ hout⟩
  all h' f hf := by
    obtain ⟨f₀, hf₀, hgate⟩ := mem_of_map_eq hfiles hf
    rw [← (Prod.mk.inj hgate).2]
    exact h.all (hall ▸ h') f₀ hf₀
  sending h' := by
    rw [hall, hreq]
    exact h.sending (hphase h')

/-- What holds of every connection, dead or alive. -/
structure Gate (H : Dispatched) (c : DFileConn) : Prop where
  tx : c.crash = none → ∀ t, c.tx = some t → TxGate H c.out t
  data : ∀ pre w post, c.out = pre ++ w :: post → w.head? = some DFileFrameType.fileData.code →
    ∃ t, c.tx = some t ∧ t.phase ≠ .idle ∧ DataOf t w ∧ GateOpened H pre t

section
variable {sha256Hex : Bytes → Bytes} {H : Dispatched} {env : DcEnv} {fr : Option Bytes}
  {c c' : DFileConn}

theorem Gate.mono {H' : Dispatched} (hH : H ⊆ H') (h : Gate H c) : Gate H' c where
  tx hlive t ht := by
    have hgate := h.tx hlive t ht
    exact hgate.congr hH (List.prefix_refl _) rfl rfl rfl rfl hgate.live id
  data pre w post hout hhead := by
    obtain ⟨t, ht, hphase, hdata, hopened⟩ := h.data pre w post hout hhead
    exact ⟨t, ht, hphase, hdata, hopened.congr hH (.refl t)⟩

/-- A transfer that has sent its header stays, whatever becomes of it. -/
theorem DcTxMove.sameList (hmove : DcTxMove env c c') {t : DCTrans} (ht : c.tx = some t)
    (hphase : t.phase ≠ .idle) : ∃ t', c'.tx = some t' ∧ SameList t t' ∧ t'.phase ≠ .idle := by
  cases hmove with
  | kept ws es _ _ _ _ hrel =>
      obtain ⟨t', htx', hkeep⟩ := rel_some_left hrel ht
      exact ⟨t', htx', ⟨hkeep.transId, by rw [hkeep.files]⟩, hkeep.phase_ne_idle hphase⟩
  | dropped ht' hidle =>
      obtain rfl := Option.some.inj (ht.symm.trans ht')
      exact absurd hidle hphase
  | armed ht' hidle =>
      obtain rfl := Option.some.inj (ht.symm.trans ht')
      exact absurd hidle hphase
  | cut _ _ _ _ _ _ htx' => exact ⟨t, htx'.trans ht, .refl t, hphase⟩
  | newBlock ht' _ hfiles _ _ _ _ _ htx' =>
      obtain rfl := Option.some.inj (ht.symm.trans ht')
      exact ⟨_, htx', ⟨rfl, by rw [hfiles]; simp [DCFile.headerEntry]⟩, hphase⟩
  | retran ht' _ hfiles _ _ _ _ _ htx' =>
      obtain rfl := Option.some.inj (ht.symm.trans ht')
      exact ⟨_, htx', ⟨rfl, by rw [hfiles]; simp [DCFile.headerEntry]⟩, hphase⟩
  | finish ht' _ _ _ _ _ _ _ _ htx' =>
      obtain rfl := Option.some.inj (ht.symm.trans ht')
      exact ⟨_, htx', ⟨rfl, rfl⟩, by simp⟩

theorem DcTxMove.tx_none (hmove : DcTxMove env c c') (htx : c.tx = none) : c'.tx = none := by
  cases hmove with
  | kept _ _ _ _ _ _ hrel =>
      refine Option.eq_none_iff_forall_ne_some.mpr fun t' htx' => ?_
      obtain ⟨t, ht, -⟩ := rel_some_right hrel htx'
      rw [htx] at ht
      cases ht
  | cut _ _ _ _ _ _ htx' => exact htx'.trans htx
  | dropped ht => rw [htx] at ht; cases ht
  | armed ht => rw [htx] at ht; cases ht
  | newBlock ht => rw [htx] at ht; cases ht
  | retran ht => rw [htx] at ht; cases ht
  | finish ht => rw [htx] at ht; cases ht

/-- The transfer of a living process, after a move. -/
theorem TxGate.move {t t' : DCTrans} (h : TxGate H c.out t) (ht : c.tx = some t)
    (hmove : DcTxMove env c c') (ht' : c'.tx = some t') : TxGate H c'.out t' := by
  have hself := List.Subset.refl H
  cases hmove with
  | kept ws es hout _ _ _ hrel =>
      obtain ⟨u, hu, hkeep⟩ := rel_some_left hrel ht
      obtain rfl := Option.some.inj (ht'.symm.trans hu)
      refine h.congr hself ⟨ws, hout.symm⟩ hkeep.transId (by rw [hkeep.files])
        hkeep.reqReceived hkeep.allConfirmed (hkeep.phase_ne_idle h.live) ?_
      intro hsend
      rcases hkeep.phase with hsame | ⟨hend, -⟩ | ⟨-, hbefore⟩
      · rw [← hsame]
        exact hsend
      · rw [hend] at hsend
        rcases hsend with hsend | hsend <;> cases hsend
      · exact Or.inl hbefore
  | dropped _ _ _ _ htx' =>
      rw [ht'] at htx'
      cases htx'
  | armed hu hidle =>
      obtain rfl := Option.some.inj (ht.symm.trans hu)
      exact absurd hidle h.live
  | cut _ _ _ _ hout _ htx' =>
      obtain rfl := Option.some.inj (ht'.symm.trans (htx'.trans ht))
      exact h.congr hself ⟨_, hout.symm⟩ rfl rfl rfl rfl h.live id
  | newBlock hu _ hfiles _ _ _ hout _ htx' =>
      obtain rfl := Option.some.inj (ht.symm.trans hu)
      obtain rfl := Option.some.inj (ht'.symm.trans htx')
      refine h.congr hself ⟨_, hout.symm⟩ rfl ?_ rfl rfl h.live id
      rw [hfiles]
      simp [DCFile.gate, DCFile.headerEntry]
  | retran hu _ hfiles _ _ _ hout _ htx' =>
      obtain rfl := Option.some.inj (ht.symm.trans hu)
      obtain rfl := Option.some.inj (ht'.symm.trans htx')
      refine h.congr hself ⟨_, hout.symm⟩ rfl ?_ rfl rfl h.live id
      rw [hfiles]
      simp [DCFile.gate, DCFile.headerEntry]
  | finish hu _ _ _ _ _ _ hout _ htx' =>
      obtain rfl := Option.some.inj (ht.symm.trans hu)
      obtain rfl := Option.some.inj (ht'.symm.trans htx')
      refine h.congr hself ⟨_, hout.symm⟩ rfl rfl rfl rfl ?_ ?_
      · show DCPhase.txDone ≠ .idle
        decide
      · rintro (hsend | hsend) <;> cases hsend

/-- Data of a move goes out through an open gate. -/
theorem DcTxMove.data (hmove : DcTxMove env c c') :
    c'.out = c.out ∨ ∃ ws, c'.out = c.out ++ ws ∧
      ((∀ w ∈ ws, w.head? ≠ some DFileFrameType.fileData.code) ∨
        ∃ t w, ws = [w] ∧ c.stopped = false ∧ c.tx = some t ∧ DataOf t w ∧
          (t.phase = .txSending ∨ t.phase = .txWaitDone)) := by
  have hpiece : ∀ {type : DFileFrameType} {w : Bytes}, type ≠ .fileData → PieceOf type w →
      w.head? ≠ some DFileFrameType.fileData.code :=
    fun hne hw hhead => hne (hw.type_eq hhead)
  cases hmove with
  | kept ws es hout hws =>
      refine Or.inr ⟨ws, hout, Or.inl fun w hw => ?_⟩
      obtain ⟨type, hne, hpw⟩ := hws w hw
      exact hpiece hne hpw
  | dropped _ _ hout => exact Or.inl hout
  | armed _ _ hout => exact Or.inl hout
  | @cut t file seq f ht hphase hfile hblock hout =>
      obtain ⟨flag, block, -, hf⟩ := hblock
      rcases hopen : c.stopped with _ | _
      · have hwrite : (dcWrite env c f).1 = [(dcSendLoop (env.send c.out.length) f).1] := by
          rw [dcWrite, if_neg (by simp [hopen])]
        refine Or.inr ⟨_, hout, Or.inr ⟨t, _, hwrite, rfl, ht, ?_, hphase⟩⟩
        exact ⟨file, hfile, flag, _, block, f, hf, (dcSendLoop_writes _ f).1⟩
      · left
        rw [hout, dcWrite, if_pos hopen, List.append_nil]
  | @newBlock t pre post file f ht hphase hfiles _ hblock hopen hout =>
      obtain ⟨flag, block, -, hf⟩ := hblock
      refine Or.inr ⟨[f], hout, Or.inr ⟨t, f, rfl, hopen, ht, ?_, hphase⟩⟩
      exact ⟨file, by rw [hfiles]; simp, flag, _, block, f, hf, List.prefix_refl f⟩
  | @retran t pre post file seq retrans f ht hphase hfiles _ hblock hopen hout =>
      obtain ⟨flag, block, -, hf⟩ := hblock
      refine Or.inr ⟨[f], hout, Or.inr ⟨t, f, rfl, hopen, ht, ?_, hphase⟩⟩
      exact ⟨file, by rw [hfiles]; simp, flag, _, block, f, hf, List.prefix_refl f⟩
  | finish _ _ _ _ _ hframe _ hout =>
      refine Or.inr ⟨_, hout, Or.inl fun w hw => ?_⟩
      rw [List.mem_singleton.mp hw]
      exact hpiece (by decide) hframe.pieceOf

theorem Gate.move (hbase : DcBase c) (h : Gate H c) (hm : DcMove sha256Hex env True fr c c')
    (hmove : DcTxMove env c c') : Gate H c' := by
  constructor
  · intro hlive t' ht'
    have hlive₀ := hm.alive hbase hlive
    cases ht : c.tx with
    | none =>
        rw [hmove.tx_none ht] at ht'
        cases ht'
    | some t => exact (h.tx hlive₀ t ht).move ht hmove ht'
  · intro pre w post hsplit hhead
    have hold : ∀ post', c.out = pre ++ w :: post' →
        ∃ t, c'.tx = some t ∧ t.phase ≠ .idle ∧ DataOf t w ∧ GateOpened H pre t := by
      intro post' hpre
      obtain ⟨t, ht, hphase, hdata, hopened⟩ := h.data pre w post' hpre hhead
      obtain ⟨t', ht', hsame, hphase'⟩ := hmove.sameList ht hphase
      exact ⟨t', ht', hphase', hdata.congr hsame, hopened.congr (List.Subset.refl H) hsame⟩
    rcases hmove.data with hout | ⟨ws, hout, hws⟩
    · exact hold post (hout ▸ hsplit)
    rw [hout] at hsplit
    rcases split_append hsplit with ⟨post', hpre⟩ | ⟨mid, hpre, hmid⟩
    · exact hold post' hpre
    rcases hws with hother | ⟨t, u, rfl, hopen, ht, hdata, hphase⟩
    · exact absurd hhead (hother w (hmid ▸ List.mem_append_right mid List.mem_cons_self))
    · obtain ⟨rfl, rfl⟩ : mid = [] ∧ u = w := by
        rcases List.append_eq_singleton_iff.mp hmid.symm with ⟨rfl, hx⟩ | ⟨-, hx⟩
        · exact ⟨rfl, (List.cons.inj hx).1.symm⟩
        · cases hx
      rw [List.append_nil] at hpre
      subst hpre
      have hgate := h.tx (DFileConn.stopped_eq_false hopen).1 t ht
      obtain ⟨t', ht', hsame, hphase'⟩ := hmove.sameList ht hgate.live
      exact ⟨t', ht', hphase', hdata.congr hsame,
        (hgate.opened hphase).congr (List.Subset.refl H) hsame⟩

/-- No data goes out before a transfer has been announced. -/
theorem Gate.no_data (h : Gate H c) (hidle : ∀ t, c.tx = some t → t.phase = .idle) :
    ∀ pre w post, c.out = pre ++ w :: post → w.head? ≠ some DFileFrameType.fileData.code := by
  intro pre w post hout hhead
  obtain ⟨t, ht, hphase, -⟩ := h.data pre w post hout hhead
  exact hphase (hidle t ht)

theorem Gate.start {items : List DFileSendItem} (h : Gate H c) (hopen : c.stopped = false)
    (hs : DcStarts env items c c') : Gate H c' := by
  have hlive := (DFileConn.stopped_eq_false hopen).1
  have hnone : c.tx = none → ∀ {ws : List Bytes}, (∀ w ∈ ws, PieceOf .fileHeader w) →
      ∀ pre w post, c.out ++ ws = pre ++ w :: post →
        w.head? ≠ some DFileFrameType.fileData.code := by
    intro htx ws hws pre w post hsplit hhead
    rcases split_append hsplit with ⟨post', hpre⟩ | ⟨mid, -, hmid⟩
    · refine h.no_data ?_ pre w post' hpre hhead
      intro t ht
      rw [htx] at ht
      cases ht
    · have hmem : w ∈ ws := hmid ▸ List.mem_append_right mid List.mem_cons_self
      exact absurd ((hws w hmem).type_eq hhead) (by decide)
  rcases hs with ⟨nextTransId, crash, rfl⟩ |
    ⟨nextTransId, ws, tx, crash, rfl, hws, -, htx, hgone⟩ |
    ⟨files, frames, t, -, htx, -, -, hfiles, ht, hframes, hheader, rfl⟩
  · exact ⟨fun _ => h.tx hlive, h.data⟩
  · constructor
    · intro halive t ht
      rw [hgone halive] at ht
      cases ht
    · intro pre w post hsplit hhead
      exact absurd hhead (hnone htx hws pre w post hsplit)
  · constructor
    · rintro - u ⟨⟩
      have hfresh : ∀ f ∈ t.files, f.confirmed = false := by
        intro f hf
        rw [ht] at hf
        obtain ⟨j, item, -, hj⟩ := txOpenFiles_mem items hfiles f hf
        exact (txOpenFile_spec hj).2.2.2.2.2.1
      constructor
      · rw [ht]
        simp
      · exact ⟨frames, hframes, (List.suffix_append c.out frames).isInfix⟩
      · intro f hf hconf
        rw [hfresh f hf] at hconf
        cases hconf
      · rw [ht]
        rintro ⟨⟩
      · rw [ht]
        rintro ⟨⟩
      · rw [ht]
        rintro (hsend | hsend) <;> cases hsend
    · intro pre w post hsplit hhead
      exact absurd hhead (hnone htx (fun w hw => (hheader w hw).pieceOf) pre w post hsplit)

/-- A transfer exchanged for one that announces the same. -/
theorem Gate.exchange {t t' : DCTrans} (h : Gate H c) (ht : c.tx = some t)
    (hsame : SameList t t') (hphase : t'.phase ≠ .idle)
    (hgate : TxGate H c.out t → TxGate H c.out t') : Gate H { c with tx := some t' } := by
  constructor
  · rintro hlive u ⟨⟩
    exact hgate (h.tx hlive t ht)
  · intro pre w post hsplit hhead
    obtain ⟨u, hu, -, hdata, hopened⟩ := h.data pre w post hsplit hhead
    obtain rfl := Option.some.inj (ht.symm.trans hu)
    exact ⟨t', rfl, hphase, hdata.congr hsame, hopened.congr (List.Subset.refl H) hsame⟩

/-- The gate opens by the frames that come in. -/
theorem Gate.ctrl {frame : Bytes} {t : DCTrans} {type : DFileFrameType} {l : DFileIdlist}
    (h : Gate H c) (hhandled : HandledIn H c frame) (ht : c.tx = some t) (hphase : t.phase = .txWaitConfirmReq)
    (htype : type = .fileHeaderConfirm ∨ type = .fileTransferReq)
    (hl : dfileDecodeIdlist frame type = some l) (hid : l.transId = t.transId) :
    Gate H { c with tx := some (txCtrlUpdate env type l.ids t) } := by
  obtain ⟨env₀, hd⟩ := hhandled
  have hctrl := txCtrlUpdate_of env type l.ids t
  set t' := txCtrlUpdate env type l.ids t with ht'
  have hsame : SameList t t' := ⟨hctrl.transId, hctrl.entries⟩
  have hlive : t'.phase ≠ .idle := by
    rcases hctrl.phase with hkept | ⟨hsend, -⟩
    · rw [hkept, hphase]
      decide
    · rw [hsend]
      decide
  refine h.exchange ht hsame hlive fun hgate => ?_
  -- the frame that is handled, for the transfer after it
  have hpull : ∀ {named : List UInt16 → Prop}, named l.ids →
      PullFrame c.out t' type named (c, env₀, frame) := fun hnamed =>
    ⟨List.prefix_refl _, hgate.header.congr hsame, l, hl, hid.trans hsame.transId.symm, hnamed⟩
  constructor
  · exact hlive
  · exact hgate.header.congr hsame
  · intro f hf hconf
    obtain ⟨f₀, hf₀, rfl | ⟨rfl, rfl, hmem⟩⟩ := hctrl.files f hf
    · obtain ⟨d, hd, hold⟩ := hgate.confirmed f hf₀ hconf
      exact ⟨d, hd, hold.congr hsame (List.prefix_refl _)⟩
    · exact ⟨_, hd, hpull hmem⟩
  · intro hreq
    rcases hctrl.reqReceived hreq with hreq | hne
    · obtain ⟨d, hd, hold⟩ := hgate.requested hreq
      exact ⟨d, hd, hold.congr hsame (List.prefix_refl _)⟩
    · obtain rfl := htype.resolve_left hne
      exact ⟨_, hd, hpull trivial⟩
  · intro hall
    rcases hctrl.allConfirmed hall with ⟨hall, hfiles⟩ | hall
    · rw [hfiles]
      exact hgate.all hall
    · exact hall
  · intro hsend
    rcases hctrl.phase with hkept | ⟨-, hboth⟩
    · rw [hkept, hphase] at hsend
      rcases hsend with hsend | hsend <;> cases hsend
    · exact hboth

/-- ACK entries leave what the gate looks at. -/
theorem foldl_ackEntry_gate (es : List DFileAckEntry) : ∀ files : List DCFile,
    (es.foldl ackEntry files).map DCFile.gate = files.map DCFile.gate := by
  induction es with
  | nil => intro files; rfl
  | cons e es ih =>
      intro files
      refine (ih _).trans ?_
      unfold ackEntry
      split
      · rfl
      · apply updateFile_map
        intro f
        unfold ackFile
        split <;> rfl

variable (sha256Hex) in
theorem gate_kept :
    TxKept sha256Hex Gate (fun _ _ _ => True) fun _ _ => True := by
  constructor
  · intro H H' c hH h
    exact h.mono hH
  · intro H env items c c' _ h hopen _ hs
    exact h.start hopen hs
  · intro H env fr c c' hbase h hm hmove
    exact h.move hbase hm hmove
  · intro H env frame c t type l h _ hhandled ht hphase htype hl hid
    exact h.ctrl hhandled ht hphase htype hl hid
  · intro H frame c t a h _ _ _ ht hphase _ _
    have hgates := foldl_ackEntry_gate a.entries t.files
    have hlive : t.phase ≠ .idle := by rcases hphase with hp | hp <;> rw [hp] <;> decide
    refine h.exchange ht ⟨rfl, entries_of_gate hgates⟩ hlive fun hgate => ?_
    exact hgate.congr (List.Subset.refl H) (List.prefix_refl _) rfl hgates rfl rfl hlive id
  · intro H frame c t l h hopen _ ht _ _ _ _
    have hgate := h.tx (DFileConn.stopped_eq_false hopen).1 t ht
    have hlive : (if t.phase = .txSending then .txWaitDone else t.phase) ≠ .idle := by
      split
      · decide
      · exact hgate.live
    refine h.exchange ht ⟨rfl, rfl⟩ hlive fun hgate => ?_
    refine hgate.congr (List.Subset.refl H) (List.prefix_refl _) rfl rfl rfl rfl hlive ?_
    intro hsend
    simp only at hsend
    split at hsend
    · rename_i hbefore
      exact Or.inl hbefore
    · exact hsend

theorem dcAlloc_gate (now : UInt64) (recvDir : Option Bytes) : Gate [] (dcAlloc now recvDir) where
  tx := by rintro - t ⟨⟩
  data pre w post h := by
    have hnil : ([] : List Bytes) = pre ++ w :: post := h
    simp at hnil

/-- **No data before the pull**, in any order of frames. -/
theorem DFileConn.data_after_pull {now : UInt64} {recvDir : Option Bytes} {es : List DcEv}
    {c : DFileConn} (hrun : run (DFileConn.step sha256Hex) (dcAlloc now recvDir) es = some c)
    {pre post : List Bytes} {w : Bytes} (hout : c.out = pre ++ w :: post)
    (hdata : w.head? = some DFileFrameType.fileData.code) :
    ∃ t, c.tx = some t ∧ DataOf t w ∧
      GateOpened ((dcAlloc now recvDir).dispatches sha256Hex es) pre t := by
  have hok : Meets (DFileConn.step sha256Hex) (DcOk (fun _ _ _ => True) fun _ _ => True)
      (dcAlloc now recvDir) es :=
    meets_of_forall (fun _ _ => ⟨fun _ _ _ => trivial, fun _ _ => trivial⟩) es _
  have h := DFileConn.run_keeps_tx (gate_kept sha256Hex) es
    ⟨dcAlloc_base now recvDir, dcAlloc_gate now recvDir⟩ (dcAlloc_sound now recvDir) hok hrun
  rw [List.nil_append] at h
  obtain ⟨t, ht, -, hdataOf, hopened⟩ := h.data pre w post hout hdata
  exact ⟨t, ht, hdataOf, hopened⟩

end

/-- The one-byte file, sent to the end: the setting, the header and then its block. -/
theorem DFileConn.data_after_pull_oneByte :
    ∃ c w, run (DFileConn.step id) (dcAlloc 0 none)
        (sendOneByte [.tick (oneByteEnv 0 fun _ => dcTakesAll)]) = some c ∧
      c.out = c.out.take 2 ++ w :: c.out.drop 3 ∧
      ∃ t, c.tx = some t ∧ DataOf t w ∧
        GateOpened ((dcAlloc 0 none).dispatches id
          (sendOneByte [.tick (oneByteEnv 0 fun _ => dcTakesAll)])) (c.out.take 2) t := by
  obtain ⟨c, hrun, hfacts⟩ := Option.map_eq_some_iff.mp (show
    (run (DFileConn.step id) (dcAlloc 0 none)
      (sendOneByte [.tick (oneByteEnv 0 fun _ => dcTakesAll)])).map (fun c =>
        (decide (2 < c.out.length), (c.out[2]?.bind List.head?))) =
          some (true, some DFileFrameType.fileData.code) by decide +kernel)
  simp only [Prod.mk.injEq, decide_eq_true_eq] at hfacts
  obtain ⟨hlen, hhead⟩ := hfacts
  rw [List.getElem?_eq_getElem hlen, Option.bind_some] at hhead
  have hout : c.out = c.out.take 2 ++ c.out[2] :: c.out.drop 3 := by simp
  exact ⟨c, _, hrun, hout, DFileConn.data_after_pull hrun hout hhead⟩

end HwPhoneLink.DFile
