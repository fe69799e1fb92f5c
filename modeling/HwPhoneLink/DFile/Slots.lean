import HwPhoneLink.DFile.Delivery
import HwPhoneLink.DFile.Ended

/-!
# One transfer each way

`c->tx` and `c->rx` are filled by the first transfer of their direction and emptied by the
teardown only. A transfer that has ended keeps its slot: the next `send_files` finds it
active, and the next FILE_HEADER finds the receive finished.
-/

namespace HwPhoneLink.DFile

open BigEndian Transitions HwPhoneLink.Testfile

/-- The transfer of one direction has ended. -/
def DFileConn.Over (c : DFileConn) (isSender : Bool) : Prop :=
  ∃ t, c.trans isSender = some t ∧ t.phase.terminal = true

theorem DCPhase.ne_of_terminal {p q : DCPhase} (hp : p.terminal = true) (hq : q.terminal = false) :
    p ≠ q := by
  rintro rfl
  rw [hp] at hq
  cases hq

theorem DCPhase.terminal_cases {p : DCPhase} (hp : p.terminal = true) :
    p = .failed ∨ p = .txDone ∨ p = .rxDone := by
  revert hp
  cases p <;> decide

section
variable {sha256Hex : Bytes → Bytes} {env : DcEnv} {late : Prop} {fr : Option Bytes}
  {c c' : DFileConn}

/-- A transfer that has ended is not failed again. -/
theorem transFail_over {s : Bool} (h : c.Over s) (isSender : Bool) (reason : String)
    (sendRst : Bool) : (transFail env isSender reason sendRst c).Over s := by
  rcases transFail_spec env isSender reason sendRst c with hsame | ⟨t, w, crash, ht, hlive, -, -, heq⟩
  · rw [hsame]
    exact h
  · rw [heq]
    obtain ⟨u, hu, hterm⟩ := h
    by_cases hs : isSender = s
    · subst hs
      rw [ht] at hu
      cases hu
      rw [hlive] at hterm
      cases hterm
    · refine ⟨u, ?_, hterm⟩
      cases isSender <;> cases s <;> first | exact absurd rfl hs | exact hu

/-- Every move of a transfer starts in a phase that goes on. -/
theorem DcMove.over_tx (hm : DcMove sha256Hex env late fr c c') (h : c.Over true) :
    c'.Over true := by
  obtain ⟨t, ht, hterm⟩ := h
  have htx : c.tx = some t := ht
  have hthis : ∀ {u : DCTrans} {P : Prop}, c.tx = some u → u.phase.terminal = false → P := by
    intro u P hu hlive
    rw [htx] at hu
    cases hu
    rw [hterm] at hlive
    cases hlive
  cases hm with
  | fail isSender reason sendRst => exact transFail_over ⟨t, ht, hterm⟩ isSender reason sendRst
  | startTx _ hnone =>
      rw [htx] at hnone
      cases hnone
  | dropTx hu hphase => exact hthis hu (by rw [hphase]; rfl)
  | armed hu hphase => exact hthis hu (by rw [hphase]; rfl)
  | retry _ _ hu hphase => exact hthis hu (by rw [hphase]; rfl)
  | ctrl _ hu hphase => exact hthis hu (by rw [hphase]; rfl)
  | newBlock hu hphase => exact hthis hu (by rcases hphase with h | h <;> rw [h] <;> rfl)
  | retran hu hphase => exact hthis hu (by rcases hphase with h | h <;> rw [h] <;> rfl)
  | allSent hu hphase => exact hthis hu (by rw [hphase]; rfl)
  | ack _ hu hphase => exact hthis hu (by rcases hphase with h | h <;> rw [h] <;> rfl)
  | doneReceived _ hu hfail hdone =>
      rw [htx] at hu
      cases hu
      refine ⟨_, rfl, ?_⟩
      show (if t.phase = .txSending then DCPhase.txWaitDone else t.phase).terminal = true
      rw [if_neg (DCPhase.ne_of_terminal hterm rfl)]
      exact hterm
  | finish => exact ⟨_, rfl, rfl⟩
  | _ => exact ⟨t, ht, hterm⟩

/-- The same for the receiver, unless a tick goes on after its ACK has failed the
transfer. -/
theorem DcMove.over_rx (hlate : ¬ late) (hm : DcMove sha256Hex env late fr c c')
    (h : c.Over false) : c'.Over false := by
  obtain ⟨t, ht, hterm⟩ := h
  have hrx : c.rx = some t := ht
  have hthis : ∀ {u : DCTrans} {P : Prop}, c.rx = some u → u.phase.terminal = false → P := by
    intro u P hu hlive
    rw [hrx] at hu
    cases hu
    rw [hterm] at hlive
    cases hlive
  cases hm with
  | fail isSender reason sendRst => exact transFail_over ⟨t, ht, hterm⟩ isSender reason sendRst
  | header _ _ _ hu =>
      rcases hu with ⟨hnone, -⟩ | ⟨hu, hfail, hdone, -⟩
      · rw [hrx] at hnone
        cases hnone
      · rw [hrx] at hu
        cases hu
        exact ⟨_, rfl, hterm⟩
  | opened _ _ hu hphase => exact hthis hu (by rw [hphase]; rfl)
  | waitData hu hphase => exact hthis hu (by rw [hphase]; rfl)
  | write _ _ hu hphase => exact hthis hu (by rw [hphase]; rfl)
  | flushNone hu hphase => exact hthis hu (by rw [hphase]; rfl)
  | flush hu hphase => exact hthis hu (by rw [hphase]; rfl)
  | digest hu =>
      rw [hrx] at hu
      cases hu
      exact ⟨_, rfl, hterm⟩
  | done hu hphase =>
      exact hthis hu (by rw [hphase.resolve_right hlate]; rfl)
  | doneack => exact ⟨_, rfl, rfl⟩
  | _ => exact ⟨t, ht, hterm⟩

/-- A receive that has ended sends no ACK that could be cut off. -/
theorem DFileConn.Over.not_ackInterrupted (h : c.Over false) :
    ¬ AckInterrupted sha256Hex env (dcTimeouts env c) := by
  rintro ⟨u, -, hu, hphase, -⟩
  have hkeep : ∀ (s : Bool) {c : DFileConn}, c.Over false → (dcTimeout env s c).Over false := by
    intro s c h
    unfold dcTimeout
    split
    · exact h
    generalize (if s then DCPhase.txDone else DCPhase.rxDone) = ended
    split
    · exact transFail_over h s _ true
    · exact h
  have hover : (dcTimeouts env c).Over false := by
    unfold dcTimeouts DFileConn.andThen
    split
    · exact hkeep true h
    · exact hkeep false (hkeep true h)
  obtain ⟨t, ht, hterm⟩ := hover
  have hrx : (dcTimeouts env c).rx = some t := ht
  rw [hrx] at hu
  cases hu
  rw [hphase] at hterm
  cases hterm

/-- **Step lemma.** A slot that is over stays over. -/
theorem DFileConn.step_over {s : Bool} {e : DcEv} (h : c.Over s ∧ c.Sound)
    (hs : c.step sha256Hex e = some c') : c'.Over s ∧ c'.Sound := by
  cases s with
  | true =>
      exact DFileConn.step_keeps (fun c => c.Over true) True (fun _ => True)
        (fun _ h hm => hm.over_tx h) h.1 h.2 trivial (fun _ _ _ => trivial) hs
  | false =>
      refine DFileConn.step_keeps (fun c => c.Over false) False (fun _ => True)
        (fun _ h hm => hm.over_rx id h) h.1 h.2 trivial ?_ hs
      rintro env rfl hcut
      exact h.1.not_ackInterrupted hcut

/-- A send is refused as if the transfer were going on. -/
theorem DFileConn.Over.refuses (h : c.Over true) (hready : c.state = .ready)
    (items : List DFileSendItem) :
    sendFilesImpl env items c = (c, some "a send transfer is already active") := by
  obtain ⟨t, ht, -⟩ := h
  have htx : c.tx = some t := ht
  rw [sendFilesImpl, if_neg (by simp [hready]), if_pos (by rw [htx]; rfl)]

/-- A header is ignored, whatever transfer it is of. -/
theorem DFileConn.Over.ignores (h : c.Over false) (hbase : DcBase c) (frame : Bytes) :
    handleFileHeader env frame c = c := by
  obtain ⟨t, ht, hterm⟩ := h
  have hrx : c.rx = some t := ht
  have hended : t.phase = .failed ∨ t.phase = .rxDone := by
    rcases DCPhase.terminal_cases hterm with hfailed | hdone | hdone
    · exact .inl hfailed
    · exact absurd hdone (hbase.rx t hrx).phase
    · exact .inr hdone
  rw [handleFileHeader, if_pos (by rw [hrx]; exact decide_eq_true hended)]

theorem DFileConn.step_base {e : DcEv} (h : DcBase c ∧ c.Sound)
    (hs : c.step sha256Hex e = some c') : DcBase c' ∧ c'.Sound :=
  DFileConn.step_keeps DcBase True (fun _ => True) (fun _ h hm => hm.base h) h.1 h.2 trivial
    (fun _ _ _ => trivial) hs

theorem DFileConn.run_base {es : List DcEv} (h : DcBase c ∧ c.Sound)
    (hrun : run (DFileConn.step sha256Hex) c es = some c') : DcBase c' ∧ c'.Sound :=
  run_inv (fun c => DcBase c ∧ c.Sound) (fun _ _ => True)
    (fun _ _ _ h _ hs => DFileConn.step_base h hs) h (meets_true es c) hrun

theorem DFileConn.run_over {s : Bool} {es : List DcEv} (h : c.Over s ∧ c.Sound)
    (hrun : run (DFileConn.step sha256Hex) c es = some c') : c'.Over s ∧ c'.Sound :=
  run_inv (fun c => c.Over s ∧ c.Sound) (fun _ _ => True)
    (fun _ _ _ h _ hs => DFileConn.step_over h hs) h (meets_true es c) hrun

/-- **No second transfer.** Once a send has ended, every later `send_files` of the run is
refused as if it were active; once a receive has ended, every later FILE_HEADER is
ignored. -/
theorem DFileConn.no_second_transfer {now : UInt64} {recvDir : Option Bytes}
    {es fs : List DcEv} {c' : DFileConn}
    (hrun : run (DFileConn.step sha256Hex) (dcAlloc now recvDir) es = some c)
    (hlater : run (DFileConn.step sha256Hex) c fs = some c') :
    (c.Over true → c'.state = .ready → ∀ (env : DcEnv) (items : List DFileSendItem),
      sendFilesImpl env items c' = (c', some "a send transfer is already active")) ∧
    (c.Over false → ∀ (env : DcEnv) (frame : Bytes), handleFileHeader env frame c' = c') := by
  have hc := DFileConn.run_base ⟨dcAlloc_base now recvDir, dcAlloc_sound now recvDir⟩ hrun
  have hc' := DFileConn.run_base hc hlater
  constructor
  · intro hover hready env items
    exact (DFileConn.run_over ⟨hover, hc.2⟩ hlater).1.refuses hready items
  · intro hover env frame
    exact (DFileConn.run_over ⟨hover, hc.2⟩ hlater).1.ignores hc'.1 frame

end

/-! ### A second one-byte file -/

/-- The slot of a run has ended, and the connection is open. -/
theorem over_of_run {c₀ : DFileConn} {es : List DcEv} {s : Bool}
    (h : (run (DFileConn.step id) c₀ es).map (fun c => ((c.trans s).any fun t => t.phase.terminal,
      decide (c.state = .ready))) = some (true, true)) :
    ∃ c, run (DFileConn.step id) c₀ es = some c ∧ c.Over s ∧ c.state = .ready := by
  obtain ⟨c, hrun, hfacts⟩ := Option.map_eq_some_iff.mp h
  simp only [Prod.mk.injEq, decide_eq_true_eq] at hfacts
  obtain ⟨hover, hready⟩ := hfacts
  obtain ⟨t, ht, hterm⟩ := (Option.any_eq_true ..).mp hover
  exact ⟨c, hrun, ⟨t, ht, hterm⟩, hready⟩

/-- The one-byte file sent and received to the end. -/
def sentOneByte : List DcEv := sendOneByte [.tick (oneByteEnv 0 fun _ => dcTakesAll)]

theorem DFileConn.no_second_transfer_oneByte :
    (∃ c, run (DFileConn.step id) (dcAlloc 0 none) sentOneByte = some c ∧
      sendFilesImpl (oneByteEnv 0 fun _ => dcTakesAll) [oneByteItem] c =
        (c, some "a send transfer is already active")) ∧
    ∃ c, run (DFileConn.step id) (dcAlloc 0 (some (ascii "/d"))) (receiveOneByte dcTakesAll) =
        some c ∧
      handleFileHeader (oneByteEnv 0 fun _ => dcTakesAll) (oneByteHeader 2 (ascii "g")) c = c := by
  constructor
  · obtain ⟨c, hrun, hover, hready⟩ := @over_of_run (dcAlloc 0 none) sentOneByte true
      (by decide +kernel)
    have hlater : run (DFileConn.step id) c [] = some c := rfl
    exact ⟨c, hrun, (DFileConn.no_second_transfer hrun hlater).1 hover hready _ _⟩
  · obtain ⟨c, hrun, hover, -⟩ := @over_of_run (dcAlloc 0 (some (ascii "/d")))
      (receiveOneByte dcTakesAll) false (by decide +kernel)
    have hlater : run (DFileConn.step id) c [] = some c := rfl
    exact ⟨c, hrun, (DFileConn.no_second_transfer hrun hlater).2 hover _ _⟩

/-- **The second file is refused** after the first one has been reported as sent: the same
items that were accepted before. And the header of transfer 2 finds transfer 1. -/
theorem DFileConn.not_second_transfer :
    ((run (DFileConn.step id) (dcAlloc 0 none) sentOneByte).map fun c =>
        (c.events, c.tx.map fun t => t.phase,
          (sendFilesImpl (oneByteEnv 0 fun _ => dcTakesAll) [oneByteItem] c).2)) =
      some (oneByteTold 5, some .txDone, some "a send transfer is already active") ∧
    ((run (DFileConn.step id) (dcAlloc 0 (some (ascii "/d")))
        (receiveOneByte dcTakesAll ++ [.read (oneByteEnv 0 fun _ => dcTakesAll)
          (oneByteHeader 2 (ascii "g"))])).map fun c =>
        (c.state, c.rx.map fun t => (t.transId, t.phase))) =
      some (.ready, some (1, .rxDone)) := by
  constructor <;> decide +kernel

end HwPhoneLink.DFile
