import HwPhoneLink.DFile.Ended

/-!
# Resets

A transfer number counts the sends of one side, so the two transfers of a
connection often have the same one. A reset carries the number and no direction.
-/

namespace HwPhoneLink.DFile

open BigEndian Path Framing Transitions HwPhoneLink.Testfile

section
variable {sha256Hex : Bytes → Bytes} {env : DcEnv} {c : DFileConn} {frame : Bytes}

theorem dispatched_open {σ : Type*} {cut : Bytes → Option ℕ} {handle : σ → Bytes → σ × Bool}
    {stopped : σ → Bool} (n : ℕ) : ∀ {s : σ} {buf : Bytes} {d : σ × Bytes},
      d ∈ dispatched cut handle stopped n s buf → stopped d.1 = false := by
  induction n with
  | zero => intro s buf d hd; cases hd
  | succ n ih =>
      intro s buf d hd
      unfold dispatched at hd
      split at hd
      · cases hd
      rename_i hopen
      rw [Bool.not_eq_true] at hopen
      split at hd
      · cases hd
      rcases List.mem_cons.mp hd with rfl | hd
      · exact hopen
      · split at hd
        · exact ih hd
        · cases hd

/-- A frame is dispatched on a connection that is open. -/
theorem DFileConn.dispatches_open (es : List DcEv) : ∀ {c : DFileConn}
    {d : DFileConn × DcEnv × Bytes}, d ∈ c.dispatches sha256Hex es → d.1.stopped = false := by
  induction es with
  | nil => intro c d hd; cases hd
  | cons e es ih =>
      intro c d hd
      unfold DFileConn.dispatches at hd
      split at hd
      · cases hd
      rcases List.mem_append.mp hd with hd | hd
      · cases e with
        | read env chunk =>
            obtain ⟨d', hd', rfl⟩ := List.mem_map.mp hd
            exact dispatched_open _ hd'
        | _ => cases hd
      · exact ih hd

/-- The transfer of one direction fails, with a report, and that of the other
direction is as before. -/
structure FailsExactly (isSender : Bool) (c c' : DFileConn) : Prop where
  failed : c'.phase isSender = .failed
  told : ∃ n m, c'.events = c.events ++ [(n, .result isSender false m)]
  other : c'.trans (!isSender) = c.trans (!isSender)

theorem transFail_exactly {isSender : Bool} {t : DCTrans} (halive : c.crash = none)
    (ht : c.trans isSender = some t) (hlive : t.phase.terminal = false) (reason : String) :
    FailsExactly isSender c (transFail env isSender reason false c) := by
  rw [transFail_plain ht hlive halive]
  cases isSender <;> exact ⟨rfl, ⟨_, _, rfl⟩, rfl⟩

theorem handleFrame_rst {r : DFileRst} (hr : dfileDecodeRst frame = some r) :
    handleFrame env frame c = handleRst env frame c := by
  obtain ⟨⟨h, p⟩, hp, -⟩ := Option.bind_eq_some_iff.mp hr
  obtain ⟨hunpack, htype, -⟩ := framePayload_some hp
  simp only [handleFrame, hunpack, htype, DFileFrameType.ofCode_code]

/-- Which transfer a reset fails: the one it names, but the send if both bear
its number. -/
theorem handleFrame_rst_exactly {r : DFileRst} {about : Bool} {t u : DCTrans}
    (hopen : c.stopped = false) (hr : dfileDecodeRst frame = some r)
    (ht : c.trans about = some t) (hlive : t.phase.terminal = false)
    (hu : c.trans (!about) = some u) (hlive' : u.phase.terminal = false)
    (hid : r.transId = t.transId) :
    FailsExactly about c (handleFrame env frame c) ↔ about = true ∨ t.transId ≠ u.transId := by
  have halive := (DFileConn.stopped_eq_false hopen).1
  rw [handleFrame_rst hr]
  cases about with
  | true =>
      have htx : c.tx = some t := ht
      simp only [handleRst, hr, htx, Option.any_some, hid, decide_true, if_true, true_or, iff_true]
      exact transFail_exactly halive ht hlive _
  | false =>
      have hrx : c.rx = some t := ht
      have htx : c.tx = some u := hu
      simp only [Bool.false_eq_true, false_or]
      by_cases hsame : u.transId = t.transId
      · -- the send is found first
        simp only [hsame, ne_eq, not_true_eq_false, iff_false]
        intro hfails
        simp only [handleRst, hr, htx, Option.any_some, hid, hsame, decide_true, if_true] at hfails
        generalize "RST code " ++ toString r.code.toNat ++ " (" ++ rstCodeStr r.code ++ ")" = why
          at hfails
        have hwrong : FailsExactly true c (transFail env true why false c) :=
          transFail_exactly halive hu hlive' why
        have hkept : (transFail env true why false c).trans false = some t := hwrong.other.trans ht
        have hfailed := hfails.failed
        rw [DFileConn.phase, hkept] at hfailed
        have hphase : t.phase = .failed := hfailed
        rw [hphase] at hlive
        cases hlive
      · have hne : t.transId ≠ u.transId := fun h => hsame h.symm
        simp only [handleRst, hr, htx, hrx, Option.any_some, hid, hsame, decide_false, decide_true,
          Bool.false_eq_true, if_false, if_true, ne_eq, hne, not_false_eq_true, iff_true]
        exact transFail_exactly halive ht hlive _

/-- **What a reset fails**, along every run: exactly the transfer it is about, if
and only if that is the send, or the two transfers differ in their numbers. -/
theorem DFileConn.rst_exactly {now : UInt64} {recvDir : Option Bytes} {es : List DcEv}
    {d : DFileConn × DcEnv × Bytes} {r : DFileRst} {about : Bool} {t u : DCTrans}
    (hd : d ∈ (dcAlloc now recvDir).dispatches sha256Hex es)
    (hr : dfileDecodeRst d.2.2 = some r) (hid : r.transId = t.transId)
    (ht : d.1.trans about = some t) (hlive : t.phase.terminal = false)
    (hu : d.1.trans (!about) = some u) (hlive' : u.phase.terminal = false) :
    FailsExactly about d.1 (handleFrame d.2.1 d.2.2 d.1) ↔
      about = true ∨ t.transId ≠ u.transId :=
  handleFrame_rst_exactly (DFileConn.dispatches_open es hd) hr ht hlive hu hlive' hid

end

/-! ### Both transfers have number one -/

/-- Negotiate, send a file, and be sent one, which the peer then cancels. -/
def crossingSends (peerId : UInt16) : List DcEv :=
  let env := oneByteEnv 0 fun _ => dcTakesAll
  let cancel :=
    dfileEncodeRst (dfileFrameHeaderLen + 2 + 2 * dfileMaxFileNum) peerId dfileRstCancel []
  [.start env, .read env dcPeerSetting, .sendFiles env [oneByteItem],
    .read env (oneByteHeader peerId (ascii "f")), .read env (cancel.getD [])]

/-- The last frame of a run, with its reset and the two transfers it meets. -/
def lastReset (es : List DcEv) :
    Option ((DFileConn × DcEnv × Bytes) × DFileRst × DCTrans × DCTrans) := do
  let d ← ((dcAlloc 0 (some (ascii "/d"))).dispatches id es).getLast?
  let r ← dfileDecodeRst d.2.2
  let t ← d.1.trans false
  let u ← d.1.trans true
  return (d, r, t, u)

theorem lastReset_spec {es : List DcEv} {d : DFileConn × DcEnv × Bytes} {r : DFileRst}
    {t u : DCTrans} (h : lastReset es = some (d, r, t, u)) :
    d ∈ (dcAlloc 0 (some (ascii "/d"))).dispatches id es ∧ dfileDecodeRst d.2.2 = some r ∧
      d.1.trans false = some t ∧ d.1.trans true = some u := by
  simp only [lastReset, Option.bind_eq_bind, Option.bind_eq_some_iff, Option.pure_def,
    Option.some.injEq, Prod.mk.injEq] at h
  obtain ⟨d, hd, r, hr, t, ht, u, hu, rfl, rfl, rfl, rfl⟩ := h
  exact ⟨List.mem_of_getLast? hd, hr, ht, hu⟩

theorem DFileConn.rst_exactly_second :
    ∃ d ∈ (dcAlloc 0 (some (ascii "/d"))).dispatches id (crossingSends 2),
      FailsExactly false d.1 (handleFrame d.2.1 d.2.2 d.1) := by
  obtain ⟨⟨d, r, t, u⟩, hlast, hfacts⟩ := Option.map_eq_some_iff.mp (show
    (lastReset (crossingSends 2)).map (fun x => (decide (x.2.1.transId = x.2.2.1.transId),
      x.2.2.1.phase.terminal, x.2.2.2.phase.terminal,
      decide (x.2.2.1.transId = x.2.2.2.transId))) = some (true, false, false, false) by
        decide +kernel)
  obtain ⟨hd, hr, ht, hu⟩ := lastReset_spec hlast
  simp only [Prod.mk.injEq, decide_eq_true_eq, decide_eq_false_iff_not] at hfacts
  obtain ⟨hid, hlive, hlive', hne⟩ := hfacts
  exact ⟨d, hd, (DFileConn.rst_exactly hd hr hid ht hlive hu hlive').mpr (Or.inr hne)⟩

/-- **The peer cancels its own send, and ours fails.** -/
theorem DFileConn.not_rst_exactly :
    ¬ ∀ (sha256Hex : Bytes → Bytes) (now : UInt64) (recvDir : Option Bytes) (es : List DcEv)
        (d : DFileConn × DcEnv × Bytes) (r : DFileRst) (about : Bool) (t u : DCTrans),
      d ∈ (dcAlloc now recvDir).dispatches sha256Hex es → dfileDecodeRst d.2.2 = some r →
      r.transId = t.transId → d.1.trans about = some t → t.phase.terminal = false →
      d.1.trans (!about) = some u → u.phase.terminal = false →
      FailsExactly about d.1 (handleFrame d.2.1 d.2.2 d.1) := by
  intro h
  obtain ⟨⟨d, r, t, u⟩, hlast, hfacts⟩ := Option.map_eq_some_iff.mp (show
    (lastReset (crossingSends 1)).map (fun x => (decide (x.2.1.transId = x.2.2.1.transId),
      x.2.2.1.phase.terminal, x.2.2.2.phase.terminal,
      decide ((handleFrame x.1.2.1 x.1.2.2 x.1.1).phase false = .failed))) =
        some (true, false, false, false) by decide +kernel)
  obtain ⟨hd, hr, ht, hu⟩ := lastReset_spec hlast
  simp only [Prod.mk.injEq, decide_eq_true_eq, decide_eq_false_iff_not] at hfacts
  obtain ⟨hid, hlive, hlive', hkept⟩ := hfacts
  exact hkept (h id 0 _ _ d r false t u hd hr hid ht hlive hu hlive').failed

end HwPhoneLink.DFile
