import HwPhoneLink.Stream.File

/-!
# The reassembly loop

The loop of `sf_on_data` round by round. The availability test adds four to the length
prefix in 32 bits, `frame_total` is the sum in 64 bits, and the length that is removed is
`frame_total` cut to 32 bits again. A prefix in the last four values of the range passes the
test with any buffer.
-/

namespace HwPhoneLink.Stream

open BigEndian HwPhoneLink.Vtp

/-- The first prefix that four bytes more wrap around. -/
def sfWrapFrom : ℕ := 2 ^ 32 - 4

/-- One call of `sf_process_frame`: the buffer before it, `frame_total`, how many bytes
are removed after it, and the buffer then. -/
structure SfRound where
  before : Bytes
  frameTotal : ℕ
  removed : ℕ
  after : Bytes
deriving DecidableEq, Repr

/-- The frame is all there, and exactly its bytes are removed from the front. -/
structure SfRound.Sound (r : SfRound) : Prop where
  available : r.frameTotal ≤ r.before.length
  removed_eq : r.removed = r.frameTotal
  after_eq : r.after = r.before.drop r.frameTotal

/-- The length prefix at the front does not wrap the test. -/
def SfRound.Prefixed (r : SfRound) : Prop := (u32At r.before 0).toNat < sfWrapFrom

section Loop

variable (sha256Hex : Bytes → Bytes) (aead : Aead) (io : SfIo)

/-- The loop for at most `fuel` rounds, with its calls; `none` when it has not ended. -/
def sfLoop : ℕ → StreamFile → Bytes → Option (List SfRound × StreamFile × Bytes)
  | 0, _, _ => none
  | fuel + 1, sf, buf =>
      if sfStopped sf then some ([], sf, buf)
      else if buf.length < 4 then some ([], sf, buf)
      else
        let n := (u32At buf 0).toNat
        if buf.length < (4 + n) % 2 ^ 32 then some ([], sf, buf)
        else
          let frameTotal := 4 + n
          let r := sfProcessFrame sha256Hex aead io sf buf frameTotal
          let rest := buf.drop (frameTotal % 2 ^ 32)
          let round : SfRound := ⟨buf, frameTotal, frameTotal % 2 ^ 32, rest⟩
          if r.2 then
            (sfLoop fuel r.1 rest).map fun (rounds, out) => (round :: rounds, out)
          else some ([round], r.1, rest)

variable {sha256Hex aead io}

/-- A round that goes on had a complete frame of at least the fixed parts. -/
theorem sfProcessFrame_goes_on {sf : StreamFile} {buf : Bytes} {n : ℕ} (hn : n < 2 ^ 32)
    (hlive : sfStopped sf = false)
    (h : (sfProcessFrame sha256Hex aead io sf buf (4 + n)).2 = true) :
    44 ≤ n ∧ n < sfWrapFrom := by
  simp only [sfStopped, Bool.or_eq_false_iff, decide_eq_false_iff_not] at hlive
  have hstate : ¬ (sf.rxState = .done ∨ sf.rxState = .failed) := by
    rintro (h | h)
    · exact hlive.2 h
    · exact hlive.1 h
  unfold sfProcessFrame at h
  rw [if_neg hstate] at h
  cases hparse : vtpParseCommonFrame aead buf (4 + n) sf.key sfVtpChunk with
  | none =>
      rw [hparse] at h
      cases h
  | some f =>
      unfold vtpParseCommonFrame at hparse
      split at hparse
      · cases hparse
      rename_i hshort
      dsimp only at hparse
      split at hparse
      · cases hparse
      split at hparse
      · cases hparse
      rename_i hmatch
      have hword := (u32At buf 0).toNat_lt
      simp only [vtpNonceLen, vtpHeaderLen, vtpTagLen] at hshort
      rw [sfWrapFrom]
      omega

/-- What the loop does in a round, whatever the prefix is. -/
structure SfRound.Made (r : SfRound) : Prop where
  total_eq : r.frameTotal = 4 + (u32At r.before 0).toNat
  tested : r.frameTotal % 2 ^ 32 ≤ r.before.length
  removed_eq : r.removed = r.frameTotal % 2 ^ 32
  after_eq : r.after = r.before.drop r.removed

/-- **A round is sound exactly when its prefix does not wrap the test.** -/
theorem SfRound.Made.sound_iff {r : SfRound} (h : r.Made) (hlen : r.before.length < 2 ^ 32) :
    r.Sound ↔ r.Prefixed := by
  have htotal := h.total_eq
  rw [SfRound.Prefixed, sfWrapFrom]
  constructor
  · intro hs
    have := hs.available
    omega
  · intro hprefix
    have hsame : r.frameTotal % 2 ^ 32 = r.frameTotal := Nat.mod_eq_of_lt (by omega)
    have hremoved := h.removed_eq
    have htested := h.tested
    rw [hsame] at hremoved htested
    refine ⟨htested, hremoved, ?_⟩
    rw [h.after_eq, hremoved]

theorem sfCut_of_lt {buf : Bytes} (h : buf.length < 4) : sfCut buf = none := if_pos h

theorem sfCut_eq {buf : Bytes} (h : ¬ buf.length < 4) :
    sfCut buf = if buf.length < (4 + (u32At buf 0).toNat) % 2 ^ 32 then none
      else some ((4 + (u32At buf 0).toNat) % 2 ^ 32) := if_neg h

/-- A round that goes on has taken bytes off. -/
theorem sfHandle_shrinks {sf : StreamFile} {buf : Bytes} {k : ℕ} (hstop : ¬ sfStopped sf = true)
    (hcut : sfCut buf = some k) (h : (sfHandle sha256Hex aead io sf buf).2 = true) :
    (buf.drop k).length < buf.length := by
  have hshort : ¬ buf.length < 4 := by
    intro hshort
    rw [sfCut_of_lt hshort] at hcut
    cases hcut
  obtain ⟨hmin, hmax⟩ := sfProcessFrame_goes_on (u32At buf 0).toNat_lt (by simpa using hstop) h
  rw [sfCut_eq hshort] at hcut
  split at hcut
  · cases hcut
  cases hcut
  rw [sfWrapFrom] at hmax
  rw [List.length_drop]
  omega

variable (sha256Hex aead io)

/-- No frame is taken off: the loop and the drain leave everything as it is. -/
theorem sfLoop_idle {sf : StreamFile} {buf : Bytes}
    (h : sfStopped sf = true ∨ sfCut buf = none) :
    (∀ fuel, sfLoop sha256Hex aead io (fuel + 1) sf buf = some ([], sf, buf)) ∧
      ∀ n, Framing.drain sfCut (sfHandle sha256Hex aead io) sfStopped n sf buf = (sf, buf) := by
  constructor
  · intro fuel
    rw [sfLoop]
    by_cases hstop : sfStopped sf = true
    · rw [if_pos hstop]
    have hcut := h.resolve_left hstop
    rw [if_neg hstop]
    by_cases hshort : buf.length < 4
    · rw [if_pos hshort]
    rw [if_neg hshort]
    rw [sfCut_eq hshort] at hcut
    split at hcut
    · rename_i hpart
      exact if_pos hpart
    · cases hcut
  · intro n
    cases n with
    | zero => rfl
    | succ n =>
        rw [Framing.drain]
        by_cases hstop : sfStopped sf = true
        · rw [if_pos hstop]
        · rw [if_neg hstop, h.resolve_left hstop]

/-- A frame is taken off: one round of the loop and of the drain. -/
theorem sfLoop_round {sf : StreamFile} {buf : Bytes} {k : ℕ} (hstop : ¬ sfStopped sf = true)
    (hcut : sfCut buf = some k) :
    ∃ r round, r = sfHandle sha256Hex aead io sf buf ∧ round.Made ∧ round.before = buf ∧
      (∀ fuel, sfLoop sha256Hex aead io (fuel + 1) sf buf =
        if r.2 then
          (sfLoop sha256Hex aead io fuel r.1 (buf.drop k)).map fun (rounds, out) =>
            (round :: rounds, out)
        else some ([round], r.1, buf.drop k)) ∧
      ∀ n, Framing.drain sfCut (sfHandle sha256Hex aead io) sfStopped (n + 1) sf buf =
        if r.2 then Framing.drain sfCut (sfHandle sha256Hex aead io) sfStopped n r.1 (buf.drop k)
        else (r.1, buf.drop k) := by
  have hshort : ¬ buf.length < 4 := by
    intro hshort
    rw [sfCut_of_lt hshort] at hcut
    cases hcut
  rw [sfCut_eq hshort] at hcut
  split at hcut
  · cases hcut
  rename_i hpart
  cases hcut
  refine ⟨_, ⟨buf, 4 + (u32At buf 0).toNat, (4 + (u32At buf 0).toNat) % 2 ^ 32,
    buf.drop ((4 + (u32At buf 0).toNat) % 2 ^ 32)⟩, rfl, ⟨rfl, Nat.le_of_not_lt hpart, rfl, rfl⟩,
    rfl, ?_, ?_⟩
  · intro fuel
    rw [sfLoop, if_neg hstop, if_neg hshort]
    exact if_neg hpart
  · intro n
    rw [Framing.drain, if_neg hstop, sfCut_eq hshort, if_neg hpart]

/-- **The loop ends**, within as many rounds as the buffer has bytes and one more, where
`Framing.drain` ends. -/
theorem sfLoop_spec (fuel : ℕ) : ∀ (sf : StreamFile) (buf : Bytes), buf.length < fuel →
    ∃ rounds sf' rest,
      (∀ more, sfLoop sha256Hex aead io (fuel + more) sf buf = some (rounds, sf', rest)) ∧
      (∀ n ≥ buf.length, Framing.drain sfCut (sfHandle sha256Hex aead io) sfStopped n sf buf =
        (sf', rest)) ∧
      ∀ r ∈ rounds, r.Made ∧ r.before.length ≤ buf.length := by
  induction fuel with
  | zero =>
      intro sf buf hfuel
      exact absurd hfuel (Nat.not_lt_zero _)
  | succ fuel ih =>
      intro sf buf hfuel
      by_cases hidle : sfStopped sf = true ∨ sfCut buf = none
      · obtain ⟨hloop, hdrain⟩ := sfLoop_idle sha256Hex aead io hidle
        refine ⟨[], sf, buf, ?_, fun n _ => hdrain n, by simp⟩
        intro more
        rw [Nat.add_right_comm]
        exact hloop _
      obtain ⟨hstop, hsome⟩ := not_or.mp hidle
      obtain ⟨k, hcut⟩ := Option.ne_none_iff_exists'.mp hsome
      obtain ⟨r, round, hr, hmade, hbefore, hloop, hdrain⟩ :=
        sfLoop_round sha256Hex aead io hstop hcut
      have hlong : 4 ≤ buf.length := by
        by_contra hshort
        rw [sfCut_of_lt (by omega)] at hcut
        cases hcut
      have hround : round.Made ∧ round.before.length ≤ buf.length :=
        ⟨hmade, Nat.le_of_eq (congrArg List.length hbefore)⟩
      by_cases hgo : r.2 = true
      · have hshrinks : (buf.drop k).length < buf.length :=
          sfHandle_shrinks hstop hcut (hr ▸ hgo)
        obtain ⟨rounds, sf', out, hloop', hdrain', hrounds⟩ := ih r.1 (buf.drop k) (by omega)
        refine ⟨round :: rounds, sf', out, ?_, ?_, ?_⟩
        · intro more
          rw [Nat.add_right_comm, hloop, if_pos hgo, hloop' more]
          rfl
        · intro n hn
          obtain ⟨n, rfl⟩ := Nat.exists_eq_succ_of_ne_zero (n := n) (by omega)
          rw [hdrain, if_pos hgo]
          exact hdrain' n (by omega)
        · rintro round' (_ | ⟨_, hround'⟩)
          · exact hround
          · obtain ⟨hmade', hle⟩ := hrounds round' hround'
            exact ⟨hmade', by omega⟩
      · refine ⟨[round], r.1, buf.drop k, ?_, ?_, ?_⟩
        · intro more
          rw [Nat.add_right_comm, hloop, if_neg hgo]
        · intro n hn
          obtain ⟨n, rfl⟩ := Nat.exists_eq_succ_of_ne_zero (n := n) (by omega)
          rw [hdrain, if_neg hgo]
        · intro round' hround'
          rw [List.mem_singleton.mp hround']
          exact hround

/-- **The rounds of a call.** The loop of `sf_on_data` ends for every buffer. Every call of
`sf_process_frame` in it gets a frame that is all there, and exactly its bytes are removed,
if and only if no round starts at one of the last four length prefixes. -/
theorem sfOnData_rounds (sf : StreamFile) (data : Bytes) (hopen : sf.closed = false)
    (hlen : (sf.rxbuf ++ data).length < 2 ^ 32) :
    ∃ rounds sf' rest,
      (∀ fuel > (sf.rxbuf ++ data).length,
        sfLoop sha256Hex aead io fuel sf (sf.rxbuf ++ data) = some (rounds, sf', rest)) ∧
      sfOnData sha256Hex aead io sf data = { sf' with rxbuf := rest } ∧
      ((∀ r ∈ rounds, r.Sound) ↔ ∀ r ∈ rounds, r.Prefixed) := by
  obtain ⟨rounds, sf', rest, hloop, hdrain, hrounds⟩ := sfLoop_spec sha256Hex aead io
    ((sf.rxbuf ++ data).length + 1) sf (sf.rxbuf ++ data) (Nat.lt_succ_self _)
  refine ⟨rounds, sf', rest, ?_, ?_, ?_⟩
  · intro fuel hfuel
    have hmore := hloop (fuel - ((sf.rxbuf ++ data).length + 1))
    rwa [Nat.add_sub_cancel' hfuel] at hmore
  · rw [sfOnData, hopen, Framing.feed, hdrain _ (le_refl _)]
    rfl
  · refine forall₂_congr fun r hr => ?_
    obtain ⟨hmade, hle⟩ := hrounds r hr
    exact hmade.sound_iff (by omega)

end Loop

/-- No cipher at all: nothing is sealed and nothing opens. -/
def noAead : Aead := Aead.ofAnswers [] (by simp) (by simp)

/-- Four bytes that wrap: the session fails, nothing is removed. -/
theorem sfOnData_rounds_wrap :
    ∃ rounds sf' rest,
      (∀ fuel > 4, sfLoop id noAead ⟨true, fun _ n => n, true⟩ fuel (streamFileNew [])
        [255, 255, 255, 252] = some (rounds, sf', rest)) ∧
      sfOnData id noAead ⟨true, fun _ n => n, true⟩ (streamFileNew []) [255, 255, 255, 252] =
        { sf' with rxbuf := rest } ∧
      ((∀ r ∈ rounds, r.Sound) ↔ ∀ r ∈ rounds, r.Prefixed) :=
  sfOnData_rounds id noAead _ (streamFileNew []) [255, 255, 255, 252] rfl (by decide)

/-- **A wrapping prefix reaches `sf_process_frame`** with four bytes in the buffer. -/
theorem not_sfOnData_rounds :
    ¬ ∀ (sf : StreamFile) (buf : Bytes) (fuel : ℕ) (rounds : List SfRound) (sf' : StreamFile)
      (rest : Bytes), sfLoop id noAead ⟨true, fun _ n => n, true⟩ fuel sf buf =
        some (rounds, sf', rest) → ∀ r ∈ rounds, r.Sound := by
  intro h
  have hloop : sfLoop id noAead ⟨true, fun _ n => n, true⟩ 1 (streamFileNew [])
      [255, 255, 255, 252] =
        some ([⟨[255, 255, 255, 252], 2 ^ 32, 0, [255, 255, 255, 252]⟩], streamFileNew [],
          [255, 255, 255, 252]) := rfl
  have hsound := h _ _ _ _ _ _ hloop _ (List.mem_singleton.mpr rfl)
  exact absurd hsound.available (by decide)

end HwPhoneLink.Stream
