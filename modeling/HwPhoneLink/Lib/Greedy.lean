import HwPhoneLink.Lib.Framing

/-!
# The greedy parse of a stream

`parse cut` cuts frames off the front of a byte string as long as `cut` finds
one. It stops where no frame is complete, or at a frame of length zero, which
stands for bytes that can never become a frame. When `cut` does not change its
mind about a frame, parsing a stream in pieces gives the parse of the whole
(`parse_append`), and a reader in the sense of `Framing.drain` handles just the
frames of the parse (`drain_parse`).
-/

namespace Framing

open BigEndian

variable {σ : Type*} {cut : Bytes → Option ℕ} {handle : σ → Bytes → σ × Bool}
  {stopped : σ → Bool}

/-- A frame that is found lies in the buffer, and stays with more bytes behind it. -/
structure StableCut (cut : Bytes → Option ℕ) : Prop where
  le : ∀ {buf k}, cut buf = some k → k ≤ buf.length
  more : ∀ {buf k}, cut buf = some k → ∀ more, cut (buf ++ more) = some k

/-- At most `n` frames from the front, and what is left. -/
def parseUpTo (cut : Bytes → Option ℕ) : ℕ → Bytes → List Bytes × Bytes
  | 0, buf => ([], buf)
  | n + 1, buf =>
      match cut buf with
      | none => ([], buf)
      | some 0 => ([], buf)
      | some (k + 1) =>
          let r := parseUpTo cut n (buf.drop (k + 1))
          (buf.take (k + 1) :: r.1, r.2)

/-- The frames of a byte string, and what is left. -/
def parse (cut : Bytes → Option ℕ) (buf : Bytes) : List Bytes × Bytes :=
  parseUpTo cut buf.length buf

/-! ## Equations -/

theorem parseUpTo_stop {buf : Bytes} (h : cut buf = none ∨ cut buf = some 0) (n : ℕ) :
    parseUpTo cut n buf = ([], buf) := by
  cases n with
  | zero => rfl
  | succ n => rcases h with h | h <;> simp only [parseUpTo, h]

theorem parseUpTo_cons {buf : Bytes} {k : ℕ} (h : cut buf = some k) (hk : 0 < k) (n : ℕ) :
    parseUpTo cut (n + 1) buf =
      (buf.take k :: (parseUpTo cut n (buf.drop k)).1, (parseUpTo cut n (buf.drop k)).2) := by
  obtain ⟨j, rfl⟩ := Nat.exists_eq_succ_of_ne_zero (Nat.pos_iff_ne_zero.mp hk)
  simp only [parseUpTo, h]

theorem parseUpTo_enough (hcut : StableCut cut) (n : ℕ) : ∀ {m : ℕ} {buf : Bytes},
    buf.length ≤ n → buf.length ≤ m → parseUpTo cut n buf = parseUpTo cut m buf := by
  induction n with
  | zero =>
      intro m buf hn _
      have hnil : buf = [] := List.length_eq_zero_iff.mp (Nat.le_zero.mp hn)
      subst hnil
      have hstop : cut [] = none ∨ cut [] = some 0 := by
        rcases h : cut [] with _ | k
        · exact Or.inl rfl
        · exact Or.inr (congrArg some (Nat.le_zero.mp (hcut.le h)))
      rw [parseUpTo_stop hstop, parseUpTo_stop hstop]
  | succ n ih =>
      intro m buf hn hm
      rcases h : cut buf with _ | k
      · rw [parseUpTo_stop (Or.inl h), parseUpTo_stop (Or.inl h)]
      rcases Nat.eq_zero_or_pos k with rfl | hk
      · rw [parseUpTo_stop (Or.inr h), parseUpTo_stop (Or.inr h)]
      have hle := hcut.le h
      obtain ⟨m, rfl⟩ := Nat.exists_eq_succ_of_ne_zero (n := m) (by omega)
      rw [parseUpTo_cons h hk, parseUpTo_cons h hk,
        ih (m := m) (by rw [List.length_drop]; omega) (by rw [List.length_drop]; omega)]

theorem parse_stop {buf : Bytes} (h : cut buf = none ∨ cut buf = some 0) :
    parse cut buf = ([], buf) :=
  parseUpTo_stop h _

theorem parse_cons (hcut : StableCut cut) {buf : Bytes} {k : ℕ} (h : cut buf = some k)
    (hk : 0 < k) :
    parse cut buf = (buf.take k :: (parse cut (buf.drop k)).1, (parse cut (buf.drop k)).2) := by
  have hle := hcut.le h
  have hrest : parseUpTo cut (buf.length - 1) (buf.drop k) = parse cut (buf.drop k) :=
    parseUpTo_enough hcut _ (by rw [List.length_drop]; omega) (Nat.le_refl _)
  have hlen : buf.length = buf.length - 1 + 1 := by omega
  rw [parse, hlen, parseUpTo_cons h hk, hrest]

/-- Frames are taken off one by one until none is left. -/
theorem parse_induction (hcut : StableCut cut) {motive : Bytes → Prop}
    (stop : ∀ buf, cut buf = none ∨ cut buf = some 0 → motive buf)
    (cons : ∀ buf k, cut buf = some k → 0 < k → motive (buf.drop k) → motive buf) (buf : Bytes) :
    motive buf := by
  induction hlen : buf.length using Nat.strongRecOn generalizing buf with
  | _ n ih =>
      rcases h : cut buf with _ | k
      · exact stop buf (Or.inl h)
      rcases Nat.eq_zero_or_pos k with rfl | hk
      · exact stop buf (Or.inr h)
      · have hle := hcut.le h
        exact cons buf k h hk (ih _ (by rw [List.length_drop]; omega) _ rfl)

/-! ## Facts about a parse -/

/-- The frames and the rest are the bytes. -/
theorem parse_flatten (hcut : StableCut cut) (buf : Bytes) :
    (parse cut buf).1.flatten ++ (parse cut buf).2 = buf := by
  induction buf using parse_induction hcut with
  | stop buf h => simp [parse_stop h]
  | cons buf k h hk ih =>
      rw [parse_cons hcut h hk, List.flatten_cons, List.append_assoc, ih, List.take_append_drop]

/-- What is left starts with no frame. -/
theorem parse_rest (hcut : StableCut cut) (buf : Bytes) :
    cut (parse cut buf).2 = none ∨ cut (parse cut buf).2 = some 0 := by
  induction buf using parse_induction hcut with
  | stop buf h => rwa [parse_stop h]
  | cons buf k h hk ih => rwa [parse_cons hcut h hk]

/-- **A stream may be parsed in pieces.** -/
theorem parse_append (hcut : StableCut cut) (more buf : Bytes) :
    parse cut (buf ++ more) = ((parse cut buf).1 ++ (parse cut ((parse cut buf).2 ++ more)).1,
      (parse cut ((parse cut buf).2 ++ more)).2) := by
  induction buf using parse_induction hcut with
  | stop buf h => simp [parse_stop h]
  | cons buf k h hk ih =>
      have hdrop : (buf ++ more).drop k = buf.drop k ++ more :=
        List.drop_append_of_le_length (hcut.le h)
      have htake : (buf ++ more).take k = buf.take k :=
        List.take_append_of_le_length (hcut.le h)
      rw [parse_cons hcut (hcut.more h more) hk, parse_cons hcut h hk, hdrop, htake, ih]
      rfl

/-! ## The reader -/

/-- The handler looks at its frame only, goes on unless it has stopped, and gives up at
bytes that are no frame. -/
structure FrameHandler (cut : Bytes → Option ℕ) (handle : σ → Bytes → σ × Bool)
    (stopped : σ → Bool) : Prop where
  front : ∀ s buf k, cut buf = some k → 0 < k → handle s buf = handle s (buf.take k)
  goes : ∀ s buf k, cut buf = some k → 0 < k → (handle s buf).2 = !stopped (handle s buf).1
  gives : ∀ s buf, cut buf = some 0 → (handle s buf).2 = false ∧ stopped (handle s buf).1 = true

/-- The frames among the calls of the handler. -/
def framesOf (calls : List (σ × Bytes)) : List (σ × Bytes) := calls.filter fun d => !d.2.isEmpty

/-- A frame among the calls has been cut off a buffer. -/
theorem framesOf_dispatched (n : ℕ) : ∀ {s : σ} {buf : Bytes} {d : σ × Bytes},
    d ∈ framesOf (dispatched cut handle stopped n s buf) →
      ∃ buf' k, cut buf' = some k ∧ 0 < k ∧ d.2 = buf'.take k := by
  induction n with
  | zero => intro s buf d hd; cases hd
  | succ n ih =>
      intro s buf d hd
      obtain ⟨hcall, hne⟩ := List.mem_filter.mp hd
      unfold dispatched at hcall
      split at hcall
      · cases hcall
      split at hcall
      · cases hcall
      rename_i k hk
      rcases List.mem_cons.mp hcall with rfl | hcall
      · refine ⟨buf, k, hk, ?_, rfl⟩
        apply Nat.pos_of_ne_zero
        rintro rfl
        cases hne
      · split at hcall
        · exact ih (List.mem_filter.mpr ⟨hcall, hne⟩)
        · cases hcall

/-- The loop ends by itself: the reader has stopped, or no frame is complete. -/
theorem drain_ends (hcut : StableCut cut) (hh : FrameHandler cut handle stopped) (n : ℕ) :
    ∀ {s : σ} {buf : Bytes}, buf.length ≤ n → cut [] = none →
      Drained cut stopped (drain cut handle stopped n s buf) := by
  induction n with
  | zero =>
      intro s buf hn hnil
      rw [List.length_eq_zero_iff.mp (Nat.le_zero.mp hn)]
      exact Or.inr hnil
  | succ n ih =>
      intro s buf hn hnil
      unfold drain
      split
      · rename_i hstop
        exact Or.inl hstop
      split
      · rename_i hnone
        exact Or.inr hnone
      rename_i k hk
      rcases Nat.eq_zero_or_pos k with rfl | hpos
      · obtain ⟨hgive, hstop⟩ := hh.gives s buf hk
        simp only
        rw [hgive, if_neg Bool.false_ne_true]
        exact Or.inl hstop
      · simp only
        split
        · have hle := hcut.le hk
          exact ih (by rw [List.length_drop]; omega) hnil
        · rename_i hleft
          have hgoes := hh.goes s buf k hk hpos
          rw [Bool.not_eq_true] at hleft
          rw [hleft] at hgoes
          exact Or.inl (by simpa using hgoes.symm)

/-- **The reader handles the frames of the parse**, and is told at the end when what is left
is no frame. -/
theorem drain_parse (hcut : StableCut cut) (hh : FrameHandler cut handle stopped)
    (hnil : cut [] = none) (n : ℕ) :
    ∀ {s : σ} {buf : Bytes}, buf.length ≤ n → stopped s = false →
      (∀ d ∈ framesOf (dispatched cut handle stopped n s buf),
        stopped (handle d.1 d.2).1 = false) →
      (framesOf (dispatched cut handle stopped n s buf)).map Prod.snd = (parse cut buf).1 ∧
      ∃ s', stopped s' = false ∧
        drain cut handle stopped n s buf =
          (if cut (parse cut buf).2 = none then s' else (handle s' (parse cut buf).2).1,
            (parse cut buf).2) := by
  induction n with
  | zero =>
      intro s buf hn hs _
      have hbuf : buf = [] := List.length_eq_zero_iff.mp (Nat.le_zero.mp hn)
      subst hbuf
      rw [parse_stop (Or.inl hnil)]
      exact ⟨rfl, s, hs, by rw [if_pos hnil]; rfl⟩
  | succ n ih =>
      intro s buf hn hs hkeep
      rcases hk : cut buf with _ | k
      · rw [parse_stop (Or.inl hk)]
        refine ⟨?_, s, hs, ?_⟩
        · simp only [dispatched, hs, hk, framesOf, Bool.false_eq_true, if_false, List.filter_nil,
            List.map_nil]
        · simp only [drain, hs, hk, Bool.false_eq_true, if_false, if_true]
      rcases Nat.eq_zero_or_pos k with rfl | hpos
      · obtain ⟨hgive, -⟩ := hh.gives s buf hk
        rw [parse_stop (Or.inr hk)]
        refine ⟨?_, s, hs, ?_⟩
        · simp [dispatched, hs, hk, hgive, framesOf]
        · simp [drain, hs, hk, hgive]
      · have hle := hcut.le hk
        have hlocal := hh.front s buf k hk hpos
        have hne : (buf.take k).isEmpty = false := by
          rw [List.isEmpty_eq_false_iff, ← List.length_pos_iff, List.length_take]
          omega
        rw [parse_cons hcut hk hpos]
        -- the frame goes to the handler, which does not stop at it
        have hopen : stopped (handle s buf).1 = false := by
          rw [hlocal]
          apply hkeep (s, buf.take k)
          simp [dispatched, hs, hk, framesOf, hne]
        have hgo : (handle s buf).2 = true := by rw [hh.goes s buf k hk hpos, hopen]; rfl
        have hcalls : dispatched cut handle stopped (n + 1) s buf = (s, buf.take k) ::
            dispatched cut handle stopped n (handle s buf).1 (buf.drop k) := by
          simp [dispatched, hs, hk, hgo]
        have hframes : framesOf (dispatched cut handle stopped (n + 1) s buf) = (s, buf.take k) ::
            framesOf (dispatched cut handle stopped n (handle s buf).1 (buf.drop k)) := by
          rw [hcalls, framesOf, List.filter_cons_of_pos (by rw [hne]; rfl)]
          rfl
        have hdrain : drain cut handle stopped (n + 1) s buf =
            drain cut handle stopped n (handle s buf).1 (buf.drop k) := by
          simp [drain, hs, hk, hgo]
        rw [hframes] at hkeep ⊢
        obtain ⟨hrest, s', hs', hend⟩ := ih (by rw [List.length_drop]; omega) hopen
          fun d hd => hkeep d (List.mem_cons_of_mem _ hd)
        refine ⟨?_, s', hs', ?_⟩
        · rw [List.map_cons, hrest]
        · rw [hdrain, hend]

/-! ## A stream that is only partly there -/

/-- More bytes give more frames. -/
theorem parse_front (hcut : StableCut cut) {buf buf' : Bytes} (h : buf <+: buf') :
    (parse cut buf).1 <+: (parse cut buf').1 := by
  obtain ⟨more, rfl⟩ := h
  rw [parse_append hcut]
  exact List.prefix_append _ _

/-- Whole frames are parsed one by one, then what comes behind them. -/
theorem parse_frames (hcut : StableCut cut) {frames : List Bytes} (rest : Bytes)
    (hframes : ∀ f ∈ frames, f ≠ [] ∧ cut f = some f.length) :
    (parse cut (frames.flatten ++ rest)).1 = frames ++ (parse cut rest).1 := by
  induction frames with
  | nil => rfl
  | cons f fs ih =>
      obtain ⟨hne, hf⟩ := hframes f List.mem_cons_self
      have hfront : cut (f ++ (fs.flatten ++ rest)) = some f.length := hcut.more hf _
      rw [List.flatten_cons, List.append_assoc,
        parse_cons hcut hfront (List.length_pos_iff.mpr hne), List.take_left, List.drop_left,
        ih fun g hg => hframes g (List.mem_cons_of_mem f hg), List.cons_append]

/-- The frames that a reader handles are the first of the parse, all of them unless it has
stopped. -/
theorem dispatched_parse (hcut : StableCut cut) (hh : FrameHandler cut handle stopped)
    (n : ℕ) : ∀ {s : σ} {buf : Bytes}, buf.length ≤ n →
      (framesOf (dispatched cut handle stopped n s buf)).map Prod.snd <+: (parse cut buf).1 ∧
      (stopped (drain cut handle stopped n s buf).1 = false →
        (framesOf (dispatched cut handle stopped n s buf)).map Prod.snd = (parse cut buf).1 ∧
          (drain cut handle stopped n s buf).2 = (parse cut buf).2) := by
  induction n with
  | zero =>
      intro s buf hn
      obtain rfl := List.length_eq_zero_iff.mp (Nat.le_zero.mp hn)
      exact ⟨List.nil_prefix, fun _ => ⟨rfl, rfl⟩⟩
  | succ n ih =>
      intro s buf hn
      unfold dispatched drain
      by_cases hs : stopped s = true
      · rw [if_pos hs, if_pos hs]
        refine ⟨List.nil_prefix, fun hopen => ?_⟩
        rw [hs] at hopen
        cases hopen
      rw [if_neg hs, if_neg hs]
      rcases hk : cut buf with _ | k
      · rw [parse_stop (Or.inl hk)]
        exact ⟨List.nil_prefix, fun _ => ⟨rfl, rfl⟩⟩
      rcases Nat.eq_zero_or_pos k with rfl | hpos
      · obtain ⟨hgive, hstop⟩ := hh.gives s buf hk
        simp only [hgive, Bool.false_eq_true, if_false]
        refine ⟨List.nil_prefix, fun hopen => ?_⟩
        rw [hstop] at hopen
        cases hopen
      have hle := hcut.le hk
      have hne : (buf.take k).isEmpty = false := by
        rw [List.isEmpty_eq_false_iff, ← List.length_pos_iff, List.length_take]
        omega
      have hframes : ∀ calls : List (σ × Bytes),
          (framesOf ((s, buf.take k) :: calls)).map Prod.snd =
            buf.take k :: (framesOf calls).map Prod.snd := by
        intro calls
        rw [framesOf, List.filter_cons_of_pos (by rw [hne]; rfl), List.map_cons]
        rfl
      simp only [hframes, parse_cons hcut hk hpos]
      split
      · obtain ⟨hpre, hall⟩ := @ih (handle s buf).1 (buf.drop k)
          (by rw [List.length_drop]; omega)
        refine ⟨List.cons_prefix_cons.mpr ⟨rfl, hpre⟩, fun hopen => ?_⟩
        obtain ⟨hmap, hrest⟩ := hall hopen
        exact ⟨by rw [hmap], hrest⟩
      · rename_i hleft
        refine ⟨List.cons_prefix_cons.mpr ⟨rfl, List.nil_prefix⟩, fun hopen => ?_⟩
        rw [Bool.not_eq_true, hh.goes s buf k hk hpos, hopen] at hleft
        cases hleft

end Framing
