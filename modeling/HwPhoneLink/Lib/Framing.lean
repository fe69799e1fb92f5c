import HwPhoneLink.Lib.BigEndian

/-!
# Cutting a byte stream into frames

A receiver keeps a buffer, appends what it reads, and handles every complete
frame at the front. `cut` gives the length of the front frame once all of it is
there; the handler is called on the buffer and says whether the loop goes on;
`drain` is the loop.

`Reads` says where a reader of a stream of frames stands. Reading keeps it
whatever the lengths of the reads are (`Reads.feed`), so a property of the
state only has to be kept by the handler, frame by frame.
-/

namespace Framing

open BigEndian

variable {σ : Type*} (cut : Bytes → Option ℕ) (handle : σ → Bytes → σ × Bool)
  (stopped : σ → Bool)

/-- Handle complete frames from the front of the buffer. The first argument
bounds the rounds; the length of the buffer is enough when a frame that the
loop goes on after has a byte. -/
def drain : ℕ → σ → Bytes → σ × Bytes
  | 0, s, buf => (s, buf)
  | n + 1, s, buf =>
      if stopped s then (s, buf)
      else
        match cut buf with
        | none => (s, buf)
        | some k =>
            let r := handle s buf
            if r.2 then drain n r.1 (buf.drop k) else (r.1, buf.drop k)

/-- One read: append it, then handle what is complete. -/
def feed (s : σ × Bytes) (chunk : Bytes) : σ × Bytes :=
  drain cut handle stopped (s.2 ++ chunk).length s.1 (s.2 ++ chunk)

/-- The calls of the handler in `drain`: the state it is called in, and the bytes
that are cut off. -/
def dispatched : ℕ → σ → Bytes → List (σ × Bytes)
  | 0, _, _ => []
  | n + 1, s, buf =>
      if stopped s then []
      else
        match cut buf with
        | none => []
        | some k =>
            let r := handle s buf
            (s, buf.take k) :: if r.2 then dispatched n r.1 (buf.drop k) else []

/-- The calls of the handler in one read. -/
def feedDispatched (s : σ × Bytes) (chunk : Bytes) : List (σ × Bytes) :=
  dispatched cut handle stopped (s.2 ++ chunk).length s.1 (s.2 ++ chunk)

/-- The byte string is one frame: it is cut off whole, not before it is
complete, and the handler does not look past it. -/
structure IsFrame (f : Bytes) : Prop where
  whole : ∀ more, cut (f ++ more) = some f.length
  partial' : ∀ p q, f = p ++ q → q ≠ [] → cut p = none
  local' : ∀ s more, handle s (f ++ more) = handle s f

variable {cut handle stopped}

theorem IsFrame.ne_nil (hnil : cut [] = none) {f : Bytes} (h : IsFrame cut handle f) : f ≠ [] := by
  rintro rfl
  have hwhole := h.whole []
  rw [List.append_nil, hnil] at hwhole
  cases hwhole

/-! ## What the handler keeps, the loop keeps -/

/-- What every call of the handler keeps that meets `ok`, the loop keeps. -/
theorem drain_keeps_where (Inv : σ → Prop) (ok : σ → Bytes → Prop)
    (hkeep : ∀ s buf k, Inv s → stopped s = false → cut buf = some k → ok s (buf.take k) →
      Inv (handle s buf).1) (n : ℕ) :
    ∀ {s : σ} {buf : Bytes}, Inv s → (∀ d ∈ dispatched cut handle stopped n s buf, ok d.1 d.2) →
      Inv (drain cut handle stopped n s buf).1 := by
  induction n with
  | zero => intro s buf h _; exact h
  | succ n ih =>
      intro s buf h hok
      unfold drain
      unfold dispatched at hok
      split
      · exact h
      rename_i hlive
      rw [if_neg hlive] at hok
      rw [Bool.not_eq_true] at hlive
      split
      · exact h
      rename_i k hk
      simp only [hk] at hok
      have hnext := hkeep s buf k h hlive hk (hok (s, buf.take k) (by simp))
      simp only
      split
      · rename_i hgo
        rw [if_pos hgo] at hok
        exact ih hnext fun d hd => hok d (List.mem_cons_of_mem _ hd)
      · exact hnext

theorem feed_keeps_where (Inv : σ → Prop) (ok : σ → Bytes → Prop)
    (hkeep : ∀ s buf k, Inv s → stopped s = false → cut buf = some k → ok s (buf.take k) →
      Inv (handle s buf).1) {s : σ × Bytes} (h : Inv s.1) {chunk : Bytes}
    (hok : ∀ d ∈ feedDispatched cut handle stopped s chunk, ok d.1 d.2) :
    Inv (feed cut handle stopped s chunk).1 :=
  drain_keeps_where Inv ok hkeep _ h hok

theorem feed_keeps (Inv : σ → Prop) (hkeep : ∀ s buf, Inv s → Inv (handle s buf).1)
    {s : σ × Bytes} (h : Inv s.1) (chunk : Bytes) :
    Inv (feed cut handle stopped s chunk).1 :=
  feed_keeps_where Inv (fun _ _ => True) (fun s buf _ hs _ _ _ => hkeep s buf hs) h
    fun _ _ => trivial

/-- **A handler with more state.** When `handle'` does on its state what `handle` does on a
part of it, so does its loop. -/
theorem drain_map {τ : Type*} (π : τ → σ) {handle' : τ → Bytes → τ × Bool} {stopped' : τ → Bool}
    (hstop : ∀ s, stopped' s = stopped (π s))
    (hhandle : ∀ s buf, handle (π s) buf = (π (handle' s buf).1, (handle' s buf).2)) (n : ℕ) :
    ∀ {s : τ} {buf : Bytes}, drain cut handle stopped n (π s) buf =
      (π (drain cut handle' stopped' n s buf).1, (drain cut handle' stopped' n s buf).2) := by
  induction n with
  | zero => intro s buf; rfl
  | succ n ih =>
      intro s buf
      unfold drain
      rw [hstop, hhandle]
      split
      · rfl
      split
      · rfl
      · simp only
        split
        · exact ih
        · rfl

/-- The calls of the handler with more state are those on the part. -/
theorem dispatched_map {τ : Type*} (π : τ → σ) {handle' : τ → Bytes → τ × Bool}
    {stopped' : τ → Bool} (hstop : ∀ s, stopped' s = stopped (π s))
    (hhandle : ∀ s buf, handle (π s) buf = (π (handle' s buf).1, (handle' s buf).2)) (n : ℕ) :
    ∀ {s : τ} {buf : Bytes}, dispatched cut handle stopped n (π s) buf =
      (dispatched cut handle' stopped' n s buf).map fun d => (π d.1, d.2) := by
  induction n with
  | zero => intro s buf; rfl
  | succ n ih =>
      intro s buf
      unfold dispatched
      rw [hstop, hhandle]
      split
      · rfl
      split
      · rfl
      · simp only [List.map_cons, List.cons.injEq, true_and]
        split
        · exact ih
        · rfl

/-! ## Reading a stream of frames -/

/-- A buffer that starts a stream of frames is cut at the end of the first
frame, or not at all. -/
theorem cut_front (hnil : cut [] = none) {buf tail : Bytes} {k : ℕ} (hk : cut buf = some k)
    {frames : List Bytes} (hframes : ∀ f ∈ frames, IsFrame cut handle f)
    (hstream : buf ++ tail = frames.flatten) :
    ∃ f rest more, frames = f :: rest ∧ buf = f ++ more ∧ k = f.length ∧
      more ++ tail = rest.flatten := by
  cases frames with
  | nil =>
      have hbuf : buf = [] := (List.append_eq_nil_iff.mp hstream).1
      rw [hbuf, hnil] at hk
      cases hk
  | cons f rest =>
      have hf := hframes f (by simp)
      rw [List.flatten_cons] at hstream
      rcases List.append_eq_append_iff.mp hstream with ⟨q, hq, -⟩ | ⟨more, hmore, hrest⟩
      · by_cases hempty : q = []
        · subst hempty
          rw [List.append_nil] at hq
          subst hq
          refine ⟨f, rest, [], rfl, (List.append_nil f).symm, ?_, ?_⟩
          · have hwhole := hf.whole []
            rw [List.append_nil, hk] at hwhole
            exact Option.some.inj hwhole
          · simpa using hstream
        · rw [hf.partial' buf q hq hempty] at hk
          cases hk
      · refine ⟨f, rest, more, rfl, hmore, ?_, hrest.symm⟩
        rw [hmore, hf.whole] at hk
        exact (Option.some.inj hk).symm

/-- The reader of a stream: some frames have been handled, which left a state
with `P`, and unless it has stopped, buffer and tail spell the frames to come. -/
def Reads (stopped : σ → Bool) (P : List Bytes → σ → Prop) (frames : List Bytes) (tail : Bytes)
    (s : σ × Bytes) : Prop :=
  ∃ done rest, frames = done ++ rest ∧ P done s.1 ∧
    (stopped s.1 = false → s.2 ++ tail = rest.flatten)

/-- The stream may go on. -/
theorem Reads.append {P : List Bytes → σ → Prop} {frames : List Bytes} {tail : Bytes}
    {s : σ × Bytes} (h : Reads stopped P frames tail s) (more : List Bytes) :
    Reads stopped P (frames ++ more) (tail ++ more.flatten) s := by
  obtain ⟨done, rest, hsplit, hP, hbuf⟩ := h
  refine ⟨done, rest ++ more, by rw [hsplit, List.append_assoc], hP, fun hlive => ?_⟩
  rw [← List.append_assoc, hbuf hlive, List.flatten_append]

/-- The handler keeps `P` on every frame of the stream, and does not leave the
loop without having stopped. -/
def Handles (handle : σ → Bytes → σ × Bool) (stopped : σ → Bool) (P : List Bytes → σ → Prop)
    (frames : List Bytes) : Prop :=
  ∀ done f rest s, frames = done ++ f :: rest → P done s → stopped s = false →
    P (done ++ [f]) (handle s f).1 ∧
      ((handle s f).2 = true ∨ stopped (handle s f).1 = true)

variable {P : List Bytes → σ → Prop} {frames : List Bytes}

theorem Reads.drain (hnil : cut [] = none) (hframes : ∀ f ∈ frames, IsFrame cut handle f)
    (hstep : Handles handle stopped P frames) (n : ℕ) :
    ∀ {s : σ} {buf tail : Bytes}, Reads stopped P frames tail (s, buf) →
      Reads stopped P frames tail (drain cut handle stopped n s buf) := by
  induction n with
  | zero => intro s buf tail h; exact h
  | succ n ih =>
      intro s buf tail h
      unfold Framing.drain
      split
      · exact h
      rename_i hlive
      rw [Bool.not_eq_true] at hlive
      split
      · exact h
      rename_i k hk
      obtain ⟨done, rest, hsplit, hP, hbuf⟩ := h
      have hrest : ∀ f ∈ rest, IsFrame cut handle f := fun f hf =>
        hframes f (hsplit ▸ List.mem_append_right _ hf)
      obtain ⟨f, rest', more, rfl, rfl, rfl, htail⟩ := cut_front hnil hk hrest (hbuf hlive)
      have hlocal : handle s (f ++ more) = handle s f := (hrest f (by simp)).local' s more
      have hdrop : (f ++ more).drop f.length = more := by simp
      obtain ⟨hP', hgo⟩ := hstep done f rest' s hsplit hP hlive
      have hread : Reads stopped P frames tail ((handle s f).1, more) :=
        ⟨done ++ [f], rest', by simp [hsplit], hP', fun _ => htail⟩
      simp only [hlocal, hdrop]
      split
      · exact ih hread
      · exact hread

/-- **Cutting does not matter.** A read of any length keeps `Reads`. -/
theorem Reads.feed (hnil : cut [] = none) (hframes : ∀ f ∈ frames, IsFrame cut handle f)
    (hstep : Handles handle stopped P frames) {s : σ × Bytes} {chunk tail : Bytes}
    (h : Reads stopped P frames (chunk ++ tail) s) :
    Reads stopped P frames tail (feed cut handle stopped s chunk) := by
  apply Reads.drain hnil hframes hstep
  obtain ⟨done, rest, hsplit, hP, hbuf⟩ := h
  exact ⟨done, rest, hsplit, hP, fun hlive => by rw [List.append_assoc]; exact hbuf hlive⟩

/-! ## When everything has been read -/

/-- The loop has nothing left to do. -/
def Drained (cut : Bytes → Option ℕ) (stopped : σ → Bool) (s : σ × Bytes) : Prop :=
  stopped s.1 = true ∨ cut s.2 = none

theorem Reads.drain_drained (hnil : cut [] = none) (hframes : ∀ f ∈ frames, IsFrame cut handle f)
    (hstep : Handles handle stopped P frames) (n : ℕ) :
    ∀ {s : σ} {buf tail : Bytes}, buf.length ≤ n → Reads stopped P frames tail (s, buf) →
      Drained cut stopped (Framing.drain cut handle stopped n s buf) := by
  induction n with
  | zero =>
      intro s buf tail hlen _
      rw [List.length_eq_zero_iff.mp (Nat.le_zero.mp hlen)]
      exact Or.inr hnil
  | succ n ih =>
      intro s buf tail hlen h
      unfold Framing.drain
      split
      · rename_i hstop
        exact Or.inl hstop
      rename_i hlive
      rw [Bool.not_eq_true] at hlive
      split
      · rename_i hcut
        exact Or.inr hcut
      rename_i k hk
      obtain ⟨done, rest, hsplit, hP, hbuf⟩ := h
      have hmem : ∀ f ∈ rest, f ∈ frames := fun f hf => hsplit ▸ List.mem_append_right _ hf
      obtain ⟨f, rest', more, rfl, rfl, rfl, htail⟩ :=
        cut_front hnil hk (fun f hf => hframes f (hmem f hf)) (hbuf hlive)
      have hf : f ∈ frames := hmem f (by simp)
      have hlocal : handle s (f ++ more) = handle s f := (hframes f hf).local' s more
      have hdrop : (f ++ more).drop f.length = more := by simp
      obtain ⟨hP', hgo⟩ := hstep done f rest' s hsplit hP hlive
      have hshorter : more.length ≤ n := by
        have hpos := List.length_pos_iff.mpr ((hframes f hf).ne_nil hnil)
        rw [List.length_append] at hlen
        omega
      simp only [hlocal, hdrop]
      split
      · exact ih hshorter ⟨done ++ [f], rest', by simp [hsplit], hP', fun _ => htail⟩
      · rename_i hleft
        exact Or.inl (hgo.resolve_left hleft)

theorem Reads.feed_drained (hnil : cut [] = none) (hframes : ∀ f ∈ frames, IsFrame cut handle f)
    (hstep : Handles handle stopped P frames) {s : σ × Bytes} {chunk tail : Bytes}
    (h : Reads stopped P frames (chunk ++ tail) s) :
    Drained cut stopped (Framing.feed cut handle stopped s chunk) := by
  obtain ⟨done, rest, hsplit, hP, hbuf⟩ := h
  have hreads : Reads stopped P frames tail (s.1, s.2 ++ chunk) :=
    ⟨done, rest, hsplit, hP, fun hlive => by rw [List.append_assoc]; exact hbuf hlive⟩
  exact Reads.drain_drained hnil hframes hstep _ (Nat.le_refl _) hreads

/-- A sequence of reads. -/
theorem Reads.feedAll (hnil : cut [] = none) (hframes : ∀ f ∈ frames, IsFrame cut handle f)
    (hstep : Handles handle stopped P frames) (chunks : List Bytes) :
    ∀ {s : σ × Bytes} {tail : Bytes}, Reads stopped P frames (chunks.flatten ++ tail) s →
      Drained cut stopped s →
      Reads stopped P frames tail (chunks.foldl (Framing.feed cut handle stopped) s) ∧
        Drained cut stopped (chunks.foldl (Framing.feed cut handle stopped) s) := by
  induction chunks with
  | nil => intro s tail h hd; exact ⟨h, hd⟩
  | cons chunk chunks ih =>
      intro s tail h _
      rw [List.flatten_cons, List.append_assoc] at h
      exact ih (Reads.feed hnil hframes hstep h) (Reads.feed_drained hnil hframes hstep h)

/-- **The end of the stream.** Once all of it has been read, all frames have been
handled, unless the reader has stopped. -/
theorem Reads.all (hframes : ∀ f ∈ frames, IsFrame cut handle f) {s : σ × Bytes}
    (h : Reads stopped P frames [] s) (hdrained : Drained cut stopped s) :
    ∃ done, P done s.1 ∧ (stopped s.1 = true ∨ done = frames) := by
  obtain ⟨done, rest, hsplit, hP, hbuf⟩ := h
  refine ⟨done, hP, ?_⟩
  rcases hdrained with hstop | hcut
  · exact Or.inl hstop
  rcases hlive : stopped s.1 with _ | _
  · right
    cases rest with
    | nil => rw [hsplit, List.append_nil]
    | cons f rest =>
        have hspell := hbuf hlive
        rw [List.append_nil, List.flatten_cons] at hspell
        have hf : f ∈ frames := by simp [hsplit]
        rw [hspell, (hframes f hf).whole] at hcut
        cases hcut
  · exact Or.inl rfl

end Framing
