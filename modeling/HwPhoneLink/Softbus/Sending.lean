import HwPhoneLink.Softbus.Session
import Mathlib.Data.List.Induction

/-!
# What a session puts on the wire

`softbus_session_send` under the write mutex. The counter advances before the frame is packed and
written, and a session goes on after a failure, so a frame that fails leaves a gap, and one that
is written in part has the next frame in its middle.
-/

namespace HwPhoneLink.Softbus

open BigEndian

/-- The buffer of a frame: the smallest frame, the payload and some slack. -/
def sessionWireCap : ℕ := softbusFrameMinSize + softbusFrameMaxPayload + 64

/-- A call: whether the session runs, the arguments, and how many bytes the stream takes
before `g_output_stream_write_all` fails. -/
structure SessionSend where
  running : Bool
  data : Option Bytes
  len : ℕ
  data_length : ∀ b ∈ data, b.length = len
  accepted : ℕ

/-- `writes` is a history: the frames that were packed, with the bytes of each that were
written. -/
structure SessionOut where
  seq : UInt32
  writes : List (SoftbusFrame × Bytes)

/-- `error` holds the texts of the session, and not those of the stream. -/
structure SessionSent where
  out : SessionOut
  ok : Bool
  error : Option String

def softbusSessionSend (sessionId : SoftbusSessionId) (sessionType : UInt8) (s : SessionOut)
    (c : SessionSend) : SessionSent :=
  if c.data = none ∧ c.len > 0 then ⟨s, false, some "NULL data with len>0"⟩
  else if c.running = false then ⟨s, false, some "session stopped"⟩
  else
    let frame := softbusSessionFrame sessionId sessionType (s.seq + 1) (c.data.getD [])
    match softbusFramePack frame sessionWireCap with
    | none => ⟨{ s with seq := s.seq + 1 }, false, some "failed to pack frame"⟩
    | some wire =>
        ⟨{ seq := s.seq + 1, writes := s.writes ++ [(frame, wire.take c.accepted)] },
          decide (wire.length ≤ c.accepted), none⟩

/-- The calls in the order in which they have the mutex. -/
def sessionSends (sessionId : SoftbusSessionId) (sessionType : UInt8) (cs : List SessionSend) :
    SessionOut :=
  cs.foldl (fun s c => (softbusSessionSend sessionId sessionType s c).out) ⟨0, []⟩

/-! ## The wire -/

/-- Some bytes of the frame, but not all. -/
def Torn (w : SoftbusFrame × Bytes) : Prop := w.2 ≠ [] ∧ w.2 ≠ w.1.wire

instance (w : SoftbusFrame × Bytes) : Decidable (Torn w) := inferInstanceAs (Decidable (_ ∧ _))

/-- The frames that were written whole. -/
def SessionOut.completed (s : SessionOut) : List SoftbusFrame :=
  (s.writes.filter fun w => w.2 = w.1.wire).map Prod.fst

/-- The whole frames are numbered from 1 on, and a torn frame is the last on the wire. -/
structure SessionOut.InOrder (s : SessionOut) : Prop where
  seqs : s.completed.map (·.seq) =
    (List.range s.completed.length).map fun i => UInt32.ofNat (i + 1)
  last : s.writes.Pairwise fun w v => Torn w → v.2 = []

/-! ## The calls -/

section

variable (c : SessionSend)

/-- The call takes a number. -/
def SessionSend.Attempted : Prop := ¬ (c.data = none ∧ c.len > 0) ∧ c.running = true

/-- It packs a frame. -/
def SessionSend.Packs : Prop := c.Attempted ∧ c.len ≤ softbusFrameMaxPayload

/-- It puts bytes on the wire. -/
def SessionSend.Writes : Prop := c.Packs ∧ 0 < c.accepted

/-- It puts its whole frame on the wire. -/
def SessionSend.Completes : Prop := c.Packs ∧ softbusFrameMinSize + c.len ≤ c.accepted

/-- It takes a number that the wire never shows. -/
def SessionSend.Fails : Prop := c.Attempted ∧ ¬ c.Completes

/-- It leaves its frame open. -/
def SessionSend.Tears : Prop := c.Writes ∧ ¬ c.Completes

instance : Decidable c.Attempted := inferInstanceAs (Decidable (_ ∧ _))
instance : Decidable c.Packs := inferInstanceAs (Decidable (_ ∧ _))
instance : Decidable c.Writes := inferInstanceAs (Decidable (_ ∧ _))
instance : Decidable c.Completes := inferInstanceAs (Decidable (_ ∧ _))
instance : Decidable c.Fails := inferInstanceAs (Decidable (_ ∧ _))
instance : Decidable c.Tears := inferInstanceAs (Decidable (_ ∧ _))

end

/-- After a call that fails none completes, up to a round of the counter, and after a call that
leaves its frame open none writes. -/
def StopAfterFailure (cs : List SessionSend) : Prop :=
  ∀ pre c, pre ++ [c] <+: cs →
    (c.Completes → 2 ^ 32 ∣ pre.countP fun d => decide d.Fails) ∧
    (c.Writes → ∀ d ∈ pre, ¬ d.Tears)

/-! ## One call -/

section

variable {sessionId : SoftbusSessionId} {sessionType : UInt8} {s : SessionOut} {c : SessionSend}

/-- **One call** does nothing, takes a number, or writes the front of a frame. -/
theorem softbusSessionSend_cases (sessionId : SoftbusSessionId) (sessionType : UInt8)
    (s : SessionOut) (c : SessionSend) :
    (¬ c.Attempted ∧ (softbusSessionSend sessionId sessionType s c).out = s) ∨
    (c.Attempted ∧ ¬ c.Packs ∧
      (softbusSessionSend sessionId sessionType s c).out = { s with seq := s.seq + 1 }) ∨
    (c.Packs ∧ ∃ frame : SoftbusFrame, frame.seq = s.seq + 1 ∧
      frame.wire.length = softbusFrameMinSize + c.len ∧
      (softbusSessionSend sessionId sessionType s c).out =
        ⟨s.seq + 1, s.writes ++ [(frame, frame.wire.take c.accepted)]⟩) := by
  unfold softbusSessionSend
  split
  · rename_i hnull
    exact .inl ⟨fun h => h.1 hnull, rfl⟩
  rename_i hdata
  split
  · rename_i hstopped
    refine .inl ⟨?_, rfl⟩
    rintro ⟨-, hrunning⟩
    rw [hstopped] at hrunning
    cases hrunning
  rename_i hrunning
  rw [Bool.not_eq_false] at hrunning
  have hlen : (c.data.getD []).length = c.len := by
    cases hd : c.data with
    | none =>
        rw [hd] at hdata
        by_contra hne
        exact hdata ⟨rfl, Nat.pos_of_ne_zero fun h0 => hne h0.symm⟩
    | some b => exact c.data_length b hd
  simp only
  set frame := softbusSessionFrame sessionId sessionType (s.seq + 1) (c.data.getD []) with hframe
  have hpayload : frame.payloadLen = c.len := hlen
  have hreadable : frame.Readable := fun _ => Option.some_ne_none _
  have hattempted : c.Attempted := ⟨hdata, hrunning⟩
  right
  by_cases hmax : c.len ≤ softbusFrameMaxPayload
  · right
    have hcap : softbusFrameMinSize + frame.payloadLen + frame.extLen.toNat ≤ sessionWireCap := by
      show _ + 0 ≤ softbusFrameMinSize + softbusFrameMaxPayload + 64
      omega
    rw [softbusFramePack_wire hreadable (hpayload ▸ hmax) hcap]
    refine ⟨⟨hattempted, hmax⟩, frame, rfl, ?_, rfl⟩
    rw [SoftbusFrame.wire_length hreadable, hpayload]
    rfl
  · left
    refine ⟨hattempted, fun h => hmax h.2, ?_⟩
    rw [softbusFramePack, if_pos (by rw [hpayload]; exact Nat.lt_of_not_le hmax)]

theorem SessionSend.Completes.writes (h : c.Completes) : c.Writes := by
  refine ⟨h.1, Nat.lt_of_lt_of_le ?_ h.2⟩
  show 0 < 24 + c.len
  omega

/-- The front of a frame that a call writes. -/
theorem written_front {frame : SoftbusFrame} (hpacks : c.Packs)
    (hlen : frame.wire.length = softbusFrameMinSize + c.len) :
    (frame.wire.take c.accepted = frame.wire ↔ c.Completes) ∧
      (frame.wire.take c.accepted = [] ↔ ¬ c.Writes) ∧
      (Torn (frame, frame.wire.take c.accepted) ↔ c.Tears) := by
  have hwhole : frame.wire.take c.accepted = frame.wire ↔ c.Completes := by
    constructor
    · intro hall
      have hle : frame.wire.length ≤ c.accepted := by
        rw [← hall, List.length_take]
        exact Nat.min_le_left _ _
      exact ⟨hpacks, hlen ▸ hle⟩
    · intro hcompletes
      exact List.take_of_length_le (hlen ▸ hcompletes.2)
  have hnone : frame.wire.take c.accepted = [] ↔ ¬ c.Writes := by
    have hpos : frame.wire ≠ [] := by
      rw [← List.length_pos_iff, hlen]
      show 0 < 24 + c.len
      omega
    rw [List.take_eq_nil_iff]
    constructor
    · rintro (h | h) hwrites
      · exact absurd hwrites.2 (by omega)
      · exact hpos h
    · intro hnot
      left
      by_contra hne
      exact hnot ⟨hpacks, Nat.pos_of_ne_zero hne⟩
  refine ⟨hwhole, hnone, ?_⟩
  show ¬ frame.wire.take c.accepted = [] ∧ ¬ frame.wire.take c.accepted = frame.wire ↔ _
  rw [hnone, hwhole, not_not]
  rfl

/-! ## The history of the calls -/

/-- What the calls say of the session. -/
structure Counted (cs : List SessionSend) (s : SessionOut) : Prop where
  seq : s.seq = UInt32.ofNat (cs.countP fun d => decide d.Attempted)
  completed : s.completed.length = cs.countP fun d => decide d.Completes
  torn : (∃ w ∈ s.writes, Torn w) ↔ ∃ d ∈ cs, d.Tears

theorem attempted_count (cs : List SessionSend) :
    (cs.countP fun d => decide d.Attempted) =
      (cs.countP fun d => decide d.Completes) + cs.countP fun d => decide d.Fails := by
  induction cs with
  | nil => rfl
  | cons c cs ih =>
      rw [List.countP_cons, List.countP_cons, List.countP_cons, ih]
      by_cases hattempted : c.Attempted
      · by_cases hcompletes : c.Completes
        · have hfails : ¬ c.Fails := fun h => h.2 hcompletes
          simp only [hattempted, hcompletes, hfails, decide_true, decide_false, if_true]
          simp only [Bool.false_eq_true, if_false]
          omega
        · have hfails : c.Fails := ⟨hattempted, hcompletes⟩
          simp only [hattempted, hcompletes, hfails, decide_true, decide_false, if_true]
          simp only [Bool.false_eq_true, if_false]
          omega
      · have hcompletes : ¬ c.Completes := fun h => hattempted h.1.1
        have hfails : ¬ c.Fails := fun h => hattempted h.1
        simp only [hattempted, hcompletes, hfails, decide_false, Bool.false_eq_true, if_false]
        omega

theorem completed_append (s : SessionOut) (n : UInt32) (w : SoftbusFrame × Bytes) :
    (SessionOut.mk n (s.writes ++ [w])).completed =
      s.completed ++ if w.2 = w.1.wire then [w.1] else [] := by
  unfold SessionOut.completed
  rw [List.filter_append, List.map_append]
  by_cases hwhole : w.2 = w.1.wire
  · rw [if_pos hwhole, List.filter_cons_of_pos (by simpa using hwhole)]
    rfl
  · rw [if_neg hwhole, List.filter_cons_of_neg (by simpa using hwhole)]
    rfl

theorem uint32_ofNat_succ (n : ℕ) : UInt32.ofNat n + 1 = UInt32.ofNat (n + 1) := by
  rw [UInt32.ofNat_add]
  rfl

/-- The number of a frame is right if the calls that failed make up rounds of the counter. -/
theorem number_eq_iff (whole failed : ℕ) :
    UInt32.ofNat (whole + failed + 1) = UInt32.ofNat (whole + 1) ↔ 2 ^ 32 ∣ failed := by
  rw [← UInt32.toNat_inj, UInt32.toNat_ofNat', UInt32.toNat_ofNat']
  omega

variable (sessionId sessionType) in
/-- **The history is kept.** -/
theorem Counted.send {cs : List SessionSend} (h : Counted cs s) (c : SessionSend) :
    Counted (cs ++ [c]) (softbusSessionSend sessionId sessionType s c).out := by
  have htears : (∃ d ∈ cs ++ [c], d.Tears) ↔ (∃ d ∈ cs, d.Tears) ∨ c.Tears := by
    simp only [List.mem_append, List.mem_singleton, or_and_right, exists_or, exists_eq_left]
  rcases softbusSessionSend_cases sessionId sessionType s c with
    ⟨hnot, heq⟩ | ⟨hattempted, hnot, heq⟩ | ⟨hpacks, frame, -, hlen, heq⟩
  · have hcompletes : ¬ c.Completes := fun hc => hnot hc.1.1
    have htear : ¬ c.Tears := fun hc => hnot hc.1.1.1
    rw [heq]
    refine ⟨?_, ?_, ?_⟩
    · rw [h.seq, List.countP_append]
      simp [hnot]
    · rw [h.completed, List.countP_append]
      simp [hcompletes]
    · rw [htears, h.torn, or_iff_left htear]
  · have hcompletes : ¬ c.Completes := fun hc => hnot hc.1
    have htear : ¬ c.Tears := fun hc => hnot hc.1.1
    rw [heq]
    refine ⟨?_, ?_, ?_⟩
    · rw [List.countP_append]
      simp only [h.seq, uint32_ofNat_succ]
      simp [hattempted]
    · rw [List.countP_append]
      show s.completed.length = _
      rw [h.completed]
      simp [hcompletes]
    · rw [htears, or_iff_left htear]
      exact h.torn
  · obtain ⟨hwhole, -, htorn⟩ := written_front hpacks hlen
    rw [heq]
    refine ⟨?_, ?_, ?_⟩
    · rw [List.countP_append]
      simp only [h.seq, uint32_ofNat_succ]
      simp [hpacks.1]
    · rw [completed_append, List.countP_append, List.length_append, h.completed]
      by_cases hcompletes : c.Completes
      · rw [if_pos (hwhole.mpr hcompletes)]
        simp [hcompletes]
      · rw [if_neg fun hw => hcompletes (hwhole.mp hw)]
        simp [hcompletes]
    · rw [htears, ← h.torn, ← htorn]
      simp only [List.mem_append, List.mem_singleton, or_and_right, exists_or, exists_eq_left]

variable (sessionId sessionType) in
/-- **One call keeps the order** exactly if no call before it failed in the way it matters. -/
theorem InOrder_send_iff {cs : List SessionSend} (h : Counted cs s) (c : SessionSend) :
    (softbusSessionSend sessionId sessionType s c).out.InOrder ↔
      s.InOrder ∧ (c.Completes → 2 ^ 32 ∣ cs.countP fun d => decide d.Fails) ∧
        (c.Writes → ∀ d ∈ cs, ¬ d.Tears) := by
  rcases softbusSessionSend_cases sessionId sessionType s c with
    ⟨hnot, heq⟩ | ⟨hattempted, hnot, heq⟩ | ⟨hpacks, frame, hseq, hlen, heq⟩
  · have hwrites : ¬ c.Writes := fun hc => hnot hc.1.1
    have hcompletes : ¬ c.Completes := fun hc => hwrites hc.writes
    rw [heq]
    exact ⟨fun hs => ⟨hs, fun hc => absurd hc hcompletes, fun hc => absurd hc hwrites⟩, And.left⟩
  · have hwrites : ¬ c.Writes := fun hc => hnot hc.1
    have hcompletes : ¬ c.Completes := fun hc => hwrites hc.writes
    rw [heq]
    exact ⟨fun hs => ⟨⟨hs.seqs, hs.last⟩, fun hc => absurd hc hcompletes,
      fun hc => absurd hc hwrites⟩, fun hs => ⟨hs.1.seqs, hs.1.last⟩⟩
  · obtain ⟨hwhole, hnone, -⟩ := written_front hpacks hlen
    rw [heq]
    -- the numbers
    have hnumbers : (SessionOut.mk (s.seq + 1)
        (s.writes ++ [(frame, frame.wire.take c.accepted)])).completed.map (·.seq) =
          (List.range (SessionOut.mk (s.seq + 1)
            (s.writes ++ [(frame, frame.wire.take c.accepted)])).completed.length).map
            (fun i => UInt32.ofNat (i + 1)) ↔
        s.completed.map (·.seq) =
            (List.range s.completed.length).map (fun i => UInt32.ofNat (i + 1)) ∧
          (c.Completes → 2 ^ 32 ∣ cs.countP fun d => decide d.Fails) := by
      rw [completed_append]
      by_cases hcompletes : c.Completes
      · rw [if_pos (hwhole.mpr hcompletes), List.map_append, List.length_append,
          List.length_singleton, List.range_succ, List.map_append,
          List.append_eq_append_iff_of_size_eq_right (by simp)]
        refine and_congr_right fun _ => ?_
        rw [imp_iff_right hcompletes, List.map_singleton, List.map_singleton,
          List.singleton_inj, hseq, h.seq, uint32_ofNat_succ, attempted_count, h.completed,
          number_eq_iff]
      · rw [if_neg fun hw => hcompletes (hwhole.mp hw), List.append_nil]
        exact (and_iff_left fun hc => absurd hc hcompletes).symm
    -- the torn frames
    have hlast : (s.writes ++ [(frame, frame.wire.take c.accepted)]).Pairwise
          (fun w v => Torn w → v.2 = []) ↔
        s.writes.Pairwise (fun w v => Torn w → v.2 = []) ∧
          (c.Writes → ∀ d ∈ cs, ¬ d.Tears) := by
      rw [List.pairwise_append]
      refine and_congr_right fun _ => ?_
      rw [and_iff_right (List.pairwise_singleton _ _)]
      have htorn := h.torn
      constructor
      · intro hall hwrites d hd htears
        obtain ⟨w, hw, hopen⟩ := htorn.mpr ⟨d, hd, htears⟩
        exact hnone.mp (hall w hw _ (List.mem_singleton.mpr rfl) hopen) hwrites
      · intro hnever w hw v hv hopen
        rw [List.mem_singleton.mp hv]
        refine hnone.mpr fun hwrites => ?_
        obtain ⟨d, hd, htears⟩ := htorn.mp ⟨w, hw, hopen⟩
        exact hnever hwrites d hd htears
    constructor
    · intro hs
      obtain ⟨hseqs, hdivides⟩ := hnumbers.mp hs.seqs
      obtain ⟨hpairs, hnever⟩ := hlast.mp hs.last
      exact ⟨⟨hseqs, hpairs⟩, hdivides, hnever⟩
    · rintro ⟨hs, hdivides, hnever⟩
      exact ⟨hnumbers.mpr ⟨hs.seqs, hdivides⟩, hlast.mpr ⟨hs.last, hnever⟩⟩

/-! ## All the calls -/

variable (sessionId sessionType) in
theorem sessionSends_append (cs : List SessionSend) (c : SessionSend) :
    sessionSends sessionId sessionType (cs ++ [c]) =
      (softbusSessionSend sessionId sessionType (sessionSends sessionId sessionType cs) c).out :=
  List.foldl_append

variable (sessionId sessionType) in
theorem sessionSends_counted (cs : List SessionSend) :
    Counted cs (sessionSends sessionId sessionType cs) := by
  induction cs using List.reverseRecOn with
  | nil =>
      refine ⟨rfl, rfl, ?_⟩
      constructor
      · rintro ⟨w, hw, -⟩
        cases hw
      · rintro ⟨d, hd, -⟩
        cases hd
  | append_singleton cs c ih =>
      rw [sessionSends_append]
      exact ih.send sessionId sessionType c

theorem stopAfterFailure_append (cs : List SessionSend) (c : SessionSend) :
    StopAfterFailure (cs ++ [c]) ↔ StopAfterFailure cs ∧
      (c.Completes → 2 ^ 32 ∣ cs.countP fun d => decide d.Fails) ∧
        (c.Writes → ∀ d ∈ cs, ¬ d.Tears) := by
  unfold StopAfterFailure
  constructor
  · intro hall
    exact ⟨fun pre d hpre => hall pre d (hpre.trans (List.prefix_append cs [c])),
      hall cs c (List.prefix_refl _)⟩
  · rintro ⟨hall, hlast⟩ pre d hpre
    rcases List.prefix_concat_iff.mp hpre with heq | hpre
    · obtain ⟨rfl, hd⟩ := List.append_inj' heq rfl
      cases hd
      exact hlast
    · exact hall pre d hpre

/-- **The wire is in order** exactly if the calls stop after a failure. -/
theorem sessionSends_inOrder_iff (sessionId : SoftbusSessionId) (sessionType : UInt8)
    (cs : List SessionSend) :
    (sessionSends sessionId sessionType cs).InOrder ↔ StopAfterFailure cs := by
  induction cs using List.reverseRecOn with
  | nil =>
      refine iff_of_true ⟨rfl, List.Pairwise.nil⟩ ?_
      intro pre c hpre
      exact absurd (List.prefix_nil.mp hpre) (List.append_ne_nil_of_right_ne_nil _ (by simp))
  | append_singleton cs c ih =>
      rw [sessionSends_append, InOrder_send_iff sessionId sessionType
        (sessionSends_counted sessionId sessionType cs), ih, stopAfterFailure_append]

end

/-- A call with the message "hi". -/
def hiSend (accepted : ℕ) : SessionSend where
  running := true
  data := some [104, 105]
  len := 2
  data_length := fun _ hb => congrArg List.length (Option.mem_some_iff.mp hb).symm
  accepted := accepted

/-- A message that is one byte too long. -/
def longSend : SessionSend where
  running := true
  data := some (List.replicate 65508 0)
  len := 65508
  data_length := fun b hb => by rw [← Option.mem_some_iff.mp hb, List.length_replicate]
  accepted := 65600

theorem softbusSessionSend_long :
    (softbusSessionSend shortFrame.sessionId 2 ⟨0, []⟩ longSend).out = ⟨1, []⟩ := by
  have hattempted : longSend.Attempted := ⟨fun h => Option.some_ne_none _ h.1, rfl⟩
  have hlong : ¬ longSend.Packs := fun h => absurd h.2 (by decide)
  rcases softbusSessionSend_cases shortFrame.sessionId 2 ⟨0, []⟩ longSend with
    ⟨hnot, -⟩ | ⟨-, -, hout⟩ | ⟨hpacks, -⟩
  · exact absurd hattempted hnot
  · exact hout
  · exact absurd hpacks hlong

/-- **A gap, and a frame in the middle of another**: after a message that is too long the next
one has the number 2, and a frame that is cut off after ten bytes is followed by the next. -/
theorem sessionSends_not_inOrder :
    ¬ (sessionSends shortFrame.sessionId 2 [longSend, hiSend 26]).InOrder ∧
      ¬ (sessionSends shortFrame.sessionId 2 [hiSend 10, hiSend 26]).InOrder := by
  constructor
  · intro h
    have hseqs := h.seqs
    rw [sessionSends, List.foldl_cons, softbusSessionSend_long] at hseqs
    revert hseqs
    decide
  · intro h
    have hlast := h.last
    revert hlast
    decide

end HwPhoneLink.Softbus
