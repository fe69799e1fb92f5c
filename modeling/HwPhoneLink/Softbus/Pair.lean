import HwPhoneLink.Softbus.Sending
import HwPhoneLink.Lib.Link
import Mathlib.Data.List.Infix
import Mathlib.Data.List.TakeDrop

/-!
# Two sessions

The two ends of a session, each with its sends and its read pump, joined by a byte stream each
way. What an end has put on the wire is a row of whole frames, and perhaps the front of one more.
So the other end has handed out the first of the messages that were sent, in whatever order the
sends and the reads of the two ends come (`SessionPair.delivers_taken`).
-/

namespace HwPhoneLink.Softbus

open BigEndian Framing Transitions

/-! ## One end -/

/-- What an end has written, and its pump with the buffer. `taken` is a history: the data of
the calls of `softbus_session_send` that returned `TRUE`. -/
structure SessionEnd where
  out : SessionOut
  taken : List Bytes
  pump : SoftbusPump × Bytes

/-- A call of `softbus_session_send`, or a read of the pump. -/
inductive SessionIo : Type where
  | send (call : SessionSend)
  | receive (chunk : Bytes)

def SessionIo.chunk : SessionIo → Bytes
  | .send _ => []
  | .receive chunk => chunk

/-- The chunk of `_pump_thread`. -/
def sessionChunkMax : ℕ := 4096

/-- Everything on the wire. -/
def SessionOut.wire (s : SessionOut) : Bytes := (s.writes.map Prod.snd).flatten

/-- A read returns something, and at most a chunk. -/
def SessionEnd.step (sessionId : SoftbusSessionId) (sessionType : UInt8) (s : SessionEnd) :
    SessionIo → Option SessionEnd
  | .send call =>
      let r := softbusSessionSend sessionId sessionType s.out call
      some { s with
        out := r.out
        taken := if r.ok then s.taken ++ [call.data.getD []] else s.taken }
  | .receive chunk =>
      if 0 < chunk.length ∧ chunk.length ≤ sessionChunkMax then
        some { s with pump := pumpRead s.pump chunk }
      else none

def sessionEnd (sessionId : SoftbusSessionId) (sessionType : UInt8) :
    Endpoint SessionEnd SessionIo where
  step := SessionEnd.step sessionId sessionType
  out s := s.out.wire
  chunk := SessionIo.chunk

def sessionEndNew (frame : SoftbusFrame) : SessionEnd := ⟨⟨0, []⟩, [], softbusPumpNew frame⟩

/-! ## The frames on the wire -/

/-- A frame of `softbus_session_send` that fits. -/
structure SessionFrame (f : SoftbusFrame) : Prop where
  fits : f.Fits
  extLen : f.extLen = 0

/-- Whole frames with the data of the calls that succeeded, and perhaps the front of one
more. -/
structure SessionEnd.Framed (s : SessionEnd) : Prop where
  front : ∀ w ∈ s.out.writes, SessionFrame w.1 ∧ w.2 <+: w.1.wire
  wire : ∃ p, s.out.wire = (s.out.completed.map SoftbusFrame.wire).flatten ++ p ∧
    (p = [] ∨ ∃ w ∈ s.out.writes, Torn w ∧ p = w.2)
  taken : s.taken = s.out.completed.map SoftbusFrame.content

/-- A call that writes comes after no frame that was left open. -/
def SessionEnd.AfterWhole (s : SessionEnd) : SessionIo → Prop
  | .send c => c.Writes → ∀ w ∈ s.out.writes, ¬ Torn w
  | .receive _ => True

instance (s : SessionEnd) : (e : SessionIo) → Decidable (s.AfterWhole e)
  | .send c => inferInstanceAs (Decidable (c.Writes → ∀ w ∈ s.out.writes, ¬ Torn w))
  | .receive _ => isTrue trivial

section
variable {sessionId : SoftbusSessionId} {sessionType : UInt8} {s : SessionEnd} {c : SessionSend}

/-- **One call** writes nothing and fails, or writes the front of a frame with its data. -/
theorem softbusSessionSend_writes (sessionId : SoftbusSessionId) (sessionType : UInt8)
    (s : SessionOut) (c : SessionSend) :
    let r := softbusSessionSend sessionId sessionType s c
    (r.out.writes = s.writes ∧ r.ok = false) ∨
      ∃ f, c.Packs ∧ SessionFrame f ∧ f.content = c.data.getD [] ∧
        f.wire.length = softbusFrameMinSize + c.len ∧
        r.out = ⟨s.seq + 1, s.writes ++ [(f, f.wire.take c.accepted)]⟩ ∧
        r.ok = decide (f.wire.length ≤ c.accepted) := by
  simp only
  unfold softbusSessionSend
  split
  · exact Or.inl ⟨rfl, rfl⟩
  rename_i hdata
  split
  · exact Or.inl ⟨rfl, rfl⟩
  rename_i hrunning
  have hlen : (c.data.getD []).length = c.len := by
    cases hd : c.data with
    | none =>
        rw [hd] at hdata
        by_contra hne
        exact hdata ⟨rfl, Nat.pos_of_ne_zero fun h0 => hne h0.symm⟩
    | some b => exact c.data_length b hd
  have hattempted : c.Attempted := ⟨hdata, by simpa using hrunning⟩
  set f := softbusSessionFrame sessionId sessionType (s.seq + 1) (c.data.getD []) with hf
  have hpayload : f.payloadLen = c.len := hlen
  have hreadable : f.Readable := fun _ => Option.some_ne_none _
  by_cases hmax : c.len ≤ softbusFrameMaxPayload
  · have hcap : softbusFrameMinSize + f.payloadLen + f.extLen.toNat ≤ sessionWireCap := by
      show _ + 0 ≤ softbusFrameMinSize + softbusFrameMaxPayload + 64
      omega
    have hfits : f.payloadLen + f.extLen.toNat ≤ softbusFrameMaxPayload := by
      rw [hpayload]
      exact hmax
    have hwire : f.wire.length = softbusFrameMinSize + c.len := by
      rw [SoftbusFrame.wire_length hreadable, hpayload]
      rfl
    right
    simp only [softbusFramePack_wire hreadable (hpayload ▸ hmax) hcap]
    exact ⟨f, ⟨hattempted, hmax⟩, ⟨⟨hreadable, hfits⟩, rfl⟩, rfl, hwire, rfl, rfl⟩
  · left
    have hlong : f.payloadLen > softbusFrameMaxPayload := by
      rw [hpayload]
      exact Nat.lt_of_not_le hmax
    simp only [softbusFramePack, if_pos hlong]
    exact ⟨trivial, trivial⟩

theorem wire_append (s : SessionOut) (n : UInt32) (w : SoftbusFrame × Bytes) :
    (SessionOut.mk n (s.writes ++ [w])).wire = s.wire ++ w.2 := by
  unfold SessionOut.wire
  rw [List.map_append, List.flatten_append, List.map_singleton, List.flatten_singleton]

/-- **The step lemma**, for a call. -/
theorem SessionEnd.Framed.send {t : SessionEnd} (h : s.Framed) (hafter : s.AfterWhole (.send c))
    (hs : s.step sessionId sessionType (.send c) = some t) : t.Framed := by
  cases hs
  rcases softbusSessionSend_writes sessionId sessionType s.out c with
    ⟨hsame, hok⟩ | ⟨f, hpacks, hf, hcontent, hlen, hout, hok⟩
  · have hcompleted : (softbusSessionSend sessionId sessionType s.out c).out.completed =
        s.out.completed := by
      unfold SessionOut.completed
      rw [hsame]
    have hwire : (softbusSessionSend sessionId sessionType s.out c).out.wire = s.out.wire := by
      unfold SessionOut.wire
      rw [hsame]
    constructor
    · simp only [hsame]
      exact h.front
    · simp only [hsame, hcompleted, hwire]
      exact h.wire
    · simp only [hok, hcompleted]
      exact h.taken
  · obtain ⟨hwhole, hnone, htorn⟩ := written_front hpacks hlen
    have hok' : (softbusSessionSend sessionId sessionType s.out c).ok = true ↔
        f.wire.take c.accepted = f.wire := by
      rw [hok, decide_eq_true_iff, List.take_eq_self_iff]
    have hclosed : c.Writes → s.out.wire =
        (s.out.completed.map SoftbusFrame.wire).flatten := by
      intro hwrites
      obtain ⟨p, hp, hrest⟩ := h.wire
      rcases hrest with rfl | ⟨w, hw, hopen, -⟩
      · rw [hp, List.append_nil]
      · exact absurd hopen (hafter hwrites w hw)
    constructor
    · simp only [hout]
      intro w hw
      rcases List.mem_append.mp hw with hw | hw
      · exact h.front w hw
      · cases List.mem_singleton.mp hw
        exact ⟨hf, List.take_prefix _ _⟩
    · simp only [hout, wire_append, completed_append]
      by_cases hcompletes : c.Completes
      · refine ⟨[], ?_, Or.inl rfl⟩
        rw [if_pos (hwhole.mpr hcompletes), hclosed hcompletes.writes, hwhole.mpr hcompletes]
        simp
      rw [if_neg fun hw => hcompletes (hwhole.mp hw), List.append_nil]
      by_cases hwrites : c.Writes
      · exact ⟨_, by rw [hclosed hwrites], Or.inr ⟨_, List.mem_append_right _
          (List.mem_singleton.mpr rfl), htorn.mpr ⟨hwrites, hcompletes⟩, rfl⟩⟩
      · obtain ⟨p, hp, hrest⟩ := h.wire
        refine ⟨p, ?_, hrest.imp_right fun ⟨w, hw, hopen⟩ =>
          ⟨w, List.mem_append_left _ hw, hopen⟩⟩
        rw [hnone.mpr hwrites, List.append_nil, hp]
    · simp only [hout, completed_append]
      by_cases hall : f.wire.take c.accepted = f.wire
      · rw [if_pos (hok'.mpr hall), if_pos hall, List.map_append, h.taken, ← hcontent]
        rfl
      · rw [if_neg fun ht => hall (hok'.mp ht), if_neg hall, List.append_nil, h.taken]

/-- The frames are those of the calls, whatever is read. -/
theorem SessionEnd.Framed.step {e : SessionIo} {t : SessionEnd} (h : s.Framed)
    (hafter : s.AfterWhole e) (hs : s.step sessionId sessionType e = some t) : t.Framed := by
  cases e with
  | send c => exact h.send hafter hs
  | receive chunk =>
      unfold SessionEnd.step at hs
      simp only at hs
      split at hs
      · cases hs
        exact ⟨h.front, h.wire, h.taken⟩
      · cases hs

theorem sessionEndNew_framed (frame : SoftbusFrame) : (sessionEndNew frame).Framed :=
  ⟨(fun _ hw => nomatch hw), ⟨[], rfl, Or.inl rfl⟩, rfl⟩

/-- What is written stays written. -/
theorem sessionEnd_grows (sessionId : SoftbusSessionId) (sessionType : UInt8) :
    (sessionEnd sessionId sessionType).Grows fun _ => True where
  keeps := fun _ _ => trivial
  grows := by
    intro s e t _ hs
    cases e with
    | send c =>
        cases hs
        rcases softbusSessionSend_writes sessionId sessionType s.out c with
          ⟨hsame, -⟩ | ⟨f, -, -, -, -, hout, -⟩
        · show s.out.wire <+: (softbusSessionSend sessionId sessionType s.out c).out.wire
          unfold SessionOut.wire
          rw [hsame]
        · show s.out.wire <+: (softbusSessionSend sessionId sessionType s.out c).out.wire
          rw [hout, wire_append]
          exact List.prefix_append _ _
    | receive chunk =>
        unfold sessionEnd SessionEnd.step at hs
        simp only at hs
        split at hs
        · cases hs
          exact List.prefix_refl _
        · cases hs

end

/-! ## The pump -/

/-- The pump has taken the reads, and no call touches it. -/
theorem SessionEnd.run_pump {sessionId : SoftbusSessionId} {sessionType : UInt8}
    (es : List SessionIo) : ∀ {s t : SessionEnd},
      run (SessionEnd.step sessionId sessionType) s es = some t →
      ∃ chunks : List Bytes, t.pump = chunks.foldl pumpRead s.pump ∧
        chunks.flatten = es.flatMap SessionIo.chunk := by
  induction es with
  | nil =>
      intro s t hrun
      cases hrun
      exact ⟨[], rfl, rfl⟩
  | cons e es ih =>
      intro s t hrun
      obtain ⟨s₁, hs, hrest⟩ := run_cons_eq_some hrun
      obtain ⟨chunks, hpump, hread⟩ := ih hrest
      cases e with
      | send c =>
          cases hs
          exact ⟨chunks, hpump, hread⟩
      | receive chunk =>
          unfold SessionEnd.step at hs
          simp only at hs
          split at hs
          · cases hs
            refine ⟨chunk :: chunks, hpump, ?_⟩
            rw [List.flatten_cons, hread]
            rfl
          · cases hs

/-- The pump on a stream of frames, some of which has been read. -/
theorem SoftbusPump.reads {frames : List SoftbusFrame} (hframes : ∀ f ∈ frames, SessionFrame f)
    (frame : SoftbusFrame) {chunks : List Bytes} {tail : Bytes}
    (hstream : chunks.flatten ++ tail = (frames.map SoftbusFrame.wire).flatten) :
    ∃ k ≤ frames.length,
      (chunks.foldl pumpRead (softbusPumpNew frame)).1.delivered =
        (frames.take k).map SoftbusFrame.content ∧
      (chunks.foldl pumpRead (softbusPumpNew frame)).1.errors = [] ∧
      (chunks.foldl pumpRead (softbusPumpNew frame)).2 ++ tail =
        ((frames.drop k).map SoftbusFrame.wire).flatten ∧
      ∀ f ∈ (frames.drop k).head?,
        (chunks.foldl pumpRead (softbusPumpNew frame)).2.length < f.wire.length := by
  have hfeed : chunks.foldl pumpRead (softbusPumpNew frame) =
      chunks.foldl (feed (softbusCut frame) softbusHandle fun _ => false)
        (softbusPumpNew frame) := by
    congr 1
    funext s chunk
    exact pumpRead_eq_feed frame s chunk
  have hwires : ∀ w ∈ frames.map SoftbusFrame.wire,
      IsFrame (softbusCut frame) softbusHandle w := by
    intro w hw
    obtain ⟨f, hf, rfl⟩ := List.mem_map.mp hw
    exact (hframes f hf).fits.isFrame frame
  have hstart : Reads (fun _ => false) (Handed frames) (frames.map SoftbusFrame.wire)
      (chunks.flatten ++ tail) (softbusPumpNew frame) :=
    ⟨[], frames.map SoftbusFrame.wire, rfl, ⟨0, Nat.zero_le _, rfl, rfl, rfl⟩, fun _ => hstream⟩
  obtain ⟨⟨done, rest, hsplit, ⟨k, hk, rfl, hdelivered, herrors⟩, hbuf⟩, hdrained⟩ :=
    Reads.feedAll (softbusCut_nil frame) hwires
      (handed_handles fun f hf => (hframes f hf).fits) chunks hstart
      (Or.inr (softbusCut_nil frame))
  rw [← hfeed] at hdelivered herrors hbuf hdrained
  have hrest : rest = (frames.drop k).map SoftbusFrame.wire := by
    have hall : (frames.take k).map SoftbusFrame.wire ++ (frames.drop k).map SoftbusFrame.wire =
        (frames.take k).map SoftbusFrame.wire ++ rest := by
      rw [← List.map_append, List.take_append_drop, hsplit]
    exact (List.append_cancel_left hall).symm
  have hcut := hdrained.resolve_left Bool.false_ne_true
  have hbuf := hbuf rfl
  rw [hrest] at hbuf
  refine ⟨k, hk, hdelivered, herrors, hbuf, fun f hf => ?_⟩
  obtain ⟨later, hlater⟩ := List.head?_eq_some_iff.mp hf
  rw [hlater, List.map_cons, List.flatten_cons] at hbuf
  have hmem : f ∈ frames := List.mem_of_mem_drop (hlater ▸ List.mem_cons_self)
  exact softbusCut_short (hframes f hmem).fits hcut hbuf

/-- **The pump on a wire whose last frame may be cut off.** It hands out whole frames only, and
all of them when it has read everything. -/
theorem SoftbusPump.delivers_open {frames : List SoftbusFrame}
    (hframes : ∀ f ∈ frames, SessionFrame f) {p : Bytes}
    (hp : p = [] ∨ ∃ f, SessionFrame f ∧ p <+: f.wire ∧ p ≠ f.wire) (frame : SoftbusFrame)
    {chunks : List Bytes} {tail : Bytes}
    (hstream : chunks.flatten ++ tail = (frames.map SoftbusFrame.wire).flatten ++ p) :
    ∃ k ≤ frames.length,
      (chunks.foldl pumpRead (softbusPumpNew frame)).1.delivered =
        (frames.take k).map SoftbusFrame.content ∧
      (chunks.foldl pumpRead (softbusPumpNew frame)).1.errors = [] ∧
      (tail = [] → k = frames.length) := by
  rcases hp with rfl | ⟨f, hf, ⟨q, hq⟩, hne⟩
  · rw [List.append_nil] at hstream
    obtain ⟨k, hk, hdelivered, herrors, hbuf, hshort⟩ := SoftbusPump.reads hframes frame hstream
    refine ⟨k, hk, hdelivered, herrors, ?_⟩
    rintro rfl
    by_contra hlt
    have hcons := List.drop_eq_getElem_cons (Nat.lt_of_le_of_ne hk hlt)
    have hfirst := hshort _ (by rw [hcons]; rfl)
    have hlength := congrArg List.length hbuf
    rw [hcons, List.append_nil, List.map_cons, List.flatten_cons, List.length_append] at hlength
    omega
  · -- the rest of the open frame is still to come, and it is not empty
    have hopen : ∀ g ∈ frames ++ [f], SessionFrame g := by
      intro g hg
      rcases List.mem_append.mp hg with hg | hg
      · exact hframes g hg
      · exact List.mem_singleton.mp hg ▸ hf
    have hqne : q ≠ [] := by
      rintro rfl
      rw [List.append_nil] at hq
      exact hne hq
    have hmore : chunks.flatten ++ (tail ++ q) =
        ((frames ++ [f]).map SoftbusFrame.wire).flatten := by
      rw [← List.append_assoc, hstream, List.append_assoc, hq, List.map_append,
        List.flatten_append, List.map_singleton, List.flatten_singleton]
    obtain ⟨k, hk, hdelivered, herrors, hbuf, hshort⟩ := SoftbusPump.reads hopen frame hmore
    have hkle : k ≤ frames.length := by
      by_contra hgt
      rw [List.drop_eq_nil_of_le (by
        rw [List.length_append, List.length_singleton]
        omega), List.map_nil, List.flatten_nil, ← List.append_assoc,
        List.append_eq_nil_iff] at hbuf
      exact hqne hbuf.2
    refine ⟨k, hkle, ?_, herrors, ?_⟩
    · rw [hdelivered, List.take_append_of_le_length hkle]
    · rintro rfl
      by_contra hlt
      have hcons := List.drop_eq_getElem_cons (Nat.lt_of_le_of_ne hkle hlt)
      rw [List.drop_append_of_le_length hkle, hcons] at hbuf hshort
      have hfirst := hshort _ rfl
      have hlength := congrArg List.length hbuf
      rw [List.nil_append, List.map_append, List.flatten_append, List.map_singleton,
        List.flatten_singleton, ← hq] at hlength
      simp only [List.map_cons, List.flatten_cons, List.length_append] at hlength
      omega

/-! ## The pair -/

namespace SessionPair

variable {sessionId : Bool → SoftbusSessionId} {sessionType : Bool → UInt8} {l : Link SessionEnd}

/-- The pair before anything is sent. -/
def start (frame : Bool → SoftbusFrame) : Link SessionEnd :=
  Link.start fun b => sessionEndNew (frame b)

def step (sessionId : Bool → SoftbusSessionId) (sessionType : Bool → UInt8) :
    Link SessionEnd → Bool × SessionIo → Option (Link SessionEnd) :=
  Link.step fun b => sessionEnd (sessionId b) (sessionType b)

/-- **The messages of the other end, in order.** However the sends and the reads of the two ends
interleave, and whatever sends fail, the pump of each end has handed out the first of the
messages whose sends succeeded at the other end, each once and whole, and has reported nothing.
When it has read everything, it has handed out all of them. It takes only that no call writes
after one that left its frame open. -/
theorem delivers_taken {frame : Bool → SoftbusFrame} {es : List (Bool × SessionIo)}
    (hrun : run (step sessionId sessionType) (start frame) es = some l)
    (hafter : Meets (step sessionId sessionType) (fun l e => (l.conn e.1).AfterWhole e.2)
      (start frame) es) (b : Bool) :
    (l.conn b).pump.1.delivered <+: (l.conn (!b)).taken ∧ (l.conn b).pump.1.errors = [] ∧
      (l.got b = (l.conn (!b)).out.wire.length →
        (l.conn b).pump.1.delivered = (l.conn (!b)).taken) := by
  have hframed : (l.conn (!b)).Framed := by
    refine run_inv SessionEnd.Framed SessionEnd.AfterWhole (fun s e s' h hok hs => h.step hok hs)
      (sessionEndNew_framed (frame (!b))) ?_ (Link.run_own (!b) hrun)
    exact Link.meets_own (!b) (fun l e he => he) hrun hafter
  obtain ⟨chunks, hpump, hread⟩ := SessionEnd.run_pump _ (Link.run_own b hrun)
  obtain ⟨tail, htail⟩ := Link.heard_front (fun b => sessionEnd_grows (sessionId b)
    (sessionType b)) (fun _ => trivial) hrun b
  obtain ⟨p, hwire, hp⟩ := hframed.wire
  have hframes : ∀ f ∈ (l.conn (!b)).out.completed, SessionFrame f := by
    intro f hf
    obtain ⟨w, hw, rfl⟩ := List.mem_map.mp hf
    exact (hframed.front w (List.mem_filter.mp hw).1).1
  have hopen : p = [] ∨ ∃ f, SessionFrame f ∧ p <+: f.wire ∧ p ≠ f.wire := by
    refine hp.imp_right fun ⟨w, hw, htorn, heq⟩ => ⟨w.1, ?_⟩
    obtain ⟨hf, hfront⟩ := hframed.front w hw
    exact ⟨hf, heq ▸ hfront, heq ▸ htorn.2⟩
  have hheard : Link.heard (sessionEnd (sessionId b) (sessionType b)) (Link.own b es) =
      chunks.flatten := hread.symm
  have hstream : chunks.flatten ++ tail =
      ((l.conn (!b)).out.completed.map SoftbusFrame.wire).flatten ++ p := by
    rw [← hheard, htail]
    exact hwire
  obtain ⟨k, -, hdelivered, herrors, hall⟩ :=
    SoftbusPump.delivers_open hframes hopen (frame b) hstream
  have hconn : (l.conn b).pump = chunks.foldl pumpRead (softbusPumpNew (frame b)) := hpump
  rw [hconn, hframed.taken]
  refine ⟨?_, herrors, fun hgot => ?_⟩
  · rw [hdelivered]
    exact (List.take_prefix k _).map _
  · have hcount := Link.got_run b es hrun
    rw [hgot, hheard] at hcount
    have hlength := congrArg List.length htail
    rw [hheard, List.length_append] at hlength
    have htail : tail = [] := by
      rw [← List.length_eq_zero_iff]
      have : (start frame).got b = 0 := rfl
      have hout : (l.conn (!b)).out.wire.length =
        ((sessionEnd (sessionId (!b)) (sessionType (!b))).out (l.conn (!b))).length := rfl
      omega
    rw [hdelivered, hall htail, List.take_length]

/-- One end says "hi", and the other answers before it has read all of it. Then the first end is
cut off in its next frame. -/
def hiExchange : List (Bool × SessionIo) :=
  let wire := (softbusSessionFrame shortFrame.sessionId 2 1 [104, 105]).wire
  let next := (softbusSessionFrame shortFrame.sessionId 2 2 [104, 105]).wire
  [(false, .send (hiSend 26)), (true, .receive (wire.take 6)), (true, .send (hiSend 26)),
    (true, .receive (wire.drop 6)), (false, .send (hiSend 10)), (true, .receive (next.take 10))]

theorem delivers_taken_hi :
    ∃ l, run (step (fun _ => shortFrame.sessionId) (fun _ => 2)) (start fun _ => shortFrame)
        hiExchange = some l ∧
      l.got true = (l.conn false).out.wire.length ∧
      (l.conn true).pump.1.delivered = (l.conn false).taken := by
  obtain ⟨l, hrun, hgot⟩ := Option.map_eq_some_iff.mp (show
    (run (step (fun _ => shortFrame.sessionId) (fun _ => 2)) (start fun _ => shortFrame)
      hiExchange).map (fun l => decide (l.got true = (l.conn false).out.wire.length)) =
      some true by decide +kernel)
  have hall := of_decide_eq_true hgot
  have hafter : Meets (step (fun _ => shortFrame.sessionId) (fun _ => 2))
      (fun l e => (l.conn e.1).AfterWhole e.2) (start fun _ => shortFrame) hiExchange :=
    meets_of_test (fun _ _ h => of_decide_eq_true h) _ (show meetsTest _
      (fun (l : Link SessionEnd) (e : Bool × SessionIo) =>
        decide ((l.conn e.1).AfterWhole e.2)) _ _ = true by decide +kernel)
  exact ⟨l, hrun, hall, (delivers_taken hrun hafter true).2.2 hall⟩

end SessionPair

end HwPhoneLink.Softbus
