import HwPhoneLink.DFile.Moves
import Mathlib.Algebra.BigOperators.Group.List.Basic
import Mathlib.Algebra.Ring.Nat

/-!
# One call of dc_send

`dc_send` with its error pointer, answer by answer. `dcSendLoop` is its loop on the
answers that end a call; here a list of answers may also break off, and the call then asks
the socket again. A hard error is copied to the caller's pointer, which nearly every
caller leaves NULL.
-/

namespace HwPhoneLink.DFile

open BigEndian Path HwPhoneLink.Testfile

/-- What `g_socket_send` answers, and `g_poll` after it. -/
inductive DcAnswer : Type where
  /-- `n + 1` bytes, or all that is left. -/
  | accept (n : ℕ)
  /-- No byte and no error. -/
  | nothing
  | wouldBlock (writable : Bool)
  | error (message : String)
deriving DecidableEq, Repr

/-- Where a call stands after its answers. -/
inductive DcSendEnd : Type where
  | asking
  | returned (ok : Bool)
  | nullStore
deriving DecidableEq, Repr

/-- The bytes the socket takes from offset `sent` on, and where the call then stands. -/
def dcSendCall (hasError : Bool) (frame : Bytes) : ℕ → List DcAnswer → Bytes × DcSendEnd
  | sent, [] => ([], if sent < frame.length then .asking else .returned true)
  | sent, a :: answers =>
      if sent < frame.length then
        match a with
        | .accept n =>
            let w := (frame.drop sent).take (n + 1)
            let r := dcSendCall hasError frame (sent + w.length) answers
            (w ++ r.1, r.2)
        | .nothing => ([], .returned false)
        | .wouldBlock true => dcSendCall hasError frame sent answers
        -- `g_set_error_literal` does nothing for a NULL pointer
        | .wouldBlock false => ([], .returned false)
        | .error _ => ([], if hasError then .returned false else .nullStore)
      else ([], .returned true)

/-- The answers of a socket that ends the call. -/
def DcSocket.answers : DcSocket → List DcAnswer
  | .accept n next => .accept n :: next.answers
  | .wouldBlock next => .wouldBlock true :: next.answers
  | .interrupted => [.wouldBlock false]
  | .error message => [.error message]

/-! ## What a call does -/

section
variable {hasError : Bool} {frame : Bytes}

theorem dcSendCall_done {sent : ℕ} (hsent : frame.length ≤ sent) (answers : List DcAnswer) :
    dcSendCall hasError frame sent answers = ([], .returned true) := by
  cases answers with
  | nil => rw [dcSendCall, if_neg (Nat.not_lt.mpr hsent)]
  | cons a answers =>
      rcases a with n | _ | (_ | _) | message <;> rw [dcSendCall, if_neg (Nat.not_lt.mpr hsent)]

theorem accepted_length {sent n : ℕ} (hlt : sent < frame.length) :
    0 < ((frame.drop sent).take (n + 1)).length ∧
      sent + ((frame.drop sent).take (n + 1)).length ≤ frame.length := by
  rw [List.length_take, List.length_drop]
  omega

/-- What is accepted is the front of the rest, all of it when the call returns TRUE and
only then. -/
theorem dcSendCall_front (answers : List DcAnswer) : ∀ sent, sent ≤ frame.length →
    (dcSendCall hasError frame sent answers).1 <+: frame.drop sent ∧
      ((dcSendCall hasError frame sent answers).2 = .returned true ↔
        (dcSendCall hasError frame sent answers).1 = frame.drop sent) := by
  induction answers with
  | nil =>
      intro sent hsent
      refine ⟨List.nil_prefix, ?_⟩
      rw [dcSendCall, eq_comm (b := List.drop sent frame), List.drop_eq_nil_iff]
      split <;> simp <;> omega
  | cons a answers ih =>
      intro sent hsent
      rcases hsent.eq_or_lt with rfl | hlt
      · rw [dcSendCall_done (Nat.le_refl _), List.drop_length]
        exact ⟨List.nil_prefix, by simp⟩
      have hrest : frame.drop sent ≠ [] := by
        rw [Ne, List.drop_eq_nil_iff, Nat.not_le]
        exact hlt
      -- a call that stops here has taken less than the rest
      have hstop : ∀ e : DcSendEnd, e ≠ .returned true →
          ([] : Bytes) <+: frame.drop sent ∧ (e = .returned true ↔ [] = frame.drop sent) :=
        fun e he => ⟨List.nil_prefix, iff_of_false he (Ne.symm hrest)⟩
      rcases a with n | _ | (_ | _) | message <;> rw [dcSendCall, if_pos hlt]
      · obtain ⟨hpos, hle⟩ := accepted_length (n := n) hlt
        obtain ⟨hpre, hwhole⟩ := ih _ hle
        set w := (frame.drop sent).take (n + 1) with hw
        have hsplit : frame.drop sent = w ++ frame.drop (sent + w.length) := by
          rw [← List.drop_drop, hw, List.length_take]
          conv_lhs => rw [← List.take_append_drop (n + 1) (frame.drop sent)]
          rw [List.append_cancel_left_eq]
          rcases Nat.le_total (n + 1) (frame.drop sent).length with h | h
          · rw [Nat.min_eq_left h]
          · rw [Nat.min_eq_right h, List.drop_length, List.drop_eq_nil_iff.mpr h]
        constructor
        · rw [hsplit]
          exact (List.prefix_append_right_inj w).mpr hpre
        · rw [hsplit, List.append_cancel_left_eq]
          exact hwhole
      · exact hstop _ (by decide)
      · exact hstop _ (by decide)
      · exact ih sent hsent
      · apply hstop
        cases hasError <;> decide

/-! ## Hard errors -/

/-- The answers after which the loop goes on. -/
def DcAnswer.GoesOn : DcAnswer → Prop
  | .accept _ | .wouldBlock true => True
  | _ => False

/-- How many bytes an answer offers to take. -/
def DcAnswer.room : DcAnswer → ℕ
  | .accept n => n + 1
  | _ => 0

/-- A hard error is answered before `len` bytes are taken. -/
def HardError (len : ℕ) (answers : List DcAnswer) : Prop :=
  ∃ pre message post, answers = pre ++ .error message :: post ∧ (∀ a ∈ pre, a.GoesOn) ∧
    (pre.map DcAnswer.room).sum < len

theorem not_hardError_nil (len : ℕ) : ¬ HardError len [] := by
  rintro ⟨pre, message, post, h, -⟩
  simp at h

/-- A hard error comes first, or after an answer that the loop goes on from. -/
theorem hardError_cons {len : ℕ} {a : DcAnswer} {answers : List DcAnswer} :
    HardError len (a :: answers) ↔
      ((∃ message, a = .error message) ∧ 0 < len) ∨
        (a.GoesOn ∧ a.room < len ∧ HardError (len - a.room) answers) := by
  constructor
  · rintro ⟨pre, message, post, hsplit, hgo, hroom⟩
    cases pre with
    | nil =>
        obtain ⟨rfl, -⟩ := List.cons.inj hsplit
        exact Or.inl ⟨⟨message, rfl⟩, hroom⟩
    | cons b pre =>
        obtain ⟨rfl, rfl⟩ := List.cons.inj hsplit
        rw [List.map_cons, List.sum_cons] at hroom
        refine Or.inr ⟨hgo a List.mem_cons_self, by omega, pre, message, post, rfl, ?_, by omega⟩
        exact fun b hb => hgo b (List.mem_cons_of_mem a hb)
  · rintro (⟨⟨message, rfl⟩, hpos⟩ | ⟨hgo, hroom, pre, message, post, rfl, hpre, hsum⟩)
    · exact ⟨[], message, answers, rfl, fun b hb => absurd hb List.not_mem_nil, hpos⟩
    · refine ⟨a :: pre, message, post, rfl, ?_, ?_⟩
      · rintro b hb
        rcases List.mem_cons.mp hb with rfl | hb
        · exact hgo
        · exact hpre b hb
      · rw [List.map_cons, List.sum_cons]
        omega

/-- The call stores through its pointer exactly when that is NULL and a hard error
comes. -/
theorem dcSendCall_nullStore (answers : List DcAnswer) : ∀ sent, sent ≤ frame.length →
    ((dcSendCall hasError frame sent answers).2 = .nullStore ↔
      hasError = false ∧ HardError (frame.length - sent) answers) := by
  induction answers with
  | nil =>
      intro sent _
      rw [dcSendCall]
      refine iff_of_false ?_ fun h => not_hardError_nil _ h.2
      split <;> simp
  | cons a answers ih =>
      intro sent hsent
      rw [hardError_cons]
      rcases hsent.eq_or_lt with rfl | hlt
      · rw [dcSendCall_done (Nat.le_refl _), Nat.sub_self]
        simp
      have hleft : 0 < frame.length - sent := Nat.sub_pos_of_lt hlt
      rcases a with n | _ | (_ | _) | message <;> rw [dcSendCall, if_pos hlt]
      · obtain ⟨hpos, hle⟩ := accepted_length (n := n) hlt
        have hih := ih _ hle
        rw [List.length_take, List.length_drop] at hih hle
        simp only [List.length_take, List.length_drop, DcAnswer.GoesOn, DcAnswer.room, true_and,
          reduceCtorEq, exists_const, false_and, false_or]
        rcases Nat.lt_or_ge (n + 1) (frame.length - sent) with hn | hn
        · rw [Nat.min_eq_left (Nat.le_of_lt hn), Nat.sub_add_eq] at hih
          rw [Nat.min_eq_left (Nat.le_of_lt hn), hih]
          simp only [hn, true_and]
        · rw [Nat.min_eq_right hn] at hih ⊢
          rw [dcSendCall_done (by omega)]
          simp only [reduceCtorEq, false_iff]
          omega
      · simp [DcAnswer.GoesOn]
      · simp [DcAnswer.GoesOn]
      · simp only [ih sent hsent, DcAnswer.GoesOn, DcAnswer.room, Nat.sub_zero, hleft, true_and,
          reduceCtorEq, exists_const, false_and, false_or]
      · cases hasError <;> simp [hleft, DcAnswer.GoesOn]

end

/-! ## The calls of the engine -/

/-- The loop of the engine is a call with its socket's answers. -/
theorem dcSendLoop_call (hasError : Bool) (s : DcSocket) : ∀ (frame : Bytes) (sent : ℕ),
    sent ≤ frame.length →
    dcSendCall hasError frame sent s.answers =
      ((dcSendLoop s (frame.drop sent)).1,
        match (dcSendLoop s (frame.drop sent)).2 with
        | .sent => .returned true
        | .interrupted => .returned false
        | .error _ => if hasError then .returned false else .nullStore) := by
  induction s with
  | accept n next ih =>
      intro frame sent hsent
      rcases hsent.eq_or_lt with rfl | hlt
      · rw [dcSendCall_done (Nat.le_refl _), List.drop_length]
        rfl
      obtain ⟨-, hle⟩ := accepted_length (n := n) hlt
      rw [DcSocket.answers, dcSendCall, if_pos hlt]
      simp only [ih frame _ hle, ← List.drop_drop]
      cases hrest : frame.drop sent with
      | nil =>
          rw [List.drop_eq_nil_iff] at hrest
          omega
      | cons b bs =>
          have hdrop : (b :: bs).drop ((b :: bs).take (n + 1)).length = bs.drop n := by
            rw [List.length_take, List.length_cons]
            rcases Nat.le_total n bs.length with h | h
            · rw [Nat.min_eq_left (by omega), List.drop_succ_cons]
            · rw [Nat.min_eq_right (by omega), List.drop_succ_cons, List.drop_length,
                List.drop_eq_nil_iff.mpr h]
          rw [hdrop, dcSendLoop, List.take_succ_cons]
  | wouldBlock next ih =>
      intro frame sent hsent
      rcases hsent.eq_or_lt with rfl | hlt
      · rw [dcSendCall_done (Nat.le_refl _), List.drop_length]
        rfl
      rw [DcSocket.answers, dcSendCall, if_pos hlt]
      simp only [ih frame sent hsent]
      cases hrest : frame.drop sent with
      | nil =>
          rw [List.drop_eq_nil_iff] at hrest
          omega
      | cons b bs => rw [dcSendLoop]
  | interrupted =>
      intro frame sent hsent
      rcases hsent.eq_or_lt with rfl | hlt
      · rw [dcSendCall_done (Nat.le_refl _), List.drop_length]
        rfl
      rw [DcSocket.answers, dcSendCall, if_pos hlt]
      cases hrest : frame.drop sent with
      | nil =>
          rw [List.drop_eq_nil_iff] at hrest
          omega
      | cons b bs => rfl
  | error message =>
      intro frame sent hsent
      rcases hsent.eq_or_lt with rfl | hlt
      · rw [dcSendCall_done (Nat.le_refl _), List.drop_length]
        rfl
      rw [DcSocket.answers, dcSendCall, if_pos hlt]
      cases hrest : frame.drop sent with
      | nil =>
          rw [List.drop_eq_nil_iff] at hrest
          omega
      | cons b bs => rfl

/-- Without a hard error the process goes on after a call of the engine. -/
theorem dcSend_lives {env : DcEnv} {c : DFileConn} {frame : Bytes} (hopen : c.stopped = false)
    (hsoft : ¬ HardError frame.length (env.send c.out.length).answers) :
    (dcSend env c frame).1.crash = none := by
  have hlive : c.crash = none := by
    rw [DFileConn.stopped, Bool.or_eq_false_iff] at hopen
    simpa using hopen.1
  have hstore : (dcSendCall false frame 0 (env.send c.out.length).answers).2 ≠ .nullStore := by
    rw [Ne, dcSendCall_nullStore _ 0 (Nat.zero_le _)]
    exact fun h => hsoft h.2
  rw [dcSendLoop_call false _ frame 0 (Nat.zero_le _), List.drop_zero] at hstore
  simp only [dcSend, dcSendRaw, dcWrite, hopen, Bool.false_eq_true, if_false]
  cases hend : (dcSendLoop (env.send c.out.length) frame).2 with
  | sent => exact hlive
  | interrupted => exact hlive
  | error message =>
      rw [hend] at hstore
      exact absurd rfl hstore

/-! ## The contract -/

/-- What a caller of `dc_send` counts on. The engine's calls leave the pointer NULL; after a
failure they fail a transfer, or shut the connection down. -/
structure DcSendKept (hasError : Bool) (frame : Bytes) (answers : List DcAnswer) : Prop where
  front : (dcSendCall hasError frame 0 answers).1 <+: frame
  whole : (dcSendCall hasError frame 0 answers).2 = .returned true ↔
    (dcSendCall hasError frame 0 answers).1 = frame
  returns : (dcSendCall hasError frame 0 answers).2 ≠ .nullStore
  fails : hasError = false → ∀ env c isSender t why, c.stopped = false →
    (env.send c.out.length).answers = answers → c.trans isSender = some t →
    t.phase.terminal = false → (dcSend env c frame).2 = false →
    (dcSend env c frame).1.andThen (transFail env isSender why false) =
      ((dcSend env c frame).1.setTrans isSender { t with phase := .failed }).emit
        (.result isSender false why)
  closes : hasError = false → ∀ env c why, c.stopped = false →
    (env.send c.out.length).answers = answers →
    ((dcSend env c frame).1.andThen (shutdownCommon env why)).state = .closing

/-- **What `dc_send` keeps, and when.** -/
theorem dc_send_kept_iff (hasError : Bool) (frame : Bytes) (answers : List DcAnswer) :
    DcSendKept hasError frame answers ↔
      ¬ (hasError = false ∧ HardError frame.length answers) := by
  have hnull := @dcSendCall_nullStore hasError frame answers 0 (Nat.zero_le frame.length)
  rw [Nat.sub_zero] at hnull
  constructor
  · rintro hkept
    rw [← hnull]
    exact hkept.returns
  · rintro hsoft
    obtain ⟨hfront, hwhole⟩ :=
      @dcSendCall_front hasError frame answers 0 (Nat.zero_le frame.length)
    rw [List.drop_zero] at hfront hwhole
    constructor
    · exact hfront
    · exact hwhole
    · rw [Ne, hnull]
      exact hsoft
    · intro herr env c isSender t why hopen hanswers ht hphase _
      have hlive : (dcSend env c frame).1.crash = none :=
        dcSend_lives hopen fun h => hsoft ⟨herr, hanswers ▸ h⟩
      have ht' : (dcSend env c frame).1.trans isSender = some t := ht
      rw [DFileConn.andThen, hlive]
      exact transFail_plain ht' hphase hlive why
    · intro herr env c why hopen hanswers
      have hlive : (dcSend env c frame).1.crash = none :=
        dcSend_lives hopen fun h => hsoft ⟨herr, hanswers ▸ h⟩
      have hstate : (dcSend env c frame).1.state ≠ .closing := by
        rw [DFileConn.stopped, Bool.or_eq_false_iff, decide_eq_false_iff_not] at hopen
        exact hopen.2
      rw [DFileConn.andThen, hlive]
      show (shutdownCommon env why (dcSend env c frame).1).state = .closing
      rw [shutdownCommon, if_neg hstate]
      show (transFail env false why false (transFail env true why false _)).state = .closing
      rw [transFail_state, transFail_state]

/-- The first block of a file, while the peer resets the connection. -/
def resetBlock : Bytes :=
  (dfileEncodeData (dfileFrameMaxSize + 16) 1 dfileFlagDataEnd 1 0 (ascii "hi")).getD []

/-- `tx_pump` passes a NULL pointer, and the reset is stored through it. -/
theorem not_dc_send_kept_reset :
    ¬ DcSendKept false resetBlock
      [.accept 3, .wouldBlock true, .error "Connection reset by peer"] := by
  intro hkept
  exact hkept.returns (by decide)

end HwPhoneLink.DFile
