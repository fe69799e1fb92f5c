import HwPhoneLink.Fillp.Close

/-!
# Runs of one peer

A peer on its own, from its creation until the tick finalizes it: any calls of
the application, any ticks, any datagrams. A step is a call of the send function,
the pump, the data plane, or it leaves the data plane alone (`fpPeerStep_cases`).
-/

namespace HwPhoneLink.Fillp

open BigEndian Transitions

inductive FpPeerEv : Type where
  | send (data : Bytes)
  | close (env : FpEnv)
  | tick (env : FpEnv) (fill : Option FpFill)
  | datagram (env : FpEnv) (buf : Bytes)

section Step

-- the keys and the address of the engine that owns the peer
variable (hmacSha256 : Bytes → Bytes → Bytes) (e : FillpEngine)

/-- A peer that has been finalized takes no further step. -/
def fpPeerStep (p : FillpPeer) : FpPeerEv → Option FillpPeer
  | .send data => some (fillpPeerSend p data)
  | .close env => some (fpPeerRequestClose env p)
  | .tick env fill =>
      let r := fpTickPeer env e.localAddr fill p
      if r.2 then none else some r.1
  | .datagram env buf => some (fpReceive hmacSha256 env e p buf)

end Step

/-! ## Steps that leave the data plane alone -/

/-- Handshake fields, state and stage clock may change, and datagrams that are not of
the data plane may be sent. -/
structure SamePlane (p p' : FillpPeer) : Prop where
  fields : p' = { p with
    state := p'.state, tStageMs := p'.tStageMs, cookie := p'.cookie, hsTag := p'.hsTag
    hsConfirmSent := p'.hsConfirmSent, tHsRetransMs := p'.tHsRetransMs, sent := p'.sent
    wasEstablished := p'.wasEstablished }
  sent : ∃ ds, p'.sent = p.sent ++ ds ∧ ∀ d ∈ ds, fpTypeOf d ≠ some .data
  closing : p.state = .closing → p'.state = .closing

theorem SamePlane.refl (p : FillpPeer) : SamePlane p p :=
  ⟨rfl, ⟨[], by simp, by simp⟩, fun h => h⟩

theorem SamePlane.sameSnd {p p' : FillpPeer} (h : SamePlane p p') : SameSnd p p' := by
  obtain ⟨hfields, hsent, -⟩ := h
  constructor
  · rw [hfields]
  · rw [hfields]
  · rw [hfields]
  · rw [hfields]
  · rw [hfields]
  · rw [hfields]
  · rw [hfields]
  · exact hsent

theorem fpPeerRequestClose_samePlane (env : FpEnv) (p : FillpPeer) :
    SamePlane p (fpPeerRequestClose env p) := by
  have hsent := (fpPeerRequestClose_sameSnd env p).sent
  unfold fpPeerRequestClose at *
  split
  · exact .refl p
  rename_i hopen
  rw [if_neg hopen] at hsent
  simp only at hsent ⊢
  split
  · rename_i hest
    rw [if_pos hest] at hsent
    exact ⟨rfl, hsent, fun _ => rfl⟩
  · rename_i hest
    rw [if_neg hest] at hsent
    exact ⟨rfl, hsent, fun _ => rfl⟩

theorem fpHandleConnReqAck_samePlane (env : FpEnv) (localAddr : Bytes) (p : FillpPeer)
    (buf : Bytes) : SamePlane p (fpHandleConnReqAck env localAddr p buf) := by
  unfold fpHandleConnReqAck
  split
  · exact .refl p
  split
  · exact .refl p
  · exact ⟨rfl, ⟨_, rfl, by simp [fillpEncodeConnConfirm]⟩, fun h => h⟩

theorem fpHandleConnConfirm_samePlane (hmacSha256 : Bytes → Bytes → Bytes) (env : FpEnv)
    (e : FillpEngine) (p : FillpPeer) (buf : Bytes) :
    SamePlane p (fpHandleConnConfirm hmacSha256 env e p buf) := by
  unfold fpHandleConnConfirm
  split
  · exact .refl p
  split
  · exact .refl p
  rename_i hopen
  split
  · exact .refl p
  split
  · have hclosing : p.state ≠ .closing := by
      intro hc
      exact hopen (by simp [hc])
    simp only
    split
    · exact ⟨rfl, ⟨_, rfl, by simp [fillpEncodeConnConfirmAck]⟩, fun h => absurd h hclosing⟩
    · exact ⟨rfl, ⟨_, rfl, by simp [fillpEncodeConnConfirmAck]⟩, fun h => h⟩
  · exact fpPeerRequestClose_samePlane env p

theorem fpHandleConnConfirmAck_samePlane (env : FpEnv) (p : FillpPeer) (buf : Bytes) :
    SamePlane p (fpHandleConnConfirmAck env p buf) := by
  unfold fpHandleConnConfirmAck
  split
  · exact .refl p
  rename_i hpending
  push Not at hpending
  split
  · exact .refl p
  · refine ⟨rfl, ⟨[], by simp [fpPeerEstablished], by simp⟩, ?_⟩
    intro hc
    rw [hpending.1] at hc
    cases hc

/-- A datagram of the data plane, or a handshake message. -/
theorem fpReceive_cases (hmacSha256 : Bytes → Bytes → Bytes) (env : FpEnv) (e : FillpEngine)
    (p : FillpPeer) (buf : Bytes) :
    fpReceive hmacSha256 env e p buf = fpDataPlane env p buf ∨
      fpTypeOf buf ≠ some .pack ∧ SamePlane p (fpReceive hmacSha256 env e p buf) := by
  unfold fpReceive
  split
  · rename_i htype
    right
    refine ⟨by rw [htype]; simp, ?_⟩
    split
    · exact .refl p
    split
    · exact ⟨rfl, ⟨_, rfl, by simp [fillpEncodeConnReqAck]⟩, fun h => h⟩
    · exact .refl p
  · rename_i htype
    exact .inr ⟨by rw [htype]; simp, fpHandleConnReqAck_samePlane env e.localAddr p buf⟩
  · rename_i htype
    exact .inr ⟨by rw [htype]; simp, fpHandleConnConfirm_samePlane hmacSha256 env e p buf⟩
  · rename_i htype
    exact .inr ⟨by rw [htype]; simp, fpHandleConnConfirmAck_samePlane env p buf⟩
  · exact .inl rfl
  · rename_i htype
    exact .inr ⟨by rw [htype]; simp, .refl p⟩

/-- The tick pumps an open peer, and looks after the handshake of a pending one. -/
theorem fpTickPeer_cases (env : FpEnv) (localAddr : Bytes) (fill : Option FpFill)
    (p : FillpPeer) :
    (p.state = .established ∨ p.state = .closing) ∧
        (fpTickPeer env localAddr fill p).1 = fpPump env fill p ∨
      SamePlane p (fpTickPeer env localAddr fill p).1 := by
  unfold fpTickPeer
  split
  · right
    split
    · exact fpPeerRequestClose_samePlane env p
    split
    · simp only
      split
      · exact ⟨rfl, ⟨_, rfl, by simp [fillpEncodeConnConfirm]⟩, fun h => h⟩
      · exact ⟨rfl, ⟨_, rfl, by simp [fillpEncodeConnReq]⟩, fun h => h⟩
    · exact .refl p
  · exact .inr (.refl p)
  · rename_i hpending hclosed
    left
    refine ⟨?_, rfl⟩
    cases hstate : p.state with
    | pending => exact absurd hstate hpending
    | established => exact .inl rfl
    | closing => exact .inr rfl
    | closed => exact absurd hstate hclosed

/-- **What one step can do.** -/
theorem fpPeerStep_cases {hmacSha256 : Bytes → Bytes → Bytes} {e : FillpEngine}
    {p p' : FillpPeer} {ev : FpPeerEv} (h : fpPeerStep hmacSha256 e p ev = some p') :
    (∃ data, ev = .send data ∧ p' = fillpPeerSend p data) ∨
      (∃ env fill, ev = .tick env fill ∧ (p.state = .established ∨ p.state = .closing) ∧
        p' = fpPump env fill p) ∨
      (∃ env buf, ev = .datagram env buf ∧ p' = fpDataPlane env p buf) ∨
      (∀ env buf, ev = .datagram env buf → fpTypeOf buf ≠ some .pack) ∧ SamePlane p p' := by
  cases ev with
  | send data =>
      cases h
      exact .inl ⟨data, rfl, rfl⟩
  | close env =>
      cases h
      exact .inr (.inr (.inr ⟨by rintro env' buf ⟨⟩, fpPeerRequestClose_samePlane env p⟩))
  | tick env fill =>
      simp only [fpPeerStep] at h
      split at h
      · cases h
      · cases h
        rcases fpTickPeer_cases env e.localAddr fill p with ⟨hopen, hpump⟩ | hsame
        · exact .inr (.inl ⟨env, fill, rfl, hopen, hpump⟩)
        · exact .inr (.inr (.inr ⟨by rintro env' buf ⟨⟩, hsame⟩))
  | datagram env buf =>
      cases h
      rcases fpReceive_cases hmacSha256 env e p buf with hplane | ⟨htype, hsame⟩
      · exact .inr (.inr (.inl ⟨env, buf, rfl, hplane⟩))
      · refine .inr (.inr (.inr ⟨?_, hsame⟩))
        rintro env' buf' ⟨⟩
        exact htype

/-- A moment, for runs on fixed inputs. -/
def runEnv : FpEnv where
  now := 100
  nowUs := 100000
  rand1 := 0
  rand2 := 0

/-! ## The send side along a run -/

theorem fpPeerStep_sndInv {hmacSha256 : Bytes → Bytes → Bytes} {e : FillpEngine}
    {p p' : FillpPeer} {ev : FpPeerEv} (h : SndInv p)
    (hs : fpPeerStep hmacSha256 e p ev = some p') : SndInv p' := by
  rcases fpPeerStep_cases hs with ⟨data, -, rfl⟩ | ⟨env, fill, -, -, rfl⟩ | ⟨env, buf, -, rfl⟩ |
    ⟨-, hsame⟩
  · exact fillpPeerSend_sndInv h data
  · exact fpPump_sndInv h env fill
  · exact fpDataPlane_sndInv h env buf
  · exact h.congr hsame.sameSnd

theorem StartingPeer.sndInv {p : FillpPeer} (h : StartingPeer p) : SndInv p := (h.half p).snd

/-- **The send side is in order in every run**, whatever the datagrams say. -/
theorem fpPeerRun_sndInv {hmacSha256 : Bytes → Bytes → Bytes} {e : FillpEngine}
    {p p' : FillpPeer} {es : List FpPeerEv} (h : StartingPeer p)
    (hrun : run (fpPeerStep hmacSha256 e) p es = some p') : SndInv p' := by
  refine run_inv_all SndInv ?_ h.sndInv hrun
  intro q ev q' hq hs
  exact fpPeerStep_sndInv hq hs

end HwPhoneLink.Fillp
