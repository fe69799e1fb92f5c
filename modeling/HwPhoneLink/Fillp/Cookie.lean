import HwPhoneLink.Fillp.Entry

/-!
# Cookies of the server

A server engine with the list of the cookies it has issued. A cookie names the
address it was made for and its life time, under the HMAC; `fp_handle_conn_confirm`
checks the HMAC only. `FpServer.admits_own_iff` says when the peers that open are
those the cookies were issued to, in time.
-/

namespace HwPhoneLink.Fillp

open BigEndian Transitions

/-- A cookie that went out in a CONN_REQ_ACK. -/
structure FpIssued where
  addr : FpAddr
  fields : FpCookieFields
  cookie : Bytes

/-- `issued` is a history. -/
structure FpServer where
  engine : FillpEngine
  issued : List FpIssued

def fpServerNew (port : UInt16) (macKey : Bytes) : FpServer where
  engine := fillpEngineNew port macKey
  issued := []

/-- The address as a cookie carries it. -/
def FpAddr.field (a : FpAddr) : Bytes := fillpAddrFillIpv4 a.port (putU32 a.ip)

/-- The fields that `fp_handle_conn_req` fills in for a new peer. -/
def fpCookieFor (env : FpEnv) (e : FillpEngine) (source : FpAddr) (r : FpConnReq) :
    FpCookieFields where
  genTimeUs := env.nowUs
  lifeTimeUs := fpCookieLifetimeUs +
    (if r.cookiePreserveTimeUs > fpPreserveMaxUs then fpPreserveMaxUs
     else r.cookiePreserveTimeUs)
  localPktSeq := env.rand1
  localMsgSeq := env.rand2
  remotePktSeq := 0
  remoteMsgSeq := 0
  remoteSendCache := r.sendCache
  remoteRecvCache := r.recvCache
  srcPort := e.port
  addrType := 2
  remoteAddr := source.field

section Server

-- HMAC-SHA256 of a message under a key
variable (hmacSha256 : Bytes → Bytes → Bytes)

/-- The cookie that an event makes the engine issue: a CONN_REQ from an unknown address. -/
def FillpEngine.issues (e : FillpEngine) : FpEngineEv → Option FpIssued
  | .datagram env source buf =>
      if e.closeInProgress = true ∨ fpTypeOf buf ≠ some .connReq ∨
          (e.peers.lookup source).isSome then none
      else (fillpDecodeConnReq buf).map fun r =>
        { addr := source, fields := fpCookieFor env e source r
          cookie := (fpServerPeer hmacSha256 env e source r).cookie }
  | _ => none

def FpServer.step (s : FpServer) (ev : FpEngineEv) : Option FpServer :=
  (s.engine.step hmacSha256 ev).map fun e =>
    { engine := e, issued := s.issued ++ (s.engine.issues hmacSha256 ev).toList }

/-! ## The cookies on record -/

/-- A cookie on record was made for its address, under the key of the engine. -/
structure FpIssued.Made (e : FillpEngine) (i : FpIssued) : Prop where
  cookie : i.cookie = fillpCookieFill hmacSha256 e.macKey i.fields e.localAddr
  remote : i.fields.remoteAddr = i.addr.field

def CookieInv (s : FpServer) : Prop := ∀ i ∈ s.issued, i.Made hmacSha256 s.engine

variable {hmacSha256}

theorem FillpEngine.issues_made {e : FillpEngine} {ev : FpEngineEv} {i : FpIssued}
    (h : e.issues hmacSha256 ev = some i) : i.Made hmacSha256 e := by
  cases ev with
  | datagram env source buf =>
      rw [FillpEngine.issues] at h
      split at h
      · cases h
      · obtain ⟨r, -, rfl⟩ := Option.map_eq_some_iff.mp h
        exact ⟨rfl, rfl⟩
  | tick env fills => cases h
  | connect env addr sendOk => cases h
  | send addr data => cases h
  | close env addr => cases h
  | shutdown => cases h

theorem FpIssued.Made.congr {e e' : FillpEngine} {i : FpIssued} (h : i.Made hmacSha256 e)
    (hs : e'.settings = e.settings) : i.Made hmacSha256 e' := by
  have hkey : e'.macKey = e.macKey := congrArg (fun c => c.2.1) hs
  have haddr : e'.localAddr = e.localAddr := congrArg (fun c => c.2.2) hs
  refine ⟨?_, h.remote⟩
  rw [hkey, haddr]
  exact h.cookie

theorem CookieInv.step {s s' : FpServer} {ev : FpEngineEv} (h : CookieInv hmacSha256 s)
    (hs : s.step hmacSha256 ev = some s') : CookieInv hmacSha256 s' := by
  obtain ⟨e, he, rfl⟩ := Option.map_eq_some_iff.mp hs
  have hsettings := FillpEngine.step_settings he
  intro i hi
  rcases List.mem_append.mp hi with hold | hnew
  · exact (h i hold).congr hsettings
  · exact (FillpEngine.issues_made (Option.mem_toList.mp hnew)).congr hsettings

/-! ## Reading a cookie back -/

theorem FpIssued.Made.verifies {e : FillpEngine} {i : FpIssued} (h : i.Made hmacSha256 e)
    (hlen : ∀ key message, (hmacSha256 key message).length = 32) :
    fillpCookieVerify hmacSha256 i.cookie e.macKey e.localAddr = true := by
  have hbody : (List.replicate 32 0 ++ i.fields.body).drop 32 = i.fields.body :=
    List.drop_left' (List.length_replicate)
  rw [fillpCookieVerify, h.cookie, fillpCookieFill, cookieHmac, cookieHmac, hbody,
    List.take_left' (hlen _ _), List.drop_left' (hlen _ _)]
  simp

/-- A verifying cookie is its body under the HMAC. -/
theorem fillpCookieVerify_eq {cookie macKey localAddr body : Bytes}
    (h : fillpCookieVerify hmacSha256 cookie macKey localAddr = true)
    (hbody : cookie.drop 32 = body) :
    cookie = hmacSha256 macKey (body ++ localAddr) ++ body := by
  rw [fillpCookieVerify, beq_iff_eq, cookieHmac, hbody] at h
  rw [← h, ← hbody, List.take_append_drop]

theorem FpIssued.Made.cookie_eq {e : FillpEngine} {i : FpIssued} (h : i.Made hmacSha256 e) :
    i.cookie = hmacSha256 e.macKey (i.fields.body ++ e.localAddr) ++ i.fields.body := by
  have hbody : (List.replicate 32 0 ++ i.fields.body).drop 32 = i.fields.body :=
    List.drop_left' (List.length_replicate)
  rw [h.cookie, fillpCookieFill, cookieHmac, hbody]

theorem FpCookieFields.body_genTimeUs (c : FpCookieFields) : u64At c.body 0 = c.genTimeUs := by
  unfold FpCookieFields.body
  simp only [List.append_assoc]
  exact u64At_zero _ _

theorem FpCookieFields.body_lifeTimeUs (c : FpCookieFields) :
    u32At c.body 16 = c.lifeTimeUs := by
  have hsplit : c.body = (putU64 c.genTimeUs ++ List.replicate 8 0) ++ (putU32 c.lifeTimeUs ++
      (putU32 c.localPktSeq ++ putU32 c.remotePktSeq ++ putU32 c.localMsgSeq ++
        putU32 c.remoteMsgSeq ++ putU32 c.remoteSendCache ++ putU32 c.remoteRecvCache ++
        putU16 c.srcPort ++ putU16 c.addrType ++ c.remoteAddr)) := by
    simp only [FpCookieFields.body, List.append_assoc]
  rw [hsplit]
  exact u32At_append _ _ _ (by simp)

theorem FpCookieFields.body_remoteAddr (c : FpCookieFields) : c.body.drop 48 = c.remoteAddr := by
  unfold FpCookieFields.body
  exact List.drop_left' (by simp)

theorem FpAddr.field_inj {a b : FpAddr} (h : a.field = b.field) : a = b := by
  have hport : ∀ c : FpAddr, u16At c.field 2 = c.port := by
    intro c
    unfold FpAddr.field fillpAddrFillIpv4
    rw [List.append_assoc, List.append_assoc]
    exact u16At_append _ _ _ (by simp)
  have hip : ∀ c : FpAddr, u32At c.field 4 = c.ip := by
    intro c
    unfold FpAddr.field fillpAddrFillIpv4
    rw [List.append_assoc]
    exact u32At_append _ _ _ (by simp)
  have hipEq : a.ip = b.ip := by rw [← hip a, h, hip b]
  have hportEq : a.port = b.port := by rw [← hport a, h, hport b]
  cases a
  cases b
  rw [FpAddr.mk.injEq]
  exact ⟨hipEq, hportEq⟩

/-- One cookie was made for one address, at one time. -/
theorem FpIssued.Made.unique {e : FillpEngine} {i j : FpIssued} (hi : i.Made hmacSha256 e)
    (hj : j.Made hmacSha256 e) (hlen : ∀ key message, (hmacSha256 key message).length = 32)
    (h : i.cookie = j.cookie) :
    i.addr = j.addr ∧ i.fields.genTimeUs = j.fields.genTimeUs ∧
      i.fields.lifeTimeUs = j.fields.lifeTimeUs := by
  rw [hi.cookie_eq, hj.cookie_eq] at h
  have hbody : i.fields.body = j.fields.body :=
    (List.append_inj h (by rw [hlen, hlen])).2
  refine ⟨?_, ?_, ?_⟩
  · apply FpAddr.field_inj
    rw [← hi.remote, ← hj.remote, ← FpCookieFields.body_remoteAddr, hbody,
      FpCookieFields.body_remoteAddr]
  · rw [← FpCookieFields.body_genTimeUs, hbody, FpCookieFields.body_genTimeUs]
  · rw [← FpCookieFields.body_lifeTimeUs, hbody, FpCookieFields.body_lifeTimeUs]

/-! ## Who opens -/

variable (hmacSha256) in
/-- **Unforgeable.** A cookie that verifies has the body of a cookie on record. -/
def Unforgeable (s : FpServer) (ev : FpEngineEv) : Prop :=
  ∀ env a buf c, ev = .datagram env a buf → fpTypeOf buf = some .connConfirm →
    fillpDecodeConnConfirm buf = some c →
    fillpCookieVerify hmacSha256 c.cookie s.engine.macKey s.engine.localAddr = true →
    ∃ i ∈ s.issued, i.fields.body = c.cookie.drop 32

/-- The cookie was issued to the address, and its life time has not passed. -/
def FpIssued.Good (i : FpIssued) (a : FpAddr) (env : FpEnv) : Prop :=
  i.addr = a ∧ i.fields.remoteAddr = a.field ∧
    env.nowUs.toNat ≤ i.fields.genTimeUs.toNat + i.fields.lifeTimeUs.toNat

variable (hmacSha256) in
/-- A server peer that opens in this step opens by a CONN_CONFIRM that echoes a cookie
on record for its address, in time. -/
def AdmitsOwn (s : FpServer) (ev : FpEngineEv) : Prop :=
  ∀ s', s.step hmacSha256 ev = some s' → ∀ a, s'.engine.ServerOpen a → ¬ s.engine.ServerOpen a →
    ∃ env buf c i, ev = .datagram env a buf ∧ fpTypeOf buf = some .connConfirm ∧
      fillpDecodeConnConfirm buf = some c ∧ i ∈ s.issued ∧ i.cookie = c.cookie ∧ i.Good a env

theorem AdmitsOwn.of_step {s : FpServer} {ev : FpEngineEv} (h : AdmitsOwn hmacSha256 s ev)
    {e : FillpEngine} (hs : s.engine.step hmacSha256 ev = some e) {a : FpAddr}
    (hafter : e.ServerOpen a) (hbefore : ¬ s.engine.ServerOpen a) :
    ∃ env buf c i, ev = .datagram env a buf ∧ fpTypeOf buf = some .connConfirm ∧
      fillpDecodeConnConfirm buf = some c ∧ i ∈ s.issued ∧ i.cookie = c.cookie ∧ i.Good a env :=
  h ⟨e, _⟩ (by rw [FpServer.step, hs, Option.map_some]) a hafter hbefore

/-- A server peer at this address waits for its CONN_CONFIRM. -/
def FillpEngine.Awaits (e : FillpEngine) (a : FpAddr) : Prop :=
  e.closeInProgress = false ∧
    ∃ p, e.peers.lookup a = some p ∧ p.isClient = false ∧ p.state = .pending

/-- No cookie of another address, and none whose life time has passed, comes in for
a server peer that waits. -/
def EchoesOwn (s : FpServer) (ev : FpEngineEv) : Prop :=
  ∀ env a buf c, ev = .datagram env a buf → fpTypeOf buf = some .connConfirm →
    fillpDecodeConnConfirm buf = some c → s.engine.Awaits a →
    ∀ i ∈ s.issued, i.cookie = c.cookie → i.addr = a ∧
      env.nowUs.toNat ≤ i.fields.genTimeUs.toNat + i.fields.lifeTimeUs.toNat

/-- The entry that a CONN_CONFIRM meets. -/
theorem FillpEngine.step_confirm {e e' : FillpEngine} {env : FpEnv} {a : FpAddr} {buf : Bytes}
    (hopen : e.closeInProgress = false) (htype : fpTypeOf buf = some .connConfirm)
    (hs : e.step hmacSha256 (.datagram env a buf) = some e') :
    e'.peers.lookup a =
      (e.peers.lookup a).map fun p => fpHandleConnConfirm hmacSha256 env e p buf := by
  rw [FillpEngine.step_lookup hopen hs a, fpEntryStep, if_pos rfl]
  cases e.peers.lookup a with
  | none => simp [fpEntryDatagram, fpAdmit, htype]
  | some p => simp [fpEntryDatagram, fpReceive, htype]

/-- Only a server peer that waits is opened. -/
theorem FillpEngine.ServerOpen.awaited {e e' : FillpEngine} {env : FpEnv} {a : FpAddr} {buf : Bytes}
    (htype : fpTypeOf buf = some .connConfirm)
    (hs : e.step hmacSha256 (.datagram env a buf) = some e') (hafter : e'.ServerOpen a)
    (hbefore : ¬ e.ServerOpen a) : e.Awaits a := by
  rcases hclose : e.closeInProgress with _ | _
  · obtain ⟨q, hq, hserver, hstate⟩ := hafter
    rw [FillpEngine.step_confirm hclose htype hs] at hq
    obtain ⟨p, hp, rfl⟩ := Option.map_eq_some_iff.mp hq
    have hisClient : p.isClient = false := by
      rcases hclient : p.isClient with _ | _
      · rfl
      · rw [fpHandleConnConfirm, if_pos hclient, hclient] at hserver
        cases hserver
    refine ⟨hclose, p, hp, hisClient, ?_⟩
    by_contra hpending
    by_cases hest : p.state = .established
    · exact hbefore ⟨p, hp, hisClient, hest⟩
    · rw [fpHandleConnConfirm, if_neg (by rw [hisClient]; decide), if_pos ⟨hpending, hest⟩] at hstate
      exact hest hstate
  · rw [FillpEngine.step, if_pos hclose] at hs
    cases hs
    exact absurd hafter hbefore

/-- A server peer that waits is opened by any cookie that verifies. -/
theorem FillpEngine.Awaits.opens {e e' : FillpEngine} {env : FpEnv} {a : FpAddr} {buf : Bytes}
    (h : e.Awaits a) (htype : fpTypeOf buf = some .connConfirm) {c : FpConnConfirm}
    (hc : fillpDecodeConnConfirm buf = some c)
    (hverify : fillpCookieVerify hmacSha256 c.cookie e.macKey e.localAddr = true)
    (hs : e.step hmacSha256 (.datagram env a buf) = some e') :
    e'.ServerOpen a ∧ ¬ e.ServerOpen a := by
  obtain ⟨hclose, p, hp, hserver, hpending⟩ := h
  constructor
  · refine ⟨_, by rw [FillpEngine.step_confirm hclose htype hs, hp]; rfl, ?_⟩
    simp [fpHandleConnConfirm, hserver, hpending, hc, hverify, fpSendto, fpPeerEstablished]
  · rintro ⟨q, hq, -, hest⟩
    rw [hp] at hq
    cases hq
    rw [hpending] at hest
    cases hest

theorem CookieInv.admitsOwn_iff {s : FpServer} {ev : FpEngineEv} (h : CookieInv hmacSha256 s)
    (hlen : ∀ key message, (hmacSha256 key message).length = 32)
    (hforge : Unforgeable hmacSha256 s ev) :
    AdmitsOwn hmacSha256 s ev ↔ EchoesOwn s ev := by
  constructor
  · rintro hadmits env a buf c rfl htype hc hawaits i hi hcookie
    have hverify := (h i hi).verifies hlen
    rw [hcookie] at hverify
    rcases he : s.engine.step hmacSha256 (.datagram env a buf) with _ | e'
    · rw [FillpEngine.step, hawaits.1] at he
      cases he
    obtain ⟨hafter, hbefore⟩ := hawaits.opens htype hc hverify he
    obtain ⟨env', buf', c', j, hev, -, hc', hj, hcookie', hgood⟩ :=
      hadmits.of_step he hafter hbefore
    cases hev
    rw [hc] at hc'
    cases hc'
    obtain ⟨haddr, hgen, hlife⟩ := (h i hi).unique (h j hj) hlen (hcookie.trans hcookie'.symm)
    rw [haddr, hgen, hlife]
    exact ⟨hgood.1, hgood.2.2⟩
  · intro hechoes s' hs a hafter hbefore
    obtain ⟨e', he, rfl⟩ := Option.map_eq_some_iff.mp hs
    rcases FillpEngine.ServerOpen.of_step he hafter with hopen | hconfirms
    · exact absurd hopen hbefore
    obtain ⟨env, buf, c, rfl, htype, hc, hverify⟩ := hconfirms
    have hawaits := FillpEngine.ServerOpen.awaited htype he hafter hbefore
    obtain ⟨i, hi, hbody⟩ := hforge env a buf c rfl htype hc hverify
    have hcookie : i.cookie = c.cookie := by
      rw [(h i hi).cookie_eq, fillpCookieVerify_eq hverify hbody.symm]
    obtain ⟨haddr, htime⟩ := hechoes env a buf c rfl htype hc hawaits i hi hcookie
    refine ⟨env, buf, c, i, rfl, htype, hc, hi, hcookie, haddr, ?_, htime⟩
    rw [(h i hi).remote, haddr]

/-- **Cookies admit their own addresses.** Along a run of a server engine whose HMAC
is not forged, every server peer that opens has echoed a cookie issued to its address
whose life time has not passed, if and only if no other cookie of this engine comes
in for a server peer that waits. -/
theorem FpServer.admits_own_iff (hlen : ∀ key message, (hmacSha256 key message).length = 32)
    (port : UInt16) (macKey : Bytes) {evs : List FpEngineEv}
    (hforge : Meets (FpServer.step hmacSha256) (Unforgeable hmacSha256)
      (fpServerNew port macKey) evs) :
    Meets (FpServer.step hmacSha256) (AdmitsOwn hmacSha256) (fpServerNew port macKey) evs ↔
      Meets (FpServer.step hmacSha256) EchoesOwn (fpServerNew port macKey) evs := by
  apply meets_congr (CookieInv hmacSha256)
  · intro s ev s' hs _ hstep
    exact hs.step hstep
  · intro s ev hs hgiven
    exact hs.admitsOwn_iff hlen hgiven
  · intro i hi
    cases hi
  · exact hforge

end Server

/-! ## Two clients -/

/-- A second client, on port 10. -/
def secondAddr : FpAddr := ⟨0, 10⟩

/-- The HMAC under the zero key of the cookies for ports 9 and 10. -/
def twoHmac (key message : Bytes) : Bytes :=
  if u16At message 50 = 9 then strayHmac key message
  else [167, 107, 27, 111, 211, 211, 79, 153, 148, 73, 247, 4, 248, 233, 239, 215,
    201, 109, 86, 57, 234, 220, 236, 137, 59, 156, 241, 106, 100, 42, 252, 185]

/-- The cookie for port 9. -/
def strayCookie : Bytes :=
  (fpServerPeer twoHmac strayEnv strayEngine strayAddr ⟨0, 0, 0, 0⟩).cookie

def strayConfirm : Bytes :=
  (fillpEncodeConnConfirm (fillpHlen + fillpConnConfirmLen) 1 strayCookie
    strayEngine.localAddr).getD []

/-- The engine as `fillp_engine_new` leaves it. -/
def strayServer : FpServer := fpServerNew 5000 (List.replicate 32 0)

theorem twoHmac_length (key message : Bytes) : (twoHmac key message).length = 32 := by
  unfold twoHmac strayHmac
  split <;> rfl

/-- A test for `Unforgeable`. -/
def onRecord (s : FpServer) : FpEngineEv → Bool
  | .datagram _ _ buf => (fillpDecodeConnConfirm buf).all fun c =>
      s.issued.any fun i => i.fields.body == c.cookie.drop 32
  | _ => true

theorem onRecord_unforgeable (s : FpServer) (ev : FpEngineEv) (h : onRecord s ev = true) :
    Unforgeable twoHmac s ev := by
  rintro env a buf c rfl - hc -
  rw [onRecord, hc, Option.all_some, List.any_eq_true] at h
  obtain ⟨i, hi, hbody⟩ := h
  exact ⟨i, hi, beq_iff_eq.mp hbody⟩

/-- A test for `EchoesOwn`. -/
def echoes (s : FpServer) : FpEngineEv → Bool
  | .datagram env a buf => (fillpDecodeConnConfirm buf).all fun c => s.issued.all fun i =>
      i.cookie != c.cookie || (decide (i.addr = a) &&
        decide (env.nowUs.toNat ≤ i.fields.genTimeUs.toNat + i.fields.lifeTimeUs.toNat))
  | _ => true

theorem echoes_echoesOwn (s : FpServer) (ev : FpEngineEv) (h : echoes s ev = true) :
    EchoesOwn s ev := by
  rintro env a buf c rfl - hc - i hi hcookie
  rw [echoes, hc, Option.all_some, List.all_eq_true] at h
  have hi := h i hi
  simpa [hcookie] using hi

/-- The client on port 9 asks and confirms with its own cookie. -/
theorem FpServer.admits_own_first :
    Meets (FpServer.step twoHmac) (AdmitsOwn twoHmac) strayServer
      [.datagram strayEnv strayAddr strayConnReq, .datagram strayEnv strayAddr strayConfirm] :=
  (FpServer.admits_own_iff twoHmac_length 5000 (List.replicate 32 0)
    (meets_of_test onRecord_unforgeable _ (by decide +kernel))).mpr
    (meets_of_test echoes_echoesOwn _ (by decide +kernel))

/-- The engine after the CONN_REQs of both clients. -/
def strayPair : FpServer where
  engine := fpHandleDatagram twoHmac strayEnv
    (fpHandleDatagram twoHmac strayEnv strayEngine strayAddr strayConnReq) secondAddr strayConnReq
  issued := [⟨strayAddr, fpCookieFor strayEnv strayEngine strayAddr ⟨0, 0, 0, 0⟩, strayCookie⟩,
    ⟨secondAddr, fpCookieFor strayEnv strayEngine secondAddr ⟨0, 0, 0, 0⟩,
      (fpServerPeer twoHmac strayEnv strayEngine secondAddr ⟨0, 0, 0, 0⟩).cookie⟩]

/-- **A borrowed cookie opens.** Both clients ask, and the client on port 10 confirms
with the cookie for port 9. -/
theorem FpServer.not_admits_own_second :
    ¬ Meets (FpServer.step twoHmac) (AdmitsOwn twoHmac) strayServer
      [.datagram strayEnv strayAddr strayConnReq, .datagram strayEnv secondAddr strayConnReq,
        .datagram strayEnv secondAddr strayConfirm] := by
  intro hadmits
  have hthird : AdmitsOwn twoHmac strayPair (.datagram strayEnv secondAddr strayConfirm) :=
    ((hadmits.2 _ rfl).2 _ rfl).1
  have hawaits : strayPair.engine.Awaits secondAddr := by
    have hpeer : (strayPair.engine.peers.lookup secondAddr).map
        (fun p => (p.isClient, p.state)) = some (false, .pending) := by decide +kernel
    obtain ⟨p, hp, hp'⟩ := Option.map_eq_some_iff.mp hpeer
    exact ⟨by decide +kernel, p, hp, congrArg Prod.fst hp', congrArg Prod.snd hp'⟩
  have hecho : (fillpDecodeConnConfirm strayConfirm).map FpConnConfirm.cookie =
      some strayCookie := by decide +kernel
  obtain ⟨c, hc, hcookie⟩ := Option.map_eq_some_iff.mp hecho
  have hverify : fillpCookieVerify twoHmac c.cookie strayPair.engine.macKey
      strayPair.engine.localAddr = true := by
    rw [hcookie]
    decide +kernel
  have htype : fpTypeOf strayConfirm = some .connConfirm := by decide +kernel
  have hstep : strayPair.engine.step twoHmac (.datagram strayEnv secondAddr strayConfirm) =
      some (fpHandleDatagram twoHmac strayEnv strayPair.engine secondAddr strayConfirm) := by
    rw [FillpEngine.step, hawaits.1]
    rfl
  obtain ⟨hafter, hbefore⟩ := hawaits.opens htype hc hverify hstep
  obtain ⟨env, buf, c', i, hev, -, hc', hi, hsame, haddr, -⟩ :=
    hthird.of_step hstep hafter hbefore
  cases hev
  rw [hc] at hc'
  cases hc'
  have hall : ∀ j ∈ strayPair.issued, j.cookie = strayCookie → j.addr ≠ secondAddr :=
    List.forall_mem_cons.mpr ⟨by decide +kernel, List.forall_mem_singleton.mpr (by decide +kernel)⟩
  exact hall i hi (hsame.trans hcookie) haddr

end HwPhoneLink.Fillp
