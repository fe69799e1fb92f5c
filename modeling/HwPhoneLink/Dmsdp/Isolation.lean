import HwPhoneLink.Dmsdp.Daemon

/-!
# Sessions beside each other

What a session sees of the daemon is `Daemon.view`. As long as every NoCrypto
frame meets the client of its own session behind the pointer, each session runs
as if it were alone.
-/

namespace HwPhoneLink.Dmsdp

open BigEndian Transitions HwPhoneLink.Remote HwPhoneLink.Softbus
open HwPhoneLink.Testfile (ascii)

/-! ## Clients behind pointers -/

theorem storeAt_self (clients : List DmsdpClient) (q : Option ℕ) :
    storeAt clients q (q.bind fun k => clients[k]?) = clients := by
  cases q with
  | none => rfl
  | some k =>
      show storeAt clients (some k) clients[k]? = clients
      cases hk : clients[k]? with
      | none => rfl
      | some c =>
          obtain ⟨hlt, rfl⟩ := List.getElem?_eq_some_iff.mp hk
          exact List.set_getElem_self hlt

theorem storeAt_other (clients : List DmsdpClient) {q : Option ℕ} {k : ℕ} (h : q ≠ some k)
    (c : Option DmsdpClient) : (storeAt clients q c)[k]? = clients[k]? := by
  unfold storeAt
  split
  · rename_i j c
    exact List.getElem?_set_ne (fun heq => h (congrArg some heq))
  · rfl

theorem storeAt_length (clients : List DmsdpClient) (q : Option ℕ) (c : Option DmsdpClient) :
    (storeAt clients q c).length = clients.length := by
  unfold storeAt
  split
  · exact List.length_set
  · rfl

/-! ## One callback -/

/-- What a callback does to the clients with pointer `q`, and what it does with the
session's `own` one. -/
structure Callback (clients : List DmsdpClient) (q own : Option ℕ)
    (r r₀ : SoftbusAuth × DmsdpPlane × Bool) : Prop where
  auth : r.1 = r₀.1
  made : r.2.2 = r₀.2.2
  sends : r.2.1.sends = r₀.2.1.sends
  /-- A new client, the same in both. -/
  fresh : r₀.2.2 = true → ∃ c, r.2.1.client = some c ∧ r₀.2.1.client = some c
  /-- No new client: only the session's own one changes. -/
  kept : r₀.2.2 = false →
    (own.bind fun k => (storeAt clients q r.2.1.client)[k]?) = r₀.2.1.client
  other : r₀.2.2 = false → ∀ k, own ≠ some k →
    (storeAt clients q r.2.1.client)[k]? = clients[k]?

section
variable {crypto : SoftbusCrypto} {json : JsonGlib} {config : DaemonConfig} {env : DaemonEnv}
  {data : Bytes} {auth : SoftbusAuth} {d d' : Daemon} {i : ℕ}

/-- The session's own client is behind the pointer. -/
theorem Daemon.callback_own (d : Daemon) {own : Option ℕ}
    (hown : ∀ {k}, own = some k → k < d.clients.length) :
    Callback d.clients own own
      (onSessionData crypto json config env data auth ⟨d.clientAt own, false, false, []⟩)
      (onSessionData crypto json config env data auth ⟨d.clientAt own, false, false, []⟩) where
  auth := rfl
  made := rfl
  sends := rfl
  fresh := fun hmade => by
    obtain ⟨c, hc⟩ := onSessionData_client (Or.inl hmade)
    exact ⟨c, hc, hc⟩
  kept := fun hnot => by
    cases own with
    | none => exact (onSessionData_none rfl hnot).symm
    | some k =>
        have hlt := hown rfl
        have hat : d.clientAt (some k) = some d.clients[k] := List.getElem?_eq_getElem hlt
        rw [hat]
        have hkept : ∃ c, (onSessionData crypto json config env data auth
            ⟨some d.clients[k], false, false, []⟩).2.1.client = some c :=
          onSessionData_client (Or.inr (Option.some_ne_none _))
        obtain ⟨c, hc⟩ := hkept
        rw [hc]
        exact List.getElem?_set_self hlt
  other := fun _ k hk => storeAt_other _ hk _

/-- The client behind the pointer does not matter. -/
theorem Daemon.callback_other (d : Daemon) (q own : Option ℕ)
    (hindep : auth.state = .done → dmsdpNocrypto data = none) :
    Callback d.clients q own
      (onSessionData crypto json config env data auth ⟨d.clientAt q, false, false, []⟩)
      (onSessionData crypto json config env data auth ⟨d.clientAt own, false, false, []⟩) := by
  have hat : ∀ pointer, onSessionData crypto json config env data auth
      ⟨d.clientAt pointer, false, false, []⟩ =
        let r := onSessionData crypto json config env data auth ⟨none, false, false, []⟩
        (r.1, { r.2.1 with client := if r.2.2 then r.2.1.client else d.clientAt pointer }, r.2.2) :=
    fun pointer => onSessionData_indep (p := ⟨none, false, false, []⟩) hindep (d.clientAt pointer)
  have hfresh : (onSessionData crypto json config env data auth
      ⟨none, false, false, []⟩).2.2 = true → ∃ c, (onSessionData crypto json config env data auth
        ⟨none, false, false, []⟩).2.1.client = some c :=
    fun hmade => onSessionData_client (Or.inl hmade)
  rw [hat q, hat own]
  generalize onSessionData crypto json config env data auth ⟨none, false, false, []⟩ = r at hfresh ⊢
  refine ⟨rfl, rfl, rfl, fun hmade => ?_, fun hnot => ?_, fun hnot k _ => ?_⟩
  · obtain ⟨c, hc⟩ := hfresh hmade
    exact ⟨c, (if_pos hmade).trans hc, (if_pos hmade).trans hc⟩
  · have hnot : r.2.2 = false := hnot
    simp only [hnot, Bool.false_eq_true, if_false]
    have hstore : storeAt d.clients q (d.clientAt q) = d.clients := storeAt_self d.clients q
    rw [hstore]
    rfl
  · have hnot : r.2.2 = false := hnot
    simp only [hnot, Bool.false_eq_true, if_false]
    have hstore : storeAt d.clients q (d.clientAt q) = d.clients := storeAt_self d.clients q
    rw [hstore]

end

/-! ## The state of the daemon -/

/-- Pointers are to clients that exist, and no client has been made by two sessions. -/
structure Daemon.Wf (d : Daemon) : Prop where
  pointer : ∀ {k}, d.dmsdpCl = some k → k < d.clients.length
  mine : ∀ {i s k}, d.sessions i = some s → s.client = some k → k < d.clients.length
  apart : ∀ {i j s t k}, d.sessions i = some s → d.sessions j = some t → s.client = some k →
    t.client = some k → i = j

theorem daemonNew_wf : daemonNew.Wf where
  pointer := fun h => by cases h
  mine := fun h => by cases h
  apart := fun h => by cases h

/-- A NoCrypto frame of an authenticated session meets the session's own client. -/
def Daemon.OwnClient (d : Daemon) (e : ℕ × SessionEv) : Prop :=
  match e.2 with
  | .opened _ _ _ => True
  | .data _ data => ∀ s, d.sessions e.1 = some s → s.auth.state = .done →
      dmsdpNocrypto data ≠ none → d.dmsdpCl = s.client

section
variable {crypto : SoftbusCrypto} {json : JsonGlib} {config : DaemonConfig} {env : DaemonEnv}
  {data : Bytes} {d d' : Daemon} {i : ℕ}

theorem Daemon.callback (hwf : d.Wf) {s : DaemonSession} (hs : d.sessions i = some s)
    (hok : d.OwnClient (i, .data env data)) :
    Callback d.clients d.dmsdpCl s.client
      (onSessionData crypto json config env data s.auth ⟨d.clientAt d.dmsdpCl, false, false, []⟩)
      (onSessionData crypto json config env data s.auth ⟨d.clientAt s.client, false, false, []⟩) := by
  by_cases hmine : d.dmsdpCl = s.client
  · rw [hmine]
    exact d.callback_own (hwf.mine hs)
  · refine d.callback_other d.dmsdpCl s.client (fun hdone => ?_)
    by_contra hframe
    exact hmine (hok s hs hdone hframe)

theorem Daemon.view_some {s : DaemonSession} (hs : d.sessions i = some s) :
    d.view i = some ⟨s.auth, d.clientAt s.client, s.turns⟩ := by
  rw [Daemon.view, hs]
  rfl

theorem Daemon.view_none (hs : d.sessions i = none) : d.view i = none := by
  rw [Daemon.view, hs]
  rfl

/-- What a session sees depends on its record and its client. -/
theorem Daemon.view_congr {j : ℕ} (hs : d'.sessions j = d.sessions j)
    (hc : ∀ s k, d.sessions j = some s → s.client = some k → d'.clients[k]? = d.clients[k]?) :
    d'.view j = d.view j := by
  cases hj : d.sessions j with
  | none => rw [Daemon.view_none hj, Daemon.view_none (hs.trans hj)]
  | some s =>
      rw [Daemon.view_some hj, Daemon.view_some (hs.trans hj)]
      have hat : d'.clientAt s.client = d.clientAt s.client := by
        cases hk : s.client with
        | none => rfl
        | some k => exact hc s k hj hk
      rw [hat]

theorem Daemon.turned_session (d : Daemon) (i : ℕ) (s : DaemonSession) (data : Bytes)
    (r : SoftbusAuth × DmsdpPlane × Bool) :
    ∃ t, (d.turned i s data r).sessions i = some t ∧
      t.client = if r.2.2 then some d.clients.length else s.client := by
  refine ⟨_, Function.update_self .., ?_⟩
  rfl

theorem Daemon.turned_other (d : Daemon) {j : ℕ} (hj : j ≠ i) (s : DaemonSession) (data : Bytes)
    (r : SoftbusAuth × DmsdpPlane × Bool) : (d.turned i s data r).sessions j = d.sessions j :=
  Function.update_of_ne hj ..

/-- The clients of before keep their place. -/
theorem Daemon.turned_length (d : Daemon) (i : ℕ) (s : DaemonSession) (data : Bytes)
    {r : SoftbusAuth × DmsdpPlane × Bool} (hfresh : r.2.2 = true → ∃ c, r.2.1.client = some c) :
    (d.turned i s data r).clients.length = d.clients.length + if r.2.2 then 1 else 0 := by
  unfold Daemon.turned
  cases hmade : r.2.2 with
  | false => exact storeAt_length ..
  | true =>
      obtain ⟨c, hc⟩ := hfresh hmade
      simp only [if_true, hc, Option.toList_some, List.length_append, List.length_singleton]

section
variable {s : DaemonSession} {r r₀ : SoftbusAuth × DmsdpPlane × Bool}
  (hcb : Callback d.clients d.dmsdpCl s.client r r₀)
include hcb

theorem Callback.fresh' (hmade : r.2.2 = true) : ∃ c, r.2.1.client = some c := by
  obtain ⟨c, hc, -⟩ := hcb.fresh (hcb.made ▸ hmade)
  exact ⟨c, hc⟩

theorem Daemon.turned_wf (hwf : d.Wf) (hs : d.sessions i = some s) :
    (d.turned i s data r).Wf := by
  have hlen := d.turned_length i s data hcb.fresh'
  obtain ⟨t₀, ht₀, hclient⟩ := d.turned_session i s data r
  -- the client of a session of afterwards
  have hafter : ∀ {j t k}, (d.turned i s data r).sessions j = some t → t.client = some k →
      (r.2.2 = true ∧ j = i ∧ k = d.clients.length) ∨
        ∃ t', d.sessions j = some t' ∧ t'.client = some k := by
    intro j t k ht hk
    by_cases hj : j = i
    · subst hj
      obtain rfl : t₀ = t := Option.some.inj (ht₀.symm.trans ht)
      rw [hclient] at hk
      cases hmade : r.2.2 with
      | true =>
          rw [hmade, if_pos rfl, Option.some.injEq] at hk
          exact Or.inl ⟨rfl, rfl, hk.symm⟩
      | false =>
          rw [hmade] at hk
          exact Or.inr ⟨s, hs, hk⟩
    · rw [d.turned_other hj] at ht
      exact Or.inr ⟨t, ht, hk⟩
  constructor
  · intro k hk
    rw [hlen]
    change (if r.2.2 = true then some d.clients.length else d.dmsdpCl) = some k at hk
    split at hk
    · rename_i hmade
      cases hk
      rw [if_pos hmade]
      exact Nat.lt_succ_self _
    · exact Nat.lt_add_right _ (hwf.pointer hk)
  · intro j t k ht hk
    rw [hlen]
    rcases hafter ht hk with ⟨hmade, -, rfl⟩ | ⟨t', ht', hk'⟩
    · rw [if_pos hmade]
      exact Nat.lt_succ_self _
    · exact Nat.lt_add_right _ (hwf.mine ht' hk')
  · intro j j' t t' k ht ht' hk hk'
    rcases hafter ht hk with ⟨-, rfl, rfl⟩ | ⟨u, hu, huk⟩
    · rcases hafter ht' hk' with ⟨-, rfl, -⟩ | ⟨u', hu', huk'⟩
      · rfl
      · exact absurd (hwf.mine hu' huk') (Nat.lt_irrefl _)
    · rcases hafter ht' hk' with ⟨-, -, rfl⟩ | ⟨u', hu', huk'⟩
      · exact absurd (hwf.mine hu huk) (Nat.lt_irrefl _)
      · exact hwf.apart hu hu' huk huk'

/-- The session of the callback goes on as with its own client. -/
theorem Daemon.turned_view :
    (d.turned i s data r).view i =
      some ⟨r₀.1, r₀.2.1.client, s.turns ++ [⟨(d.clientAt s.client).map DmsdpClient.state, data,
        r₀.2.1.sends, r₀.2.1.client.map DmsdpClient.state⟩]⟩ := by
  have hclient : ((if r.2.2 = true then some d.clients.length else s.client).bind fun k =>
      (if r.2.2 = true then d.clients ++ r.2.1.client.toList
        else storeAt d.clients d.dmsdpCl r.2.1.client)[k]?) = r₀.2.1.client := by
    cases hmade : r.2.2 with
    | true =>
        obtain ⟨c, hc, hc₀⟩ := hcb.fresh (hcb.made ▸ hmade)
        rw [if_pos rfl, if_pos rfl, hc, hc₀]
        exact List.getElem?_concat_length
    | false => exact hcb.kept (hcb.made ▸ hmade)
  rw [Daemon.view_some (Function.update_self ..)]
  simp only [Option.some.injEq, SessionView.mk.injEq]
  refine ⟨hcb.auth, hclient, ?_⟩
  rw [hclient, hcb.sends]

/-- The other sessions see nothing of it. -/
theorem Daemon.turned_view_other (hwf : d.Wf) (hs : d.sessions i = some s) {j : ℕ} (hj : j ≠ i) :
    (d.turned i s data r).view j = d.view j := by
  refine Daemon.view_congr (d.turned_other hj s data r) (fun t k ht hk => ?_)
  cases hmade : r.2.2 with
  | true =>
      change (if r.2.2 = true then d.clients ++ r.2.1.client.toList
        else storeAt d.clients d.dmsdpCl r.2.1.client)[k]? = d.clients[k]?
      rw [if_pos hmade]
      exact List.getElem?_append_left (hwf.mine ht hk)
  | false =>
      change (if r.2.2 = true then d.clients ++ r.2.1.client.toList
        else storeAt d.clients d.dmsdpCl r.2.1.client)[k]? = d.clients[k]?
      rw [if_neg (by rw [hmade]; exact Bool.false_ne_true)]
      exact hcb.other (hcb.made ▸ hmade) k (fun hown => hj (hwf.apart ht hs hk hown))

end

/-- A callback of session `i` is seen by this session only. -/
structure Isolated (crypto : SoftbusCrypto) (json : JsonGlib) (config : DaemonConfig)
    (d d' : Daemon) (i : ℕ) (e : SessionEv) : Prop where
  wf : d'.Wf
  own : SessionView.step crypto json config (d.view i) e = some (d'.view i)
  others : ∀ j, j ≠ i → d'.view j = d.view j

theorem Daemon.step_cases {e : SessionEv} (hstep : d.step crypto json config (i, e) = some d') :
    (∃ env authId nonce, e = .opened env authId nonce ∧ d.sessions i = none ∧
        d' = d.entered i (onSessionOpened json config env authId nonce)) ∨
      (∃ env data s, e = .data env data ∧ d.sessions i = some s ∧
        d' = d.turned i s data (onSessionData crypto json config env data s.auth
          ⟨d.clientAt d.dmsdpCl, false, false, []⟩)) := by
  cases e with
  | opened env authId nonce =>
      cases hs : d.sessions i with
      | none =>
          simp only [Daemon.step, hs, Option.some.injEq] at hstep
          exact Or.inl ⟨env, authId, nonce, rfl, rfl, hstep.symm⟩
      | some s => simp only [Daemon.step, hs, reduceCtorEq] at hstep
  | data env data =>
      cases hs : d.sessions i with
      | none => simp only [Daemon.step, hs, reduceCtorEq] at hstep
      | some s =>
          simp only [Daemon.step, hs, Option.some.injEq] at hstep
          exact Or.inr ⟨env, data, s, rfl, rfl, hstep.symm⟩

theorem Daemon.entered_self (d : Daemon) (i : ℕ)
    (r : SoftbusAuth × List (DaemonSend × Bool)) :
    (d.entered i r).sessions i = some ⟨r.1, none, [⟨none, [], r.2, none⟩]⟩ :=
  Function.update_self ..

theorem Daemon.entered_other (d : Daemon) {j : ℕ} (hj : j ≠ i)
    (r : SoftbusAuth × List (DaemonSend × Bool)) : (d.entered i r).sessions j = d.sessions j :=
  Function.update_of_ne hj ..

/-- A session that is opened has no client yet. -/
theorem Daemon.entered_session (d : Daemon) {j k : ℕ} {t : DaemonSession}
    (r : SoftbusAuth × List (DaemonSend × Bool)) (ht : (d.entered i r).sessions j = some t)
    (hk : t.client = some k) : d.sessions j = some t := by
  by_cases hj : j = i
  · subst hj
    rw [d.entered_self j r, Option.some.injEq] at ht
    subst ht
    cases hk
  · exact (d.entered_other hj r).symm.trans ht

theorem Daemon.entered_wf (hwf : d.Wf) (r : SoftbusAuth × List (DaemonSend × Bool)) :
    (d.entered i r).Wf where
  pointer := fun hk => hwf.pointer hk
  mine := fun ht hk => hwf.mine (d.entered_session r ht hk) hk
  apart := fun ht ht' hk hk' =>
    hwf.apart (d.entered_session r ht hk) (d.entered_session r ht' hk') hk hk'

theorem Daemon.step_isolated {e : SessionEv} (hwf : d.Wf) (hok : d.OwnClient (i, e))
    (hstep : d.step crypto json config (i, e) = some d') :
    Isolated crypto json config d d' i e := by
  rcases Daemon.step_cases hstep with
    ⟨env, authId, nonce, rfl, hs, rfl⟩ | ⟨env, data, s, rfl, hs, rfl⟩
  · constructor
    · exact Daemon.entered_wf hwf _
    · rw [Daemon.view_none hs, Daemon.view_some (d.entered_self i _)]
      rfl
    · intro j hj
      exact Daemon.view_congr (d.entered_other hj _) (fun _ _ _ _ => rfl)
  · have hcb : Callback d.clients d.dmsdpCl s.client
        (onSessionData crypto json config env data s.auth ⟨d.clientAt d.dmsdpCl, false, false, []⟩)
        (onSessionData crypto json config env data s.auth ⟨d.clientAt s.client, false, false, []⟩) :=
      Daemon.callback hwf hs hok
    constructor
    · exact Daemon.turned_wf hcb hwf hs
    · rw [Daemon.view_some hs, Daemon.turned_view hcb]
      rfl
    · intro j hj
      exact Daemon.turned_view_other hcb hwf hs hj

/-! ## A session on its own -/

/-- The events of session `i`. -/
def eventsOf (i : ℕ) (es : List (ℕ × SessionEv)) : List SessionEv :=
  (es.filter fun e => e.1 = i).map Prod.snd

theorem eventsOf_self (i : ℕ) (e : SessionEv) (es : List (ℕ × SessionEv)) :
    eventsOf i ((i, e) :: es) = e :: eventsOf i es := by
  simp only [eventsOf, decide_true, List.filter_cons_of_pos, List.map_cons]

theorem eventsOf_other {i j : ℕ} (hj : j ≠ i) (e : SessionEv) (es : List (ℕ × SessionEv)) :
    eventsOf i ((j, e) :: es) = eventsOf i es := by
  simp only [eventsOf, hj, decide_false, Bool.false_eq_true, not_false_eq_true,
    List.filter_cons_of_neg]

theorem eventsOf_map (i : ℕ) (es : List (ℕ × SessionEv)) :
    (eventsOf i es).map (fun e => (i, e)) = es.filter fun e => e.1 = i := by
  rw [eventsOf, List.map_map]
  conv_rhs => rw [← List.map_id (es.filter fun e => e.1 = i)]
  refine List.map_congr_left (fun e he => ?_)
  obtain rfl : e.1 = i := of_decide_eq_true (List.mem_filter.mp he).2
  rfl

/-- **Run lemma.** The events of the other sessions do not show. -/
theorem Daemon.run_view (i : ℕ) {es : List (ℕ × SessionEv)} : ∀ {d d' : Daemon}, d.Wf →
    Meets (Daemon.step crypto json config) Daemon.OwnClient d es →
    run (Daemon.step crypto json config) d es = some d' →
    run (SessionView.step crypto json config) (d.view i) (eventsOf i es) = some (d'.view i) := by
  induction es with
  | nil =>
      intro d d' _ _ hrun
      cases hrun
      rfl
  | cons e es ih =>
      intro d d' hwf hmeets hrun
      obtain ⟨d₁, hstep, hrest⟩ := run_cons_eq_some hrun
      obtain ⟨j, e⟩ := e
      have hiso := Daemon.step_isolated hwf hmeets.1 hstep
      have htail := ih hiso.wf (hmeets.2 d₁ hstep) hrest
      by_cases hj : j = i
      · subst hj
        rw [eventsOf_self, run_cons, hiso.own]
        exact htail
      · rw [eventsOf_other hj, ← hiso.others i (Ne.symm hj)]
        exact htail

/-- No session but `i`, and its client is the one behind the pointer. -/
structure Daemon.Alone (i : ℕ) (d : Daemon) : Prop where
  wf : d.Wf
  before : d.sessions i = none → d.dmsdpCl = none
  own : ∀ s, d.sessions i = some s → d.dmsdpCl = s.client

theorem daemonNew_alone (i : ℕ) : daemonNew.Alone i where
  wf := daemonNew_wf
  before := fun _ => rfl
  own := fun s hs => by cases hs

theorem Daemon.Alone.ownClient (h : d.Alone i) (e : SessionEv) : d.OwnClient (i, e) := by
  cases e with
  | opened env authId nonce => trivial
  | data env data => exact fun s hs _ _ => h.own s hs

theorem Daemon.Alone.step {e : SessionEv} (h : d.Alone i)
    (hstep : d.step crypto json config (i, e) = some d') : d'.Alone i := by
  have hwf := (Daemon.step_isolated h.wf (h.ownClient e) hstep).wf
  rcases Daemon.step_cases hstep with
    ⟨env, authId, nonce, rfl, hs, rfl⟩ | ⟨env, data, s, rfl, hs, rfl⟩
  · refine ⟨hwf, fun hnone => ?_, fun t ht => ?_⟩
    · rw [d.entered_self i] at hnone
      cases hnone
    · rw [d.entered_self i, Option.some.injEq] at ht
      subst ht
      exact h.before hs
  · obtain ⟨t₀, ht₀, hclient⟩ := d.turned_session i s data (onSessionData crypto json config env
      data s.auth ⟨d.clientAt d.dmsdpCl, false, false, []⟩)
    refine ⟨hwf, fun hnone => ?_, fun t ht => ?_⟩
    · rw [ht₀] at hnone
      cases hnone
    · rw [ht₀, Option.some.injEq] at ht
      subst ht
      rw [hclient, ← h.own s hs]
      rfl

/-- Whether a callback can come is seen by the session. -/
theorem Daemon.step_enabled {e : SessionEv} {v : Option SessionView}
    (hv : SessionView.step crypto json config (d.view i) e = some v) :
    ∃ d', d.step crypto json config (i, e) = some d' := by
  cases hs : d.sessions i with
  | none =>
      rw [Daemon.view_none hs] at hv
      cases e with
      | opened env authId nonce =>
          exact ⟨d.entered i (onSessionOpened json config env authId nonce), by
            simp only [Daemon.step, hs]⟩
      | data env data => cases hv
  | some s =>
      rw [Daemon.view_some hs] at hv
      cases e with
      | opened env authId nonce => cases hv
      | data env data =>
          exact ⟨d.turned i s data (onSessionData crypto json config env data s.auth
            ⟨d.clientAt d.dmsdpCl, false, false, []⟩), by simp only [Daemon.step, hs]⟩

theorem Daemon.run_alone (i : ℕ) {es : List SessionEv} : ∀ {d : Daemon} {v : Option SessionView},
    d.Alone i → run (SessionView.step crypto json config) (d.view i) es = some v →
    ∃ d', run (Daemon.step crypto json config) d (es.map fun e => (i, e)) = some d' ∧
      d'.view i = v := by
  induction es with
  | nil =>
      intro d v _ hrun
      cases hrun
      exact ⟨d, rfl, rfl⟩
  | cons e es ih =>
      intro d v h hrun
      obtain ⟨w, hw, hrest⟩ := run_cons_eq_some hrun
      obtain ⟨d₁, hd₁⟩ := Daemon.step_enabled hw
      have hview := (Daemon.step_isolated h.wf (h.ownClient e) hd₁).own
      obtain rfl : w = d₁.view i := Option.some.inj (hw.symm.trans hview)
      obtain ⟨d', hrun', hd'⟩ := ih (h.step hd₁) hrest
      refine ⟨d', ?_, hd'⟩
      rw [List.map_cons, run_cons, hd₁]
      exact hrun'

/-- **Sessions do not interfere** in a run in which every NoCrypto frame of an
authenticated session meets the session's own client: each session has sent what
it would have sent without the others, and its client is where it would be. -/
theorem Daemon.view_eq_alone {es : List (ℕ × SessionEv)} {d : Daemon}
    (hrun : run (Daemon.step crypto json config) daemonNew es = some d)
    (hown : Meets (Daemon.step crypto json config) Daemon.OwnClient daemonNew es) (i : ℕ) :
    ∃ d₁, run (Daemon.step crypto json config) daemonNew (es.filter fun e => e.1 = i) = some d₁ ∧
      d₁.view i = d.view i := by
  rw [← eventsOf_map i es]
  exact Daemon.run_alone i (daemonNew_alone i) (Daemon.run_view i daemonNew_wf hown hrun)

end

/-! ### Two phones -/

def setupReply : Bytes := ascii "DMSDP/1.0 200 OK\r\nCSeq: 0\r\n\r\n"

/-- A text as a NoCrypto frame. -/
def nocryptoFrame (text : Bytes) : Bytes :=
  dmsdpFrameTypeNocrypto :: putU16 (UInt16.ofNat text.length) ++ text

def pcConfig : DaemonConfig := ⟨⟨some (ascii "pc"), none, 0⟩, ascii "shared", 54323⟩

/-- Every send succeeds. -/
def pcEnv : DaemonEnv := ⟨exchangeEnv, fun _ => true⟩

/-- A phone opens session `i` and authenticates. -/
def authenticate (i : ℕ) : List (ℕ × SessionEv) :=
  [(i, .opened pcEnv 5 pcNonce), (i, .data pcEnv (jsonObjectText (deviceIdMsg "phone"))),
    (i, .data pcEnv (jsonObjectText (authResponse plainSig)))]

def reply (i : ℕ) (text : Bytes) : ℕ × SessionEv := (i, .data pcEnv (nocryptoFrame text))

/-- Where the clients of the sessions stand after a run. -/
def clientStates (es : List (ℕ × SessionEv)) (i : ℕ) : Option DmsdpClientState :=
  (run (Daemon.step exchangeCrypto exchangeJson pcConfig) daemonNew es).bind fun d =>
    (d.view i).bind fun v => v.client.map DmsdpClient.state

/-- A test for `Daemon.OwnClient`. -/
def ownClientTest (d : Daemon) (e : ℕ × SessionEv) : Bool :=
  match e.2 with
  | .opened _ _ _ => true
  | .data _ data => (d.sessions e.1).all fun s =>
      s.auth.state ≠ .done || (dmsdpNocrypto data).isNone || d.dmsdpCl = s.client

theorem ownClient_of_test (d : Daemon) (e : ℕ × SessionEv) (h : ownClientTest d e = true) :
    d.OwnClient e := by
  obtain ⟨i, e⟩ := e
  cases e with
  | opened env authId nonce => trivial
  | data env data =>
      intro s hs hdone hframe
      simp only [ownClientTest, hs, Option.all_some, Bool.or_eq_true, decide_eq_true_eq,
        Option.isNone_iff_eq_none] at h
      rcases h with (hstate | hnone) | hown
      · exact absurd hdone hstate
      · exact absurd hnone hframe
      · exact hown

/-- The phones one after the other. -/
def inTurn : List (ℕ × SessionEv) :=
  authenticate 0 ++ [reply 0 setupReply, reply 0 playReply] ++
    (authenticate 1 ++ [reply 1 setupReply])

/-- The second phone authenticates before the first one has answered its SETUP. -/
def crossed : List (ℕ × SessionEv) :=
  authenticate 0 ++ authenticate 1 ++ [reply 0 setupReply]

/-- With the phones one after the other, the first is ready and the second plays. -/
theorem Daemon.view_eq_alone_inTurn :
    ∃ d, run (Daemon.step exchangeCrypto exchangeJson pcConfig) daemonNew inTurn = some d ∧
      clientStates inTurn 0 = some .ready ∧ clientStates inTurn 1 = some .waitPlayReply ∧
      ∃ d₁, run (Daemon.step exchangeCrypto exchangeJson pcConfig) daemonNew
          (inTurn.filter fun e => e.1 = 0) = some d₁ ∧ d₁.view 0 = d.view 0 := by
  obtain ⟨d, hrun, -⟩ := Option.bind_eq_some_iff.mp (show clientStates inTurn 0 = some .ready by
    decide +kernel)
  exact ⟨d, hrun, by decide +kernel, by decide +kernel,
    Daemon.view_eq_alone hrun (meets_of_test ownClient_of_test _ (by decide +kernel)) 0⟩

/-- **A reply to one session's SETUP is taken by the client of another session.** -/
theorem Daemon.not_view_eq_alone :
    ¬ ∀ crypto json config es d, run (Daemon.step crypto json config) daemonNew es = some d →
      ∀ i, ∃ d₁, run (Daemon.step crypto json config) daemonNew
        (es.filter fun e => e.1 = i) = some d₁ ∧ d₁.view i = d.view i := by
  intro h
  obtain ⟨d, hrun, hview⟩ := Option.bind_eq_some_iff.mp
    (show clientStates crossed 0 = some .waitSetupReply by decide +kernel)
  obtain ⟨d₁, hrun₁, hview₁⟩ := h exchangeCrypto exchangeJson pcConfig crossed d hrun 0
  have halone : clientStates (crossed.filter fun e => e.1 = 0) 0 = some .waitPlayReply := by
    decide +kernel
  rw [clientStates, hrun₁, Option.bind_some, hview₁, hview] at halone
  cases halone

end HwPhoneLink.Dmsdp
