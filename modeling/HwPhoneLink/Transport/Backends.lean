import HwPhoneLink.Lib.Transitions
import HwPhoneLink.Transport.Infra
import Mathlib.Data.List.Count

/-!
# Start and stop of the SoftAP and P2P backends

`softap_backend.c` and `p2p_backend.c`. What a call gets from the system is in its environment:
whether a file is written, a process spawned, a netlink message sent. Netlink answers are not
read, so a message that is sent may still have done nothing.
-/

namespace HwPhoneLink.Transport

open Transitions

/-! ## Calls of a transport -/

/-- What a start makes; a process is given by its pid. -/
inductive TransportResource : Type where
  | apInterface | address | natRules
  | process (pid : ℕ)
deriving DecidableEq, Repr

/-- TRUE, or FALSE with the error "Already running", or FALSE with another error. -/
inductive StartResult : Type where
  | started | alreadyRunning | failed
deriving DecidableEq, Repr

/-- The virtual methods, for calls with environments in `α` and `β`. A stop returns TRUE. `held`
is a history: what starts have made and nothing has taken away since. -/
structure HwPhoneLinkTransportClass (σ α β : Type) where
  start : α → σ → σ × StartResult
  stop : β → σ → σ
  getState : σ → HwPhoneLinkState
  held : σ → List TransportResource

inductive TransportCall (α β : Type) : Type where
  | start (env : α)
  | stop (env : β)

section
variable {σ α β : Type} (klass : HwPhoneLinkTransportClass σ α β)

def HwPhoneLinkTransportClass.step (s : σ) : TransportCall α β → Option σ
  | .start env => some (klass.start env s).1
  | .stop env => some (klass.stop env s)

/-- No call is in progress. -/
def Settled (state : HwPhoneLinkState) : Prop :=
  state = .stopped ∨ state = .running ∨ state = .error

/-- What a call leaves behind: a settled state; at a start that returns FALSE nothing that was
not held before; at a stop a transport that can be started again. -/
def Settles (s : σ) : TransportCall α β → Prop
  | .start env =>
      Settled (klass.getState (klass.start env s).1) ∧
        ((klass.start env s).2 ≠ .started →
          ∀ r, (klass.held (klass.start env s).1).count r ≤ (klass.held s).count r)
  | .stop env =>
      Settled (klass.getState (klass.stop env s)) ∧
        ∀ env', (klass.start env' (klass.stop env s)).2 ≠ .alreadyRunning

/-- A condition on the starts of a run. -/
def AtStart (fits : σ → α → Prop) (s : σ) (c : TransportCall α β) : Prop :=
  ∀ env, c = .start env → fits s env

theorem Settles.settled {s s' : σ} {c : TransportCall α β} (h : Settles klass s c)
    (hstep : klass.step s c = some s') : Settled (klass.getState s') := by
  cases c with
  | start env =>
      cases hstep
      exact h.1
  | stop env =>
      cases hstep
      exact h.1

/-- **From calls to runs.** -/
theorem meets_settles_iff {fits : σ → α → Prop}
    (hiff : ∀ s c, Settled (klass.getState s) → (Settles klass s c ↔ AtStart fits s c))
    {s : σ} (hs : Settled (klass.getState s)) (cs : List (TransportCall α β)) :
    Meets klass.step (Settles klass) s cs ↔ Meets klass.step (AtStart fits) s cs := by
  constructor
  · intro h
    refine (meets_congr (fun t => Settled (klass.getState t)) ?_ ?_ hs h).mp h
    · exact fun t c t' _ hc hstep => hc.settled klass hstep
    · exact fun t c ht _ => hiff t c ht
  · intro h
    refine (meets_congr (fun t => Settled (klass.getState t)) ?_ ?_ hs h).mpr h
    · exact fun t c t' ht hc hstep => ((hiff t c ht).mpr hc).settled klass hstep
    · exact fun t c ht _ => hiff t c ht

end

/-! ## Netlink -/

/-- A request: whether it is built and sent, and whether the kernel does it. -/
structure NlRequest where
  sent : Bool
  done : Bool
deriving DecidableEq, Repr

/-- The link cache is filled when the handle is made and never again, so that waiting for the
interface does not find it later than at once. -/
def nlWaitInterface (linkCached shouldExist : Bool) : Bool := linkCached == shouldExist

def nlSetInterfaceUp (linkCached changed : Bool) : Bool := linkCached && changed

/-- `hw_phone_link_nl_add_ip_address` and `hw_phone_link_nl_remove_ip_address` -/
def nlIpAddress (linkCached : Bool) (req : NlRequest) : Bool := linkCached && req.sent

/-! ## SoftAP -/

/-- `linkCached` tells whether the link cache has the AP interface. -/
structure SoftapBackend where
  linkCached : Bool
  hostapdPid : ℕ
  dnsmasqProc : Option ℕ
  dnsmasqPid : ℕ
  state : HwPhoneLinkState
  held : List TransportResource
deriving DecidableEq, Repr

def softapBackendNew (linkCached : Bool) : SoftapBackend :=
  { linkCached := linkCached, hostapdPid := 0, dnsmasqProc := none, dnsmasqPid := 0
    state := .stopped, held := [] }

/-- `hostapdDaemon` is the daemon that the spawned `hostapd -B` leaves behind. The pid files are
what is read of them, for hostapd from a path that is freed already. -/
structure SoftapStartEnv where
  mkdir : Bool
  createAp : NlRequest
  linkUp : Bool
  addAddress : NlRequest
  hostapdConf : Bool
  dnsmasqConf : Bool
  hostapdSpawn : Bool
  hostapdDaemon : Option ℕ
  hostapdPidFile : Option ℕ
  dnsmasqSpawn : Option ℕ
  dnsmasqPidFile : Option ℕ
  nat : Bool
deriving DecidableEq, Repr

structure SoftapStopEnv where
  natDeleted : Bool
  removeAddress : NlRequest
  deleteAp : NlRequest
deriving DecidableEq, Repr

namespace SoftapBackend

def make (b : SoftapBackend) (done : Bool) (r : TransportResource) : SoftapBackend :=
  if done then { b with held := r :: b.held } else b

def drop (b : SoftapBackend) (done : Bool) (r : TransportResource) : SoftapBackend :=
  if done then { b with held := b.held.erase r } else b

/-- `_stop_process`; SIGKILL is not survived. -/
def stopProcess (b : SoftapBackend) (pid : ℕ) : SoftapBackend :=
  if pid > 0 then { b with held := b.held.erase (.process pid) } else b

def startHostapd (env : SoftapStartEnv) (b : SoftapBackend) : SoftapBackend × Bool :=
  if !env.hostapdSpawn then (b, false)
  else
    let b :=
      match env.hostapdDaemon with
      | some pid => { b with held := .process pid :: b.held }
      | none => b
    ({ b with hostapdPid := env.hostapdPidFile.getD b.hostapdPid }, true)

def startDnsmasq (env : SoftapStartEnv) (b : SoftapBackend) : SoftapBackend × Bool :=
  match env.dnsmasqSpawn with
  | none => (b, false)
  | some pid =>
      ({ b with
          dnsmasqProc := some pid
          dnsmasqPid := env.dnsmasqPidFile.getD b.dnsmasqPid
          held := .process pid :: b.held }, true)

/-- The part of the start behind the configuration files. `_write_psk_file` does nothing. -/
def startDaemons (env : SoftapStartEnv) (b : SoftapBackend) : SoftapBackend × StartResult :=
  match startHostapd env b with
  | (b, false) => ({ b with state := .error }, .failed)
  | (b, true) =>
      match startDnsmasq env b with
      | (b, false) => ({ b.stopProcess b.hostapdPid with hostapdPid := 0, state := .error }, .failed)
      | (b, true) => ({ b.make env.nat .natRules with state := .running }, .started)

/-- The part of the start before the daemons. The result of `nmcli` is not looked at. -/
def startSetup (env : SoftapStartEnv) (b : SoftapBackend) : SoftapBackend × Bool :=
  if !env.mkdir then (b, false)
  else if !env.createAp.sent then (b, false)
  else
    let b := b.make env.createAp.done .apInterface
    if !nlWaitInterface b.linkCached true then (b, false)
    else if !nlSetInterfaceUp b.linkCached env.linkUp then (b, false)
    else if !nlIpAddress b.linkCached env.addAddress then (b, false)
    else
      let b := b.make env.addAddress.done .address
      if !env.hostapdConf then (b, false)
      else if !env.dnsmasqConf then (b, false)
      else (b, true)

def start (env : SoftapStartEnv) (b : SoftapBackend) : SoftapBackend × StartResult :=
  if b.state ≠ .stopped then (b, .alreadyRunning)
  else
    match startSetup env { b with state := .starting } with
    | (b, false) => (b, .failed)
    | (b, true) => startDaemons env b

/-- Errors are not looked at. The address goes with its interface. -/
def stop (env : SoftapStopEnv) (b : SoftapBackend) : SoftapBackend :=
  if b.state = .stopped ∨ b.state = .stopping then b
  else
    let b := { b with state := .stopping }
    let b :=
      match b.dnsmasqProc with
      | some pid => { b with held := b.held.erase (.process pid), dnsmasqProc := none }
      | none => b
    let b := { b.stopProcess b.dnsmasqPid with dnsmasqPid := 0 }
    let b := { b.stopProcess b.hostapdPid with hostapdPid := 0 }
    let b := b.drop env.natDeleted .natRules
    let b := b.drop (nlIpAddress b.linkCached env.removeAddress && env.removeAddress.done) .address
    let b := b.drop (env.deleteAp.sent && env.deleteAp.done) .apInterface
    let b := b.drop (env.deleteAp.sent && env.deleteAp.done) .address
    { b with state := .stopped }

end SoftapBackend

def softapBackendClass : HwPhoneLinkTransportClass SoftapBackend SoftapStartEnv SoftapStopEnv where
  start := SoftapBackend.start
  stop := SoftapBackend.stop
  getState := SoftapBackend.state
  held := SoftapBackend.held

/-! ## P2P -/

structure P2PBackend where
  wpaSupplicantProc : Option ℕ
  state : HwPhoneLinkState
  held : List TransportResource
deriving DecidableEq, Repr

def p2pBackendNew : P2PBackend := ⟨none, .stopped, []⟩

structure P2PStartEnv where
  conf : Bool
  spawn : Option ℕ
deriving DecidableEq, Repr

namespace P2PBackend

def start (env : P2PStartEnv) (b : P2PBackend) : P2PBackend × StartResult :=
  if b.state ≠ .stopped then (b, .alreadyRunning)
  else
    let b := { b with state := .starting }
    if !env.conf then (b, .failed)
    else
      match env.spawn with
      | none => (b, .failed)
      | some pid =>
          ({ wpaSupplicantProc := some pid, state := .running, held := .process pid :: b.held },
            .started)

def stop (b : P2PBackend) : P2PBackend :=
  if b.state = .stopped then b
  else
    let b :=
      match b.wpaSupplicantProc with
      | some pid => { b with wpaSupplicantProc := none, held := b.held.erase (.process pid) }
      | none => b
    { b with state := .stopped }

end P2PBackend

def p2pBackendClass : HwPhoneLinkTransportClass P2PBackend P2PStartEnv Unit where
  start := P2PBackend.start
  stop := fun _ => P2PBackend.stop
  getState := P2PBackend.state
  held := P2PBackend.held

/-! ## When a start fits -/

/-- What comes before the daemons goes well. -/
structure SoftapSetup (linkCached : Bool) (env : SoftapStartEnv) : Prop where
  mkdir : env.mkdir = true
  createAp : env.createAp.sent = true
  cached : linkCached = true
  linkUp : env.linkUp = true
  addAddress : env.addAddress.sent = true
  hostapdConf : env.hostapdConf = true
  dnsmasqConf : env.dnsmasqConf = true

/-- The pid that is read is the one of the daemon. -/
def HostapdKilled (b : SoftapBackend) (env : SoftapStartEnv) : Prop :=
  ∀ pid, env.hostapdDaemon = some pid → 0 < pid ∧ env.hostapdPidFile.getD b.hostapdPid = pid

/-- A start goes all the way, or it is a daemon that cannot be spawned and nothing is there to be
released. -/
inductive SoftapFits (b : SoftapBackend) (env : SoftapStartEnv) : Prop where
  | refused (hstate : b.state ≠ .stopped)
  | complete (setup : SoftapSetup b.linkCached env) (hostapd : env.hostapdSpawn = true)
      (dnsmasq : env.dnsmasqSpawn ≠ none)
  | nothingMade (setup : SoftapSetup b.linkCached env) (apInterface : env.createAp.done = false)
      (address : env.addAddress.done = false)
      (spawn : env.hostapdSpawn = false ∨ env.dnsmasqSpawn = none ∧ HostapdKilled b env)

inductive P2PFits (b : P2PBackend) (env : P2PStartEnv) : Prop where
  | refused (hstate : b.state ≠ .stopped)
  | complete (conf : env.conf = true) (spawn : env.spawn ≠ none)

/-! ## SoftAP calls -/

namespace SoftapBackend

variable {b : SoftapBackend} {env : SoftapStartEnv}

theorem start_refused (h : b.state ≠ .stopped) : start env b = (b, .alreadyRunning) := by
  rw [start, if_pos h]

/-- What is there when the daemons are started. -/
def made (env : SoftapStartEnv) (b : SoftapBackend) : SoftapBackend :=
  (b.make env.createAp.done .apInterface).make env.addAddress.done .address

theorem make_linkCached (b : SoftapBackend) (done : Bool) (r : TransportResource) :
    (b.make done r).linkCached = b.linkCached := by
  unfold make
  split <;> rfl

theorem make_state (b : SoftapBackend) (done : Bool) (r : TransportResource) :
    (b.make done r).state = b.state := by
  unfold make
  split <;> rfl

/-- The setup comes to its end exactly if all its steps succeed. -/
theorem startSetup_cases (env : SoftapStartEnv) (b : SoftapBackend) :
    (SoftapSetup b.linkCached env ∧ startSetup env b = (b.made env, true)) ∨
      (¬ SoftapSetup b.linkCached env ∧ (startSetup env b).2 = false ∧
        (startSetup env b).1.state = b.state) := by
  generalize hr : startSetup env b = r
  unfold startSetup at hr
  split at hr
  · rename_i h
    subst hr
    exact Or.inr ⟨fun setup => (by rw [setup.mkdir] at h; cases h), rfl, rfl⟩
  rename_i hmkdir
  split at hr
  · rename_i h
    subst hr
    exact Or.inr ⟨fun setup => (by rw [setup.createAp] at h; cases h), rfl, rfl⟩
  rename_i hcreate
  dsimp only at hr
  rw [make_linkCached] at hr
  split at hr
  · rename_i h
    subst hr
    exact Or.inr ⟨fun setup => (by rw [setup.cached] at h; cases h), rfl, make_state _ _ _⟩
  rename_i hcached
  split at hr
  · rename_i h
    subst hr
    exact Or.inr ⟨fun setup => (by rw [setup.cached, setup.linkUp] at h; cases h), rfl,
      make_state _ _ _⟩
  rename_i hup
  split at hr
  · rename_i h
    subst hr
    refine Or.inr ⟨fun setup => ?_, rfl, make_state _ _ _⟩
    rw [nlIpAddress, setup.cached, setup.addAddress] at h
    cases h
  rename_i haddr
  have hmade : (b.made env).state = b.state := by rw [made, make_state, make_state]
  split at hr
  · rename_i h
    subst hr
    exact Or.inr ⟨fun setup => (by rw [setup.hostapdConf] at h; cases h), rfl, hmade⟩
  rename_i hhostapd
  split at hr
  · rename_i h
    subst hr
    exact Or.inr ⟨fun setup => (by rw [setup.dnsmasqConf] at h; cases h), rfl, hmade⟩
  rename_i hdnsmasq
  subst hr
  simp only [nlWaitInterface, nlSetInterfaceUp, nlIpAddress, Bool.not_eq_true', Bool.not_eq_false,
    beq_iff_eq, Bool.and_eq_true] at hmkdir hcreate hcached hup haddr hhostapd hdnsmasq
  exact Or.inl ⟨⟨hmkdir, hcreate, hcached, hup.2, haddr.2, hhostapd, hdnsmasq⟩, rfl⟩

/-- **A step that fails before the daemons leaves STARTING.** -/
theorem start_unset (h : b.state = .stopped) (hno : ¬ SoftapSetup b.linkCached env) :
    (start env b).1.state = .starting := by
  rcases startSetup_cases env { b with state := .starting } with ⟨setup, -⟩ | ⟨-, hfalse, hstate⟩
  · exact absurd setup hno
  · rw [start, if_neg (not_not.mpr h)]
    rcases hr : startSetup env { b with state := .starting } with ⟨b', ok⟩
    rw [hr] at hfalse hstate
    cases hfalse
    exact hstate

theorem start_set (h : b.state = .stopped) (setup : SoftapSetup b.linkCached env) :
    start env b = startDaemons env (made env { b with state := .starting }) := by
  rcases startSetup_cases env { b with state := .starting } with ⟨-, htrue⟩ | ⟨hno, -⟩
  · rw [start, if_neg (not_not.mpr h), htrue]
  · exact absurd setup hno

/-! ### The daemons -/

theorem make_count (b : SoftapBackend) (done : Bool) (x r : TransportResource) :
    (b.make done x).held.count r = b.held.count r + if done ∧ x = r then 1 else 0 := by
  unfold make
  cases done with
  | false => rfl
  | true =>
      rw [if_pos rfl, List.count_cons]
      simp

/-- A process is taken away, nothing else. -/
theorem stopProcess_count {r : TransportResource} (hr : ∀ pid, r ≠ .process pid)
    (b : SoftapBackend) (pid : ℕ) : (b.stopProcess pid).held.count r = b.held.count r := by
  unfold stopProcess
  split
  · exact List.count_erase_of_ne (hr pid)
  · rfl

/-- `hostapd` behind a spawn. -/
def hostapdUp (env : SoftapStartEnv) (b : SoftapBackend) : SoftapBackend :=
  { b with
    hostapdPid := env.hostapdPidFile.getD b.hostapdPid
    held := (env.hostapdDaemon.map .process).toList ++ b.held }

theorem startHostapd_spawned (h : env.hostapdSpawn = true) (b : SoftapBackend) :
    startHostapd env b = (hostapdUp env b, true) := by
  rw [startHostapd, if_neg (by rw [h]; decide)]
  unfold hostapdUp
  cases env.hostapdDaemon <;> rfl

theorem startDaemons_noHostapd (h : env.hostapdSpawn = false) (b : SoftapBackend) :
    startDaemons env b = ({ b with state := .error }, .failed) := by
  rw [startDaemons, startHostapd, if_pos (by rw [h]; rfl)]

theorem startDaemons_noDnsmasq (h : env.hostapdSpawn = true) (hno : env.dnsmasqSpawn = none)
    (b : SoftapBackend) :
    (startDaemons env b).1.state = .error ∧ (startDaemons env b).2 = .failed ∧
      (startDaemons env b).1.held =
        ((hostapdUp env b).stopProcess (env.hostapdPidFile.getD b.hostapdPid)).held := by
  rw [startDaemons, startHostapd_spawned h]
  simp only [startDnsmasq, hno]
  exact ⟨trivial, trivial, rfl⟩

theorem startDaemons_both (h : env.hostapdSpawn = true) (hdns : env.dnsmasqSpawn ≠ none)
    (b : SoftapBackend) :
    (startDaemons env b).1.state = .running ∧ (startDaemons env b).2 = .started := by
  obtain ⟨pid, hpid⟩ := Option.ne_none_iff_exists'.mp hdns
  rw [startDaemons, startHostapd_spawned h]
  simp [startDnsmasq, hpid]

/-- Nothing is left of `hostapd` exactly if its daemon is killed. -/
theorem stopHostapd_count_iff (env : SoftapStartEnv) (b : SoftapBackend) :
    (∀ r, ((hostapdUp env b).stopProcess (env.hostapdPidFile.getD b.hostapdPid)).held.count r ≤
        b.held.count r) ↔ HostapdKilled b env := by
  set pid := env.hostapdPidFile.getD b.hostapdPid with hpid
  have hheld : (hostapdUp env b).held = (env.hostapdDaemon.map .process).toList ++ b.held := rfl
  unfold HostapdKilled
  rw [← hpid]
  cases hdaemon : env.hostapdDaemon with
  | none =>
      refine ⟨fun _ p hp => (by cases hp), fun _ r => ?_⟩
      rw [hdaemon] at hheld
      unfold stopProcess
      split
      · rw [hheld]
        exact List.Sublist.count_le r List.erase_sublist
      · rw [hheld]
        exact Nat.le_refl _
  | some p =>
      rw [hdaemon] at hheld
      constructor
      · intro h p' hp'
        cases hp'
        have hmore : ¬ (TransportResource.process p :: b.held).count (.process p) ≤
            b.held.count (.process p) := by
          rw [List.count_cons_self]
          exact Nat.not_succ_le_self _
        have hcount := h (.process p)
        unfold stopProcess at hcount
        split at hcount
        · rename_i hpos
          by_contra hno
          have hne : pid ≠ p := fun heq => hno ⟨heq ▸ hpos, heq⟩
          rw [hheld, List.count_erase_of_ne (fun heq => hne (by cases heq; rfl))] at hcount
          exact hmore hcount
        · rw [hheld] at hcount
          exact absurd hcount hmore
      · intro h r
        obtain ⟨hpos, heq⟩ := h p rfl
        unfold stopProcess
        rw [heq, if_pos hpos, hheld]
        show ((TransportResource.process p :: b.held).erase _).count r ≤ _
        exact Nat.le_of_eq (by rw [List.erase_cons_head])

/-! ### One call -/

theorem made_count (b : SoftapBackend) (r : TransportResource) :
    (made env b).held.count r = b.held.count r +
      (if env.createAp.done ∧ .apInterface = r then 1 else 0) +
      if env.addAddress.done ∧ .address = r then 1 else 0 := by
  rw [made, make_count, make_count]

/-- The kernel made neither the interface nor the address. -/
theorem made_nothing_iff (b : SoftapBackend) {held : List TransportResource}
    (hkept : ∀ r, (∀ pid, r ≠ .process pid) → held.count r = (made env b).held.count r)
    (hle : ∀ r, held.count r ≤ b.held.count r) :
    env.createAp.done = false ∧ env.addAddress.done = false := by
  constructor
  · have hcount := hle .apInterface
    rw [hkept _ (fun pid h => by cases h), made_count] at hcount
    by_contra hdone
    rw [if_pos ⟨Bool.not_eq_false _ ▸ hdone, rfl⟩] at hcount
    omega
  · have hcount := hle .address
    rw [hkept _ (fun pid h => by cases h), made_count] at hcount
    by_contra hdone
    rw [if_pos (c := env.addAddress.done = true ∧ _) ⟨Bool.not_eq_false _ ▸ hdone, rfl⟩] at hcount
    omega

theorem made_nothing (hap : env.createAp.done = false) (haddr : env.addAddress.done = false)
    (b : SoftapBackend) : made env b = b := by
  rw [made, make, make, hap, haddr]
  rfl

/-- **A start that fails at a daemon** releases what it made exactly if that is nothing. -/
theorem startDaemons_released_iff (hspawn : env.hostapdSpawn = false ∨ env.dnsmasqSpawn = none)
    (b : SoftapBackend) :
    (startDaemons env (made env b)).1.state = .error ∧ (startDaemons env (made env b)).2 = .failed ∧
      ((∀ r, (startDaemons env (made env b)).1.held.count r ≤ b.held.count r) ↔
        (env.createAp.done = false ∧ env.addAddress.done = false) ∧
          (env.hostapdSpawn = false ∨ env.dnsmasqSpawn = none ∧ HostapdKilled b env)) := by
  by_cases hhostapd : env.hostapdSpawn = false
  · rw [startDaemons_noHostapd hhostapd]
    refine ⟨rfl, rfl, fun hle => ?_, fun h r => ?_⟩
    · exact ⟨made_nothing_iff b (fun r _ => rfl) hle, Or.inl hhostapd⟩
    · exact Nat.le_of_eq (by rw [made_nothing h.1.1 h.1.2])
  · have hdnsmasq := hspawn.resolve_left hhostapd
    obtain ⟨hstate, hfailed, hheld⟩ :=
      startDaemons_noDnsmasq (Bool.not_eq_false _ ▸ hhostapd) hdnsmasq (made env b)
    refine ⟨hstate, hfailed, fun hle => ?_, fun h => ?_⟩
    · rw [hheld] at hle
      have hkept : ∀ r, (∀ pid, r ≠ .process pid) →
          ((hostapdUp env (made env b)).stopProcess
            (env.hostapdPidFile.getD (made env b).hostapdPid)).held.count r =
              (made env b).held.count r := by
        intro r hr
        refine (stopProcess_count hr _ _).trans ?_
        show ((env.hostapdDaemon.map TransportResource.process).toList ++ (made env b).held).count r = _
        cases env.hostapdDaemon with
        | none => rfl
        | some pid => exact List.count_cons_of_ne fun heq => hr pid heq.symm
      have hnothing := made_nothing_iff b hkept hle
      rw [made_nothing hnothing.1 hnothing.2] at hle
      exact ⟨hnothing, Or.inr ⟨hdnsmasq, (stopHostapd_count_iff env b).mp hle⟩⟩
    · rw [hheld, made_nothing h.1.1 h.1.2]
      exact (stopHostapd_count_iff env b).mpr (h.2.resolve_left hhostapd).2

theorem startDaemons_result (env : SoftapStartEnv) (b : SoftapBackend) :
    (startDaemons env b).2 ≠ .alreadyRunning := by
  unfold startDaemons
  split
  · exact fun h => by cases h
  · split
    · exact fun h => by cases h
    · exact fun h => by cases h

/-- A stopped transport can be started. -/
theorem start_admitted (env : SoftapStartEnv) (h : b.state = .stopped) :
    (start env b).2 ≠ .alreadyRunning := by
  rw [start, if_neg (not_not.mpr h)]
  split
  · exact fun h => by cases h
  · exact startDaemons_result env _

theorem stop_state (env : SoftapStopEnv) (h : Settled b.state) : (b.stop env).state = .stopped := by
  unfold stop
  split
  · rename_i hstate
    rcases h with h | h | h
    · exact h
    · rw [h] at hstate
      rcases hstate with hstate | hstate <;> cases hstate
    · rw [h] at hstate
      rcases hstate with hstate | hstate <;> cases hstate
  · rfl

theorem settles_iff (c : TransportCall SoftapStartEnv SoftapStopEnv) (hs : Settled b.state) :
    Settles softapBackendClass b c ↔ AtStart SoftapFits b c := by
  cases c with
  | stop env =>
      have hstop : (b.stop env).state = .stopped := stop_state env hs
      exact ⟨fun _ env' h => (by cases h),
        fun _ => ⟨Or.inl hstop, fun env' => start_admitted env' hstop⟩⟩
  | start env =>
      have hfits : AtStart (β := SoftapStopEnv) SoftapFits b (.start env) ↔ SoftapFits b env :=
        ⟨fun h => h env rfl, fun h env' henv => by cases henv; exact h⟩
      rw [hfits]
      by_cases hstate : b.state = .stopped
      · by_cases setup : SoftapSetup b.linkCached env
        · have hstart := start_set hstate setup
          have hsettles : Settles softapBackendClass b (.start env) ↔
              Settled (start env b).1.state ∧ ((start env b).2 ≠ .started →
                ∀ r, (start env b).1.held.count r ≤ b.held.count r) := Iff.rfl
          rw [hsettles, hstart]
          by_cases hspawn : env.hostapdSpawn = false ∨ env.dnsmasqSpawn = none
          · obtain ⟨herror, hfailed, hiff⟩ :=
              startDaemons_released_iff hspawn { b with state := .starting }
            rw [herror, hfailed]
            constructor
            · intro h
              obtain ⟨⟨hap, haddr⟩, hdaemon⟩ := hiff.mp (h.2 (by decide))
              exact .nothingMade setup hap haddr hdaemon
            · rintro (hno | ⟨-, hhostapd, hdnsmasq⟩ | ⟨-, hap, haddr, hdaemon⟩)
              · exact absurd hstate hno
              · exact absurd hspawn (not_or.mpr ⟨by rw [hhostapd]; decide, hdnsmasq⟩)
              · exact ⟨Or.inr (Or.inr rfl), fun _ => hiff.mpr ⟨⟨hap, haddr⟩, hdaemon⟩⟩
          · obtain ⟨hhostapd, hdnsmasq⟩ := not_or.mp hspawn
            obtain ⟨hrunning, hstarted⟩ := startDaemons_both (Bool.not_eq_false _ ▸ hhostapd)
              hdnsmasq (made env { b with state := .starting })
            rw [hrunning, hstarted]
            exact ⟨fun _ => .complete setup (Bool.not_eq_false _ ▸ hhostapd) hdnsmasq,
              fun _ => ⟨Or.inr (Or.inl rfl), fun h => absurd rfl h⟩⟩
        · have hstarting := start_unset hstate setup
          constructor
          · intro h
            have hsettled : Settled (start env b).1.state := h.1
            rw [hstarting] at hsettled
            rcases hsettled with h | h | h <;> cases h
          · rintro (hno | ⟨hset, -, -⟩ | ⟨hset, -, -, -⟩)
            · exact absurd hstate hno
            · exact absurd hset setup
            · exact absurd hset setup
      · refine ⟨fun _ => .refused hstate, fun _ => ?_⟩
        show Settled (start env b).1.state ∧ (_ → ∀ r, (start env b).1.held.count r ≤ _)
        rw [start_refused hstate]
        exact ⟨hs, fun _ r => Nat.le_refl _⟩

end SoftapBackend

/-! ## P2P calls -/

namespace P2PBackend

variable {b : P2PBackend}

theorem start_refused {env : P2PStartEnv} (h : b.state ≠ .stopped) :
    start env b = (b, .alreadyRunning) := by
  rw [start, if_pos h]

/-- **A start of the P2P backend that fails leaves STARTING.** -/
theorem start_cases (env : P2PStartEnv) (h : b.state = .stopped) :
    (P2PFits b env ∧ (start env b).1.state = .running ∧ (start env b).2 = .started) ∨
      (¬ P2PFits b env ∧ (start env b).1.state = .starting) := by
  rw [start, if_neg (not_not.mpr h)]
  by_cases hconf : env.conf = true
  · rw [if_neg (by rw [hconf]; decide)]
    cases hspawn : env.spawn with
    | none =>
        refine Or.inr ⟨?_, rfl⟩
        rintro (hno | ⟨-, hsome⟩)
        · exact hno h
        · exact hsome hspawn
    | some pid => exact Or.inl ⟨.complete hconf (by rw [hspawn]; exact Option.some_ne_none _), rfl, rfl⟩
  · rw [if_pos (by rw [Bool.not_eq_true] at hconf; rw [hconf]; rfl)]
    refine Or.inr ⟨?_, rfl⟩
    rintro (hno | ⟨hset, -⟩)
    · exact hno h
    · exact hconf hset

theorem start_admitted (env : P2PStartEnv) (h : b.state = .stopped) :
    (start env b).2 ≠ .alreadyRunning := by
  rw [start, if_neg (not_not.mpr h)]
  split
  · exact fun h => by cases h
  · split
    · exact fun h => by cases h
    · exact fun h => by cases h

theorem stop_state (b : P2PBackend) : b.stop.state = .stopped := by
  unfold stop
  split
  · assumption
  · rfl

theorem settles_iff (c : TransportCall P2PStartEnv Unit) (hs : Settled b.state) :
    Settles p2pBackendClass b c ↔ AtStart P2PFits b c := by
  cases c with
  | stop env =>
      exact ⟨fun _ env' h => (by cases h),
        fun _ => ⟨Or.inl (stop_state b), fun env' => start_admitted env' (stop_state b)⟩⟩
  | start env =>
      have hfits : AtStart (β := Unit) P2PFits b (.start env) ↔ P2PFits b env :=
        ⟨fun h => h env rfl, fun h env' henv => by cases henv; exact h⟩
      have hsettles : Settles p2pBackendClass b (.start env) ↔
          Settled (start env b).1.state ∧ ((start env b).2 ≠ .started →
            ∀ r, (start env b).1.held.count r ≤ b.held.count r) := Iff.rfl
      rw [hfits, hsettles]
      by_cases hstate : b.state = .stopped
      · rcases start_cases env hstate with ⟨hfit, hrunning, hstarted⟩ | ⟨hno, hstarting⟩
        · rw [hrunning, hstarted]
          exact ⟨fun _ => hfit, fun _ => ⟨Or.inr (Or.inl rfl), fun h => absurd rfl h⟩⟩
        · rw [hstarting]
          refine ⟨fun h => ?_, fun h => absurd h hno⟩
          rcases h.1 with h | h | h <;> cases h
      · rw [start_refused hstate]
        exact ⟨fun _ => .refused hstate, fun _ => ⟨hs, fun _ r => Nat.le_refl _⟩⟩

end P2PBackend

/-! ## Runs -/

/-- **Both backends settle exactly if their starts fit.** -/
theorem backends_settle_iff (linkCached : Bool)
    (cs : List (TransportCall SoftapStartEnv SoftapStopEnv))
    (ps : List (TransportCall P2PStartEnv Unit)) :
    (Meets softapBackendClass.step (Settles softapBackendClass) (softapBackendNew linkCached) cs ↔
      Meets softapBackendClass.step (AtStart SoftapFits) (softapBackendNew linkCached) cs) ∧
    (Meets p2pBackendClass.step (Settles p2pBackendClass) p2pBackendNew ps ↔
      Meets p2pBackendClass.step (AtStart P2PFits) p2pBackendNew ps) :=
  ⟨meets_settles_iff _ (fun _ c hs => SoftapBackend.settles_iff c hs) (Or.inl rfl) cs,
    meets_settles_iff _ (fun _ c hs => P2PBackend.settles_iff c hs) (Or.inl rfl) ps⟩

/-- The system does all that it is asked for. -/
def softapAllWell : SoftapStartEnv :=
  { mkdir := true, createAp := ⟨true, true⟩, linkUp := true, addAddress := ⟨true, true⟩
    hostapdConf := true, dnsmasqConf := true, hostapdSpawn := true, hostapdDaemon := some 71
    hostapdPidFile := some 71, dnsmasqSpawn := some 72, dnsmasqPidFile := none, nat := true }

/-- An interface that the link cache does not have; a `hostapd` that is not installed; a
configuration that cannot be written. -/
theorem backends_not_settle :
    ((SoftapBackend.start softapAllWell (softapBackendNew false)).1.state = .starting ∧
      (SoftapBackend.start softapAllWell (softapBackendNew false)).1.held = [.apInterface] ∧
      ¬ Meets softapBackendClass.step (Settles softapBackendClass) (softapBackendNew false)
        [.start softapAllWell]) ∧
    ((SoftapBackend.start { softapAllWell with hostapdSpawn := false }
        (softapBackendNew true)).1.held = [.address, .apInterface] ∧
      ¬ Meets softapBackendClass.step (Settles softapBackendClass) (softapBackendNew true)
        [.start { softapAllWell with hostapdSpawn := false }]) ∧
    (P2PBackend.start ⟨false, none⟩ p2pBackendNew).1.state = .starting ∧
      ¬ Meets p2pBackendClass.step (Settles p2pBackendClass) p2pBackendNew
        [.start ⟨false, none⟩] := by
  refine ⟨⟨by decide, by decide, fun h => ?_⟩, ⟨by decide, fun h => ?_⟩, by decide, fun h => ?_⟩
  · rcases h.1.1 with hstate | hstate | hstate <;> exact absurd hstate (by decide)
  · exact absurd (h.1.2 (by decide) .apInterface) (by decide)
  · rcases h.1.1 with hstate | hstate | hstate <;> exact absurd hstate (by decide)

end HwPhoneLink.Transport
