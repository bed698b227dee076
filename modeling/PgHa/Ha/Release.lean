import PgHa.Effect.Triple
import PgHa.Gcp.Fencing
import PgHa.Gcp.Mounts
import PgHa.Ha.Switchover
import PgHa.Model.Resources

/-!
# What the primary has released when it asks its peer to take over

`execute_as_primary` releases the address, PostgreSQL, the filesystem and the
disk, in that order, and then sends `SWITCHOVER_REQUEST`.  A step that raises
ends the sequence.  But a release can also return normally without having
released anything: a non-zero exit code of `pg_ctl stop` is only logged, the
lookup of the device name answers a failed request with "not attached", and a
request whose answer names no operation is not waited for.  An unmount that
returns normally leaves the filesystem mounted if the mount point is not listed
as it is configured, and one of several mounts is all that it takes away.

`released_iff` says that these are the only ways in which the request can be
sent too early.
-/

namespace PgHa.Release

open Effect DiskManager NetworkManager Fencing SwitchoverEngine Linux

variable {cfg : Config} {host : Mounts.Host}

/-- What the node holds, with the operations by which the address and the disk
have been asked to be released, and the mounted filesystems. -/
structure Holdings where
  vip : Attachment
  postgres : Bool
  table : MountTable String
  disk : Attachment

/-- The data filesystem counts as held while anything is mounted at the mount point. -/
def Holdings.holds (cfg : Config) (host : Mounts.Host) (s : Holdings) : Resource → Bool
  | .vip => s.vip.attached
  | .postgres => s.postgres
  | .filesystem => !(Mounts.mountStack cfg host s.table).isEmpty
  | .disk => s.disk.attached

/-! ## The environment -/

/-- The operation of an update that takes the address off. -/
def vipOperation (vipCidr : String) (payload : NicPayload) (name : Option String) :
    Option String :=
  if payload.aliasIpRanges.contains (some vipCidr) then none else name

/-- A GET of the instance that succeeds shows whether the address is on the
interface, and an update without the address that is polled as done has taken
it off. -/
def vipStep (cfg : Config) (s : Attachment) (event : Event SysCall.Ret Exc) (s' : Attachment) :
    Prop :=
  (s'.attached = true → s.attached = true) ∧
  match event with
  | ⟨.gcp (.getInstance _ zone name), answer⟩ =>
      s'.operation = s.operation ∧ (name = cfg.cluster.nodeName → zone = cfg.myZone →
        ∀ nic, nicIn name cfg.gcp.nicName answer = .ok nic →
          (some cfg.gcp.vipCidr ∈ cidrs nic ↔ s.attached = true))
  | ⟨.gcp (.updateNetworkInterface _ zone name nicName payload), answer⟩ =>
      name = cfg.cluster.nodeName → zone = cfg.myZone → nicName = cfg.gcp.nicName →
        ∀ resp op, answer = .ok resp → resp.json = .ok op →
          s'.operation = vipOperation cfg.gcp.vipCidr payload op.name
  | ⟨.gcp (.getOperation _ zone opName), answer⟩ =>
      s'.operation = s.operation ∧ (zone = cfg.myZone → s.operation = some opName →
        saysDone answer → s'.attached = false)
  | ⟨.host .monotonic, answer⟩ => s'.operation = s.operation ∧ ∃ now, answer = .ok now
  | ⟨.host (.sleep _), answer⟩ => s'.operation = s.operation ∧ answer = .ok ()
  | _ => s'.operation = s.operation

/-- `pg_ctl stop` reports a failure to stop by a non-zero exit code. -/
def postgresStep (s : Bool) (event : Event SysCall.Ret Exc) (s' : Bool) : Prop :=
  (s' = true → s = true) ∧
  match event with
  | ⟨.host (.run (.pgCtlStop ..)), answer⟩ =>
      ∀ result, answer = .ok result → result.returncode = 0 → s' = false
  | _ => True

/-- An operation of the node, while nobody acquires anything for it.  The node
may lose the address, PostgreSQL and the disk at any time; nobody else mounts
or unmounts. -/
structure ReleaseStep (cfg : Config) (host : Mounts.Host) (s : Holdings)
    (event : Event SysCall.Ret Exc) (s' : Holdings) : Prop where
  vip : vipStep cfg s.vip event s'.vip
  postgres : postgresStep s.postgres event s'.postgres
  mounts : Mounts.mountStep host s.table event s'.table
  disk : detachStep cfg cfg.cluster.nodeName cfg.myZone s.disk event s'.disk

theorem ReleaseStep.mono {s s' : Holdings} {event : Event SysCall.Ret Exc}
    (h : ReleaseStep cfg host s event s') {r : Resource} (hr : r ≠ .filesystem) :
    s'.holds cfg host r = true → s.holds cfg host r = true := by
  cases r with
  | vip => exact h.vip.1
  | postgres => exact h.postgres.1
  | filesystem => exact absurd rfl hr
  | disk => exact h.disk.1

/-- The operations that change the table of mounts. -/
def changesMounts : SysCall → Prop
  | .host (.run (.umount ..)) | .host (.run (.mount ..)) => True
  | _ => False

theorem ReleaseStep.table_eq {s s' : Holdings} {event : Event SysCall.Ret Exc}
    (h : ReleaseStep cfg host s event s') (hop : ¬ changesMounts event.op) :
    s'.table = s.table := by
  obtain ⟨op, answer⟩ := event
  have hstep := h.mounts
  cases op with
  | gcp call => exact hstep
  | host call =>
      cases call with
      | run command => cases command <;> first | exact absurd trivial hop | exact hstep
      | readMounts => exact hstep.1
      | listdir path => exact hstep.1
      | _ => exact hstep

/-! ## Releases that confirm nothing -/

/-- An answer after which a release returns normally although nothing has
confirmed it. -/
def silentRelease (cfg : Config) : Resource → Event SysCall.Ret Exc → Prop
  | .vip, ⟨.gcp (.updateNetworkInterface ..), answer⟩ => detachedSilently answer
  | .postgres, ⟨.host (.run (.pgCtlStop ..)), answer⟩ =>
      ∃ result, answer = .ok result ∧ result.returncode ≠ 0
  | .disk, event => silentEvent cfg cfg.cluster.nodeName cfg.myZone false event
  | _, _ => False

def SilentRelease (cfg : Config) (r : Resource) (log : List (Event SysCall.Ret Exc)) : Prop :=
  ∃ event ∈ log, silentRelease cfg r event

/-- A release that returns normally has released, or has ended silently. -/
def Confirms (cfg : Config) (r : Resource) (outcome : Outcome Exc Unit)
    (log : List (Event SysCall.Ret Exc)) (held : Bool) : Prop :=
  outcome = .returned () → held = true → SilentRelease cfg r log

theorem SilentRelease.append_left {r : Resource} {first second : List (Event SysCall.Ret Exc)}
    (h : SilentRelease cfg r first) : SilentRelease cfg r (first ++ second) := by
  obtain ⟨event, hmem, hsilent⟩ := h
  exact ⟨event, List.mem_append_left second hmem, hsilent⟩

theorem SilentRelease.append_right {r : Resource} {first second : List (Event SysCall.Ret Exc)}
    (h : SilentRelease cfg r second) : SilentRelease cfg r (first ++ second) := by
  obtain ⟨event, hmem, hsilent⟩ := h
  exact ⟨event, List.mem_append_right first hmem, hsilent⟩

theorem Confirms.of_not_returned {r : Resource} {outcome : Outcome Exc Unit}
    {log : List (Event SysCall.Ret Exc)} {held : Bool} (h : outcome ≠ .returned ()) :
    Confirms cfg r outcome log held :=
  fun houtcome => absurd houtcome h

/-! ### The address -/

theorem vipStep.detachStep_of_isPoll {s s' : Attachment} {event : Event SysCall.Ret Exc}
    (hpoll : isPoll event.op) (h : vipStep cfg s event s') :
    detachStep cfg cfg.cluster.nodeName cfg.myZone s event s' := by
  obtain ⟨op, answer⟩ := event
  obtain ⟨project, zone, operation, rfl⟩ | rfl | ⟨duration, rfl⟩ := isPoll_cases hpoll <;> exact h

/-- Nothing puts the address back. -/
theorem vip_spec {α : Type} (program : Sys α) :
    Spec (vipStep cfg) program fun s _ _ s' => s'.attached = true → s.attached = true := by
  intro s trace outcome s' _ hhistory
  apply hhistory.invariant (P := fun s' => s'.attached = true → s.attached = true) _ id
  intro s₁ event s₂ hstep ih h
  exact ih (hstep.1 h)

theorem waitZoneOp_spec (opName : String) :
    Spec (vipStep cfg) (NetworkManager.waitZoneOp cfg opName cfg.myZone) fun s outcome _ s' =>
      s.operation = some opName → outcome = .returned () → s'.attached = false := by
  have hpoll (deadline : Int) : Spec (vipStep cfg)
      (pollZoneOp cfg opName cfg.myZone 3000 deadline cfg.loopBound) fun s outcome log s' =>
        s.operation = some opName →
          Waited cfg cfg.cluster.nodeName cfg.myZone false outcome log s' :=
    (pollZoneOp_spec false opName 3000 deadline cfg.loopBound).map id (pollZoneOp_calls ..)
      fun event hop s s' h => vipStep.detachStep_of_isPoll hop h
  apply Spec.of_wp
  intro s
  simp only [NetworkManager.waitZoneOp, Prog.bind_eq, Prog.wp_bind, Prog.wp_perform,
    demonic_logged_iff]
  rintro answer s₁ ⟨-, hop, now, rfl⟩
  apply (hpoll _).wp
  intro outcome log s' hwaited h houtcome
  exact ((hwaited (hop.trans h)).returned () houtcome).1

/-- The retry loop, by induction on the attempts that are left. -/
theorem patchFrom_spec {ranges : List (Option String)} (hranges : some cfg.gcp.vipCidr ∉ ranges)
    {maxRetries : ℕ} (fingerprint : String) (left : ℕ) (hleft : left ≠ 0) :
    Spec (vipStep cfg)
      (patchFrom cfg cfg.cluster.nodeName cfg.myZone ranges maxRetries fingerprint left)
      fun _ outcome log s' => Confirms cfg .vip outcome log s'.attached := by
  induction left generalizing fingerprint with
  | zero => exact absurd rfl hleft
  | succ left ih =>
      apply Spec.of_wp
      intro s
      simp only [patchFrom, Prog.bind_eq, Prog.wp_bind, Prog.wp_perform, demonic_logged_iff]
      intro answer s₁ hstep
      cases answer with
      | error exc => exact .of_not_returned (by simp)
      | ok resp =>
          rw [Prog.answered_ok, Prog.andThen_returned]
          by_cases hstatus : resp.statusCode = 200
          · rw [if_pos hstatus, Prog.wp_bind, Prog.wp_ofExcept]
            cases hjson : resp.json with
            | error exc => exact .of_not_returned (by simp)
            | ok op =>
                rw [Prog.answered_ok, Prog.andThen_returned]
                cases hname : nonempty? op.name with
                | none =>
                    -- the answer names no operation: nothing is waited for
                    intro _ _
                    exact ⟨_, List.mem_singleton_self _, hstatus, op, hjson, hname⟩
                | some opName =>
                    -- the request leaves the address out, so its operation takes it away
                    have hop : s₁.operation = some opName := by
                      have := hstep.2 rfl rfl rfl resp op rfl hjson
                      rw [vipOperation, if_neg (by simpa using hranges)] at this
                      exact this.trans (eq_of_nonempty? hname)
                    apply (waitZoneOp_spec opName).wp
                    intro outcome log s' hwaited houtcome hheld
                    simp [hwaited hop houtcome] at hheld
          · -- the request is refused, and repeated with a new fingerprint
            rw [if_neg hstatus, Prog.wp_ite]
            split_ifs with hretry
            · have hleft' : left ≠ 0 := by omega
              simp only [Prog.wp_bind, Prog.wp_perform, demonic_logged_iff]
              rintro slept s₂ ⟨-, -, rfl⟩
              simp only [Prog.answered_ok, Prog.andThen_returned, Prog.wp_bind]
              apply (Spec.trivial _).wp
              intro outcome log s₃ _
              cases outcome with
              | returned freshNic =>
                  apply (ih _ hleft').wp
                  intro outcome log s' hconfirms houtcome hheld
                  exact (hconfirms houtcome hheld).append_right
              | raised exc => exact .of_not_returned (by simp)
              | stuck => exact .of_not_returned (by simp)
            · exact .of_not_returned (by simp)

theorem releaseVip_spec : Spec (vipStep cfg) (releaseVip cfg) fun _ outcome log s' =>
    Confirms cfg .vip outcome log s'.attached := by
  apply Spec.of_wp
  intro s
  simp only [releaseVip, removeAliasIp, getNic_eq_call, Prog.bind_eq, Prog.call_bind, Prog.wp_call,
    demonic_logged_iff]
  rintro answer s₁ ⟨hmono, hop, htruth⟩
  rw [Prog.wp_bind, Prog.wp_ofExcept]
  cases hnic : nicIn cfg.cluster.nodeName cfg.gcp.nicName answer with
  | error exc => exact .of_not_returned (by simp)
  | ok nic =>
      rw [Prog.answered_ok, Prog.andThen_returned, Prog.wp_ite]
      split_ifs with hpresent
      · rw [Prog.wp_bind]
        apply (patchFrom_spec (by simp) _ 3 (by omega)).wp
        intro outcome log s₂ hconfirms
        cases outcome with
        | returned value =>
            apply (vip_spec _).wp
            intro outcome log' s' hmono' _ hheld
            exact (hconfirms rfl (hmono' hheld)).append_right.append_left
        | raised exc => exact .of_not_returned (by simp)
        | stuck => exact .of_not_returned (by simp)
      · intro _ hheld
        exact absurd ((htruth rfl rfl nic hnic).mpr (hmono hheld)) hpresent

/-! ### PostgreSQL, the filesystem and the disk -/

theorem stopPostgres_spec (mode : StopMode) :
    Spec postgresStep (DiskManager.stopPostgres cfg mode) fun _ outcome log s' =>
      Confirms cfg .postgres outcome log s' := by
  apply Spec.of_wp
  intro s
  simp only [DiskManager.stopPostgres, Prog.bind_eq, Prog.wp_bind, Prog.wp_perform,
    demonic_logged_iff]
  rintro answer s₁ ⟨-, hstop⟩
  cases answer with
  | error exc => exact .of_not_returned (by simp)
  | ok result =>
      intro _ hheld
      have hcode : result.returncode ≠ 0 := by
        intro h
        simp [hstop result rfl h] at hheld
      exact ⟨_, List.mem_singleton_self _, result, rfl, hcode⟩

/-- An unmount that returns normally leaves nothing mounted: nothing was, or one
filesystem was, and the mount point is listed as it is configured. -/
def UnmountsAll (cfg : Config) (host : Mounts.Host) (table : MountTable String) : Prop :=
  Mounts.mountStack cfg host table = [] ∨
    (Mounts.mountStack cfg host table).length = 1 ∧ Mounts.Listed cfg table

theorem unmountDisk_spec :
    Spec (Mounts.mountStep host) (DiskManager.unmountDisk cfg) fun table outcome _ table' =>
      outcome = .returned () →
        (Mounts.mountStack cfg host table' = [] ↔ UnmountsAll cfg host table) := by
  rintro table trace _ table' htrace hhistory rfl
  exact Mounts.stack_of_unmountDisk htrace hhistory

theorem detachDisk_confirms :
    Spec (detachStep cfg cfg.cluster.nodeName cfg.myZone) (DiskManager.detachDisk cfg)
      fun _ outcome log s' => Confirms cfg .disk outcome log s'.attached := by
  intro s log outcome s' htrace hhistory houtcome hheld
  exact (detachDisk_spec s log outcome s' htrace hhistory hheld).mp houtcome

/-! ## The sequence -/

/-- The request that makes the peer take over. -/
def isSwitchoverRequest : SysCall → Prop
  | .host (.sendRequest request) => request.cmd = cmdSwitchoverRequest
  | _ => False

theorem not_isSwitchoverRequest_of_footprint {call : Call} (hcall : ¬ ∃ h, call = .host h)
    (op : SysCall) (hop : footprint call op) : ¬ isSwitchoverRequest op := by
  intro hrequest
  unfold isSwitchoverRequest at hrequest
  split at hrequest
  · rcases call with (_ | _ | _ | _ | _ | _ | _ | _ | _) | (_ | _) | call
    case host => exact hcall ⟨call, rfl⟩
    all_goals simp [footprint, isQuery, isLocal, isPatch, isAttachPost, isDetachPost] at hop
  · exact hrequest

/-- Each of the resources has been released, or its release has ended
silently; and of the mounts in `start`, the unmount has left what it has to. -/
structure Accounted (cfg : Config) (host : Mounts.Host) (start : MountTable String)
    (done : List Resource) (s : Holdings × List (Event SysCall.Ret Exc)) : Prop where
  silent : ∀ r ∈ done, r ≠ .filesystem → s.1.holds cfg host r = true → SilentRelease cfg r s.2
  mounts : .filesystem ∉ done → s.1.table = start
  unmounted : .filesystem ∈ done →
    (Mounts.mountStack cfg host s.1.table = [] ↔ UnmountsAll cfg host start)

theorem accounted_nil (s : Holdings × List (Event SysCall.Ret Exc)) :
    Accounted cfg host s.1.table [] s where
  silent r hr := by cases hr
  mounts _ := rfl
  unmounted hr := by cases hr

/-- What goes on without the table of mounts leaves it accounted for. -/
theorem Accounted.frame {start : MountTable String} {done : List Resource}
    {s s' : Holdings × List (Event SysCall.Ret Exc)} (h : Accounted cfg host start done s)
    (htable : s'.1.table = s.1.table)
    (hsilent : ∀ r ∈ done, r ≠ .filesystem → s'.1.holds cfg host r = true →
      SilentRelease cfg r s'.2) : Accounted cfg host start done s' where
  silent := hsilent
  mounts hnot := htable.trans (h.mounts hnot)
  unmounted hmem := by rw [htable]; exact h.unmounted hmem

theorem Accounted.step {start : MountTable String} {done : List Resource}
    {s s' : Holdings × List (Event SysCall.Ret Exc)} {event : Event SysCall.Ret Exc}
    (h : Accounted cfg host start done s) (hop : ¬ changesMounts event.op)
    (hstep : logged (ReleaseStep cfg host) s event s') : Accounted cfg host start done s' := by
  refine h.frame (hstep.1.table_eq hop) fun r hr hne hheld => ?_
  rw [hstep.2]
  exact (h.silent r hr hne (hstep.1.mono hne hheld)).append_left

/-- Everything that a primary holds, the last released first. -/
def everything : List Resource := [.disk, .filesystem, .postgres, .vip]

/-- The operations of the sequence, where the request to the peer has to find
everything accounted for. -/
abbrev careful (cfg : Config) (host : Mounts.Host) (start : MountTable String) :
    Transformer SysCall.Ret Exc (Holdings × List (Event SysCall.Ret Exc)) :=
  guarded (fun s op => isSwitchoverRequest op → Accounted cfg host start everything s)
    (logged (ReleaseStep cfg host))

/-- The same for the operations of the engine. -/
abbrev carefully (cfg : Config) (host : Mounts.Host) (start : MountTable String) :
    Transformer Call.Ret Exc (Holdings × List (Event SysCall.Ret Exc)) :=
  Prog.implemented (careful cfg host start) (managers cfg)

variable {start : MountTable String}

theorem carefully_monotone : (carefully cfg host start).Monotone :=
  Prog.implemented_monotone (guarded_monotone _ _) (managers cfg)

/-- An operation of the host releases nothing, and everything is accounted for
when it is the request to the peer. -/
theorem carefully_host {done : List Resource} {call : HostCall}
    (hquiet : ¬ changesMounts (.host call))
    (hcall : isSwitchoverRequest (.host call) → done = everything)
    {s : Holdings × List (Event SysCall.Ret Exc)} (hs : Accounted cfg host start done s) :
    carefully cfg host start (.host call) (fun _ s' => Accounted cfg host start done s') s := by
  have hhost : careful cfg host start (.host call)
      (fun _ s' => Accounted cfg host start done s') s := by
    refine ⟨fun hrequest => ?_, fun answer s' hstep => hs.step hquiet hstep⟩
    rw [← hcall hrequest]
    exact hs
  rw [carefully, Prog.implemented, managers, Prog.wp_perform]
  apply guarded_monotone _ _ _ _ _ _ _ hhost
  intro answer s' h
  cases answer <;> exact h

/-- The operations of the host; the request to the peer only once everything
is done. -/
def OnHost (done : List Resource) (op : Call) : Prop :=
  ∃ call, op = .host call ∧ ¬ changesMounts (.host call) ∧
    (isSwitchoverRequest (.host call) → done = everything)

/-- Programs that only use the host. -/
theorem host_wp {done : List Resource} {α : Type} {program : Mgr α}
    (hcalls : program.Calls (OnHost done)) {s : Holdings × List (Event SysCall.Ret Exc)}
    (hs : Accounted cfg host start done s)
    {post : Outcome Exc α → Holdings × List (Event SysCall.Ret Exc) → Prop}
    (hpost : ∀ outcome s', Accounted cfg host start done s' → post outcome s') :
    program.wp (carefully cfg host start) post s := by
  apply Prog.wp_of_calls carefully_monotone _ hcalls hs hpost
  rintro op ⟨call, rfl, hquiet, hcall⟩ s hs
  exact carefully_host hquiet hcall hs

/-- Operations of the host without the request to the peer. -/
def Harmless (op : Call) : Prop := ∃ call, op = .host call ∧ ¬ isSwitchoverRequest (.host call)

/-- Programs that only use the host, and do not ask the peer for anything. -/
theorem harmless_wp {α : Type} {program : Mgr α} (hcalls : program.Calls Harmless)
    (s : Holdings × List (Event SysCall.Ret Exc)) :
    program.wp (carefully cfg host start) (fun _ _ => True) s := by
  have hkeep : ∀ op, Harmless op → ∀ s, True → carefully cfg host start op (fun _ _ => True) s := by
    rintro op ⟨call, rfl, hcall⟩ s -
    rw [carefully, Prog.implemented, managers, Prog.wp_perform]
    exact ⟨fun hrequest => absurd hrequest hcall, fun answer s' _ => by cases answer <;> trivial⟩
  exact Prog.wp_of_calls carefully_monotone hkeep hcalls trivial fun _ _ _ => trivial

theorem emit_harmless (eventType : HaEventType) (message : String) :
    (emit cfg eventType message).Calls Harmless :=
  emit_calls (fun _ => ⟨_, rfl, id⟩) eventType message

theorem emit_onHost {done : List Resource} (eventType : HaEventType) (message : String) :
    (emit cfg eventType message).Calls (OnHost done) :=
  emit_calls (fun _ => ⟨_, rfl, id, False.elim⟩) eventType message

theorem pollPeer_onHost {done : List Resource} (deadline : Int) (fuel : ℕ) :
    (pollPeer cfg deadline fuel).Calls (OnHost done) := by
  induction fuel with
  | zero => trivial
  | succ fuel ih =>
      refine .perform_bind ⟨_, rfl, id, False.elim⟩ fun now =>
        .ite (.bind ?_ fun result => ?_) trivial
      · exact Prog.Calls.attempt (Prog.Calls.perform ⟨_, rfl, id, False.elim⟩)
      · cases result with
        | ok _ => trivial
        | error exc => exact .ite (.perform_bind ⟨_, rfl, id, False.elim⟩ fun _ => ih) trivial

/-- An operation of a manager, none of which is the request to the peer. -/
theorem manager_wp {done done' : List Resource} {call : Call}
    (hcall : ¬ ∃ h, call = .host h) {program : Sys Unit} (hcalls : program.Calls (footprint call))
    (hspec : ∀ past, Spec (ReleaseStep cfg host) program fun s outcome log s' =>
      Accounted cfg host start done (s, past) → outcome = .returned () →
        Accounted cfg host start done' (s', past ++ log))
    {s : Holdings × List (Event SysCall.Ret Exc)} (hs : Accounted cfg host start done s) :
    program.wp (careful cfg host start)
      (Prog.asAnswer fun answer s' =>
        (∃ value, answer = .ok value) → Accounted cfg host start done' s') s := by
  apply Prog.wp_guarded _ hcalls
  · obtain ⟨holdings, past⟩ := s
    apply (hspec past).wp
    intro outcome log s' hdone
    cases outcome with
    | returned value => exact fun _ => hdone hs rfl
    | raised exc =>
        rintro ⟨value, h⟩
        cases h
    | stuck => trivial
  · intro s op hop hrequest
    exact absurd hrequest (not_isSwitchoverRequest_of_footprint hcall op hop)

/-- A release that returns normally accounts for its resource. -/
theorem release_accounts {done : List Resource} {r : Resource} (hr : r ≠ .filesystem)
    {program : Sys Unit} (hquiet : program.Calls fun op => ¬ changesMounts op)
    (hspec : Spec (ReleaseStep cfg host) program fun _ outcome log s' =>
      Confirms cfg r outcome log (s'.holds cfg host r)) (past : List (Event SysCall.Ret Exc)) :
    Spec (ReleaseStep cfg host) program fun s outcome log s' =>
      Accounted cfg host start done (s, past) → outcome = .returned () →
        Accounted cfg host start (r :: done) (s', past ++ log) := by
  intro s trace outcome s' htrace hhistory hs houtcome
  have hkept : s'.table = s.table ∧ ∀ r, r ≠ .filesystem → s'.holds cfg host r = true →
      s.holds cfg host r = true := by
    have hall := hquiet.trace htrace
    clear htrace hs houtcome hspec
    induction hhistory with
    | nil => exact ⟨rfl, fun _ _ => id⟩
    | cons hstep _ ih =>
        obtain ⟨htable, hmono⟩ := ih fun event hmem => hall event (List.mem_cons_of_mem _ hmem)
        exact ⟨htable.trans (hstep.table_eq (hall _ List.mem_cons_self)),
          fun r hr hheld => hstep.mono hr (hmono r hr hheld)⟩
  obtain ⟨htable, hmono⟩ := hkept
  have hframe : Accounted cfg host start done (s', past ++ trace) :=
    hs.frame htable fun r' hr' hne hheld =>
      (hs.silent r' hr' hne (hmono r' hne hheld)).append_left
  refine ⟨fun r' hr' hne hheld => ?_, fun hnot => ?_, fun hmem => ?_⟩
  · rcases List.mem_cons.mp hr' with rfl | hr'
    · exact (hspec s trace outcome s' htrace hhistory houtcome hheld).append_right
    · exact hframe.silent r' hr' hne hheld
  · exact hframe.mounts fun hmem => hnot (List.mem_cons_of_mem r hmem)
  · exact hframe.unmounted (List.mem_of_ne_of_mem hr.symm hmem)

/-- So does the unmount, of what was mounted at the start. -/
theorem unmount_accounts {done : List Resource} (hdone : .filesystem ∉ done)
    (past : List (Event SysCall.Ret Exc)) :
    Spec (ReleaseStep cfg host) (DiskManager.unmountDisk cfg) fun s outcome log s' =>
      Accounted cfg host start done (s, past) → outcome = .returned () →
        Accounted cfg host start (.filesystem :: done) (s', past ++ log) := by
  intro s trace outcome s' htrace hhistory hs houtcome
  have hmono : ∀ r, r ≠ .filesystem → s'.holds cfg host r = true → s.holds cfg host r = true := by
    intro r hr
    apply hhistory.invariant
      (P := fun s' => s'.holds cfg host r = true → s.holds cfg host r = true) _ id
    exact fun s₁ event s₂ hstep ih hheld => ih (hstep.mono hr hheld)
  refine ⟨fun r hr hne hheld => ?_, fun hnot => absurd List.mem_cons_self hnot, fun _ => ?_⟩
  · have hr : r ∈ done := List.mem_of_ne_of_mem hne hr
    exact (hs.silent r hr hne (hmono r hne hheld)).append_left
  · have hmounts : History (Mounts.mountStep host) s.table trace s'.table :=
      hhistory.map Holdings.table fun _ _ _ _ h => h.mounts
    rw [← hs.mounts hdone]
    exact unmountDisk_spec _ _ _ _ htrace hmounts houtcome

section Operations

variable {done : List Resource} {s : Holdings × List (Event SysCall.Ret Exc)}

theorem changesMounts_of_gcp {op : SysCall} (h : isQuery op ∨ isPatch op ∨ isDetachPost op) :
    ¬ changesMounts op := by
  intro hmounts
  unfold changesMounts at hmounts
  split at hmounts
  · rcases h with h | h | h <;> exact h
  · rcases h with h | h | h <;> exact h
  · exact hmounts

theorem carefully_releaseVip (hs : Accounted cfg host start done s) :
    carefully cfg host start (.net .releaseVip) (fun answer s' => (∃ value, answer = .ok value) →
      Accounted cfg host start (.vip :: done) s') s := by
  have hcalls := managers_calls cfg (.net .releaseVip)
  have hspec : Spec (ReleaseStep cfg host) (releaseVip cfg) fun _ outcome log s' =>
      Confirms cfg .vip outcome log (s'.holds cfg host .vip) :=
    releaseVip_spec.map Holdings.vip hcalls fun _ _ _ _ => ReleaseStep.vip
  refine manager_wp (by simp) hcalls (release_accounts (by decide) ?_ hspec) hs
  exact hcalls.mono fun op hop => changesMounts_of_gcp (hop.imp_right .inl)

theorem carefully_stopPostgres (mode : StopMode) (hs : Accounted cfg host start done s) :
    carefully cfg host start (.disk (.stopPostgres mode))
      (fun answer s' => (∃ value, answer = .ok value) →
        Accounted cfg host start (.postgres :: done) s') s := by
  have hcalls := managers_calls cfg (.disk (.stopPostgres mode))
  have hspec : Spec (ReleaseStep cfg host) (DiskManager.stopPostgres cfg mode)
      fun _ outcome log s' => Confirms cfg .postgres outcome log (s'.holds cfg host .postgres) :=
    (stopPostgres_spec mode).map Holdings.postgres hcalls fun _ _ _ _ => ReleaseStep.postgres
  refine manager_wp (by simp) hcalls (release_accounts (by decide) ?_ hspec) hs
  exact .perform_bind id fun _ => trivial

theorem carefully_unmountDisk (hdone : .filesystem ∉ done)
    (hs : Accounted cfg host start done s) :
    carefully cfg host start (.disk .unmountDisk) (fun answer s' => (∃ value, answer = .ok value) →
      Accounted cfg host start (.filesystem :: done) s') s :=
  manager_wp (by simp) (managers_calls cfg (.disk .unmountDisk)) (unmount_accounts hdone) hs

theorem carefully_detachDisk (hs : Accounted cfg host start done s) :
    carefully cfg host start (.disk .detachDisk) (fun answer s' => (∃ value, answer = .ok value) →
      Accounted cfg host start (.disk :: done) s') s := by
  have hcalls := managers_calls cfg (.disk .detachDisk)
  have hspec : Spec (ReleaseStep cfg host) (DiskManager.detachDisk cfg) fun _ outcome log s' =>
      Confirms cfg .disk outcome log (s'.holds cfg host .disk) :=
    detachDisk_confirms.map Holdings.disk hcalls fun _ _ _ _ => ReleaseStep.disk
  refine manager_wp (by simp) hcalls (release_accounts (by decide) ?_ hspec) hs
  exact hcalls.mono fun op hop => changesMounts_of_gcp (hop.imp_right .inr)

end Operations

/-! ### The steps -/

/-- A step that accounts for more when it succeeds. -/
def Advances (cfg : Config) (host : Mounts.Host) (start : MountTable String)
    (done done' : List Resource) (step : Mgr Unit) : Prop :=
  ∀ s, Accounted cfg host start done s → step.wp (carefully cfg host start)
    (fun outcome s' => outcome = .returned () → Accounted cfg host start done' s') s

/-- The rest of the loop, from where `done` is accounted for. -/
def Continues (cfg : Config) (host : Mounts.Host) (start : MountTable String)
    (done : List Resource) (rest : List (StepName × Mgr Unit)) : Prop :=
  ∀ s, Accounted cfg host start done s →
    (runPrimarySteps cfg rest).wp (carefully cfg host start) (fun _ _ => True) s

/-- One pass of the loop: what its step accounts for when it succeeds is there
for the rest of the loop. -/
theorem Continues.cons {done done' : List Resource} {name : StepName} {step : Mgr Unit}
    {rest : List (StepName × Mgr Unit)} (hstep : Advances cfg host start done done' step)
    (hrest : Continues cfg host start done' rest) :
    Continues cfg host start done ((name, step) :: rest) := by
  intro s hs
  have hmark : carefully cfg host start (.host (.mark (.step name)))
      (fun _ s' => Accounted cfg host start done s') s :=
    carefully_host id False.elim hs
  simp only [runPrimarySteps, Prog.bind_eq, Prog.wp_bind, Prog.wp_perform]
  apply carefully_monotone _ _ _ _ _ hmark
  intro answer s₁ h₁
  cases answer with
  | error exc => trivial
  | ok _ =>
      rw [Prog.answered_ok, Prog.andThen_returned, Prog.wp_bind, Prog.wp_attempt]
      apply Prog.wp_mono carefully_monotone _ (hstep s₁ h₁)
      intro outcome s₂ hdone
      cases outcome with
      | returned value => exact hrest s₂ (hdone rfl)
      | raised exc =>
          have hcalls : ((emit cfg .switchoverFailed
              s!"Failed at {name.text}: {exc.message}").bind fun _ => pure false).Calls Harmless :=
            .bind (emit_harmless _ _) fun _ => trivial
          exact harmless_wp hcalls s₂
      | stuck => trivial

/-- A step that performs a release, and then only uses the host. -/
theorem Advances.release {done done' : List Resource} {op : Call} {next : op.Ret → Mgr Unit}
    (hrelease : ∀ s, Accounted cfg host start done s → carefully cfg host start op
      (fun answer s' => (∃ value, answer = .ok value) → Accounted cfg host start done' s') s)
    (hnext : ∀ value, (next value).Calls (OnHost done')) :
    Advances cfg host start done done' ((Prog.perform op).bind next) := by
  intro s hs
  rw [Prog.wp_bind, Prog.wp_perform]
  apply carefully_monotone _ _ _ _ _ (hrelease s hs)
  intro answer s₁ hdone
  cases answer with
  | error exc =>
      intro h
      cases h
  | ok value => exact host_wp (hnext value) (hdone ⟨value, rfl⟩) fun _ _ h _ => h

theorem Advances.onHost {done : List Resource} {step : Mgr Unit}
    (hcalls : step.Calls (OnHost done)) : Advances cfg host start done done step :=
  fun _ hs => host_wp hcalls hs fun _ _ h _ => h

theorem advances_preCheck : Advances cfg host start [] [] (stepPreCheck cfg) :=
  .onHost (.perform_bind ⟨_, rfl, id, False.elim⟩ fun _ => pollPeer_onHost _ _)

theorem advances_releaseVip : Advances cfg host start [] [.vip] (stepReleaseVip cfg) :=
  .release (fun _ => carefully_releaseVip) fun _ => emit_onHost _ _

theorem advances_stopPostgres : Advances cfg host start [.vip] [.postgres, .vip] stepStopPostgres :=
  .release (fun _ => carefully_stopPostgres .fast) fun _ =>
    Prog.Calls.perform ⟨_, rfl, id, False.elim⟩

theorem advances_umount :
    Advances cfg host start [.postgres, .vip] [.filesystem, .postgres, .vip] stepUmount := by
  rw [stepUmount, ← Prog.bind_pure (Mgr.disk .unmountDisk)]
  exact .release (fun _ => carefully_unmountDisk (by decide)) fun _ => trivial

theorem advances_detachDisk :
    Advances cfg host start [.filesystem, .postgres, .vip] everything (stepDetachDisk cfg) :=
  .release (fun _ => carefully_detachDisk) fun _ =>
    .perform_bind ⟨_, rfl, id, False.elim⟩ fun _ => emit_onHost _ _

/-- The request to the peer finds everything accounted for. -/
theorem advances_signalPeer : Advances cfg host start everything everything (stepSignalPeer cfg) :=
  .onHost (.perform_bind ⟨_, rfl, id, False.elim⟩ fun _ =>
    .perform_bind ⟨_, rfl, id, fun _ => rfl⟩ fun _ =>
      .perform_bind ⟨_, rfl, id, False.elim⟩ fun _ => .bind (Prog.calls_ofExcept _) fun _ =>
        .ite trivial trivial)

theorem advances_demote : Advances cfg host start everything everything (stepDemote cfg) :=
  .onHost (.perform_bind ⟨_, rfl, id, False.elim⟩ fun _ =>
    .perform_bind ⟨_, rfl, id, False.elim⟩ fun _ => emit_onHost _ _)

theorem continues_primarySteps : Continues cfg host start [] (primarySteps cfg) := by
  have hend : Continues cfg host start everything [] := fun _ _ => trivial
  exact .cons advances_preCheck (.cons advances_releaseVip (.cons advances_stopPostgres
    (.cons advances_umount (.cons advances_detachDisk (.cons advances_signalPeer
      (.cons advances_demote hend))))))

/-- Nothing is said about the end, only about the requests on the way. -/
theorem executeAsPrimary_triple :
    Prog.Triple (carefully cfg host start) (Accounted cfg host start []) (executeAsPrimary cfg)
      (fun _ _ => True) fun _ => True := by
  have hmono : (carefully cfg host start).Monotone := carefully_monotone
  -- up to the first step, nothing is unmounted
  have hbefore {α : Type} {program : Mgr α} (hcalls : program.Calls (OnHost [])) :
      Prog.Triple (carefully cfg host start) (Accounted cfg host start []) program
        (fun _ => Accounted cfg host start []) fun _ => True := by
    intro s hs
    apply host_wp hcalls hs
    intro outcome s' h
    cases outcome with
    | returned value => exact h
    | raised exc => trivial
    | stuck => trivial
  have hafter {α : Type} {program : Mgr α} (hcalls : program.Calls Harmless) :
      program.Keeps (carefully cfg host start) (fun _ => True) := by
    intro s _
    apply Prog.wp_mono hmono _ (harmless_wp hcalls s)
    intro outcome s' _
    cases outcome <;> trivial
  have hsteps : Prog.Triple (carefully cfg host start) (Accounted cfg host start [])
      (runPrimarySteps cfg (primarySteps cfg)) (fun _ _ => True) fun _ => True := by
    intro s hs
    apply Prog.wp_mono hmono _ (continues_primarySteps s hs)
    intro outcome s' _
    cases outcome <;> trivial
  have hrole : (LocalNode.isPrimary : Mgr Bool).Calls (OnHost []) :=
    .perform_bind ⟨_, rfl, id, False.elim⟩ fun _ => trivial
  have hleave : (Mgr.host (.mark (.leave .asPrimary))).Calls Harmless :=
    Prog.Calls.perform ⟨_, rfl, id⟩
  refine .bind hmono (hbefore hrole) fun _ => .ite (fun _ => .pure fun _ _ => trivial) fun _ => ?_
  refine .bind hmono (hbefore (Prog.Calls.perform ⟨_, rfl, id, False.elim⟩)) fun _ =>
    Prog.Triple.ensuring hmono ?_ (hafter hleave)
  refine .bind hmono (hbefore (emit_onHost _ _)) fun _ => .bind hmono hsteps fun _ =>
    .ite (fun _ => ?_) fun _ => Prog.keeps_pure _
  exact .bind hmono (hafter (emit_harmless _ _)) fun _ => Prog.keeps_pure _

/-! ## A complete release -/

/-- Nothing is held any more. -/
def Released (cfg : Config) (host : Mounts.Host) (s : Holdings) : Prop :=
  ∀ r, s.holds cfg host r = false

theorem mem_everything (r : Resource) : r ∈ everything := by
  cases r <;> decide

theorem accounted_at_request :
    AtCalls (ReleaseStep cfg host) ((executeAsPrimary cfg).lower (managers cfg))
      fun first before s op => isSwitchoverRequest op →
        Accounted cfg host first.table everything (s, before) := by
  apply AtCalls.of_wp
  intro first
  apply Prog.wp_lower (guarded_monotone _ _) (managers cfg) (fun _ => trivial)
  exact Prog.wp_mono carefully_monotone (fun _ _ _ => trivial)
    (executeAsPrimary_triple (first, []) (accounted_nil (first, [])))

/-- **When the request to the peer follows a complete release.**  For every
outcome of the operations and any mounts at the start, everything has been
released when the request is sent, if and only if whatever was released silently
is in fact not held any more, and the unmount could leave nothing mounted. -/
theorem released_iff (cfg : Config) (host : Mounts.Host) :
    AtCalls (ReleaseStep cfg host) ((executeAsPrimary cfg).lower (managers cfg))
      fun first before s op => isSwitchoverRequest op →
        (Released cfg host s ↔ (∀ r, SilentRelease cfg r before → s.holds cfg host r = false) ∧
          UnmountsAll cfg host first.table) := by
  intro first trace outcome htrace before event after hsplit mid hhistory hrequest
  have haccounted := accounted_at_request first trace outcome htrace before event after hsplit mid
    hhistory hrequest
  have hfilesystem : mid.holds cfg host .filesystem = false ↔ UnmountsAll cfg host first.table := by
    rw [← haccounted.unmounted (mem_everything _)]
    simp [Holdings.holds]
  constructor
  · intro hreleased
    exact ⟨fun r _ => hreleased r, hfilesystem.mp (hreleased .filesystem)⟩
  · rintro ⟨hsilent, hunmounts⟩ r
    by_cases hr : r = .filesystem
    · rw [hr]
      exact hfilesystem.mpr hunmounts
    · cases hheld : mid.holds cfg host r with
      | false => rfl
      | true =>
          rw [← hheld, hsilent r (haccounted.silent r (mem_everything r) hr hheld)]

/-! ## A request while PostgreSQL runs -/

/-- The instance of the sample primary. -/
def sampleInstance (s : Holdings) : Instance where
  status := some "RUNNING"
  disks := if s.disk.attached then
      [⟨some (diskSelfLink .samplePrimary), some "READ_WRITE", some "pg-data-disk"⟩]
    else []
  networkInterfaces := [⟨some "nic0", some "1",
    if s.vip.attached then [⟨some "10.0.0.100/32", none, []⟩] else []⟩]

/-- An operation that is done takes away what it has been asked to. -/
def afterOperation (s : Attachment) (opName : String) : Attachment :=
  { s with attached := s.attached && s.operation != some opName }

/-- A host whose `pg_ctl stop` gives up, and on which everything else works. -/
def hostStopTimesOut : (call : HostCall) → MountTable String →
    Except Exc call.Ret × MountTable String
  | .monotonic, table => (.ok 0, table)
  | .role, table => (.ok .primary, table)
  | .readMounts, table => (.ok (linesOf table.text), table)
  | .listdir path, table =>
      (if (table.topAt (Mounts.sampleHost.dirOf path)).all (·.healthy) then .ok ()
        else .error ⟨.osError, "Input/output error"⟩, table)
  | .run (.umount _ path), table =>
      (.ok ⟨0, "", ""⟩, table.unmountAt (Mounts.sampleHost.dirOf path))
  | .run _, table => (.ok ⟨1, "", "pg_ctl: server does not shut down"⟩, table)
  | .recvReply, table => (.ok ⟨.obj [("cmd", .str "SWITCHOVER_ACCEPT")], ""⟩, table)
  | .sleep _, table | .createConnection .., table | .sendRequest _, table
  | .putEvent _, table | .setPgState _, table | .setDiskState _, table
  | .mark _, table => (.ok (), table)
  | _, table => (.error ⟨.other, ""⟩, table)

def stopTimesOut : (op : SysCall) → Holdings → Except Exc op.Ret × Holdings
  | .gcp (.getInstance ..), s => (.ok (.ok (sampleInstance s)), s)
  | .gcp (.updateNetworkInterface _ _ _ _ payload), s =>
      (.ok (.ok ⟨some "operation-1", none, none⟩),
        { s with vip :=
          ⟨s.vip.attached, vipOperation "10.0.0.100/32" payload (some "operation-1")⟩ })
  | .gcp (.detachDisk ..), s =>
      (.ok (.ok ⟨some "operation-2", none, none⟩),
        { s with disk := ⟨s.disk.attached, some "operation-2"⟩ })
  | .gcp (.getOperation _ _ opName), s =>
      (.ok (.ok ⟨some opName, some "DONE", none⟩),
        { s with vip := afterOperation s.vip opName, disk := afterOperation s.disk opName })
  | .gcp (.getDisk ..), s | .gcp (.attachDisk ..), s => (.error ⟨.other, ""⟩, s)
  | .host call, s =>
      ((hostStopTimesOut call s.table).1, { s with table := (hostStopTimesOut call s.table).2 })

theorem nicIn_sampleInstance (s : Holdings) {name : String} {nic : Nic}
    (h : nicIn name "nic0" (.ok (.ok (sampleInstance s))) = .ok nic) :
    some "10.0.0.100/32" ∈ cidrs nic ↔ s.vip.attached = true := by
  have hfound : nicIn name "nic0" (.ok (.ok (sampleInstance s))) = .ok ⟨some "nic0", some "1",
      if s.vip.attached then [⟨some "10.0.0.100/32", none, []⟩] else []⟩ := by
    simp [nicIn, sampleInstance, Except.bind]
  obtain rfl := Except.ok.inj (hfound.symm.trans h)
  cases s.vip.attached <;> simp [cidrs]

theorem isOurs_sampleInstance (s : Holdings) :
    (sampleInstance s).disks.any (isOurs .samplePrimary) = true ↔ s.disk.attached = true := by
  have hours : isOurs .samplePrimary
      ⟨some (diskSelfLink .samplePrimary), some "READ_WRITE", some "pg-data-disk"⟩ = true :=
    isOurs_diskSelfLink ..
  cases hdisk : s.disk.attached <;> simp [sampleInstance, hdisk, hours]

theorem afterOperation_attached {s : Attachment} {opName : String}
    (h : (afterOperation s opName).attached = true) : s.attached = true := by
  simp only [afterOperation, Bool.and_eq_true] at h
  exact h.1

theorem afterOperation_of_operation {s : Attachment} {opName : String}
    (h : s.operation = some opName) : (afterOperation s opName).attached = false := by
  simp [afterOperation, h]

theorem vipStep_stopTimesOut (s : Holdings) (op : SysCall) :
    vipStep .samplePrimary s.vip ⟨op, (stopTimesOut op s).1⟩ (stopTimesOut op s).2.vip := by
  rcases op with call | call
  · cases call with
    | getInstance => exact ⟨id, rfl, fun _ _ nic h => nicIn_sampleInstance s h⟩
    | getOperation =>
        exact ⟨afterOperation_attached, rfl, fun _ h _ => afterOperation_of_operation h⟩
    | updateNetworkInterface project zone name nicName payload =>
        refine ⟨id, fun _ _ _ resp op hresp hjson => ?_⟩
        cases hresp
        cases hjson
        rfl
    | _ => exact ⟨id, rfl⟩
  · cases call <;> first | exact ⟨id, rfl⟩ | exact ⟨id, rfl, _, rfl⟩ | exact ⟨id, rfl, rfl⟩

theorem detachStep_stopTimesOut (s : Holdings) (op : SysCall) :
    detachStep .samplePrimary "pg-primary" "us-central1-a" s.disk ⟨op, (stopTimesOut op s).1⟩
      (stopTimesOut op s).2.disk := by
  rcases op with call | call
  · cases call with
    | getInstance =>
        refine ⟨id, rfl, fun _ _ inst hinst => ?_⟩
        cases hinst
        exact isOurs_sampleInstance s
    | getOperation =>
        exact ⟨afterOperation_attached, rfl, fun _ h _ => afterOperation_of_operation h⟩
    | detachDisk =>
        refine ⟨id, fun _ _ resp op hresp hjson => ?_⟩
        cases hresp
        cases hjson
        rfl
    | _ => exact ⟨id, rfl⟩
  · cases call <;> first | exact ⟨id, rfl⟩ | exact ⟨id, rfl, _, rfl⟩ | exact ⟨id, rfl, rfl⟩

theorem postgresStep_stopTimesOut (s : Holdings) (op : SysCall) :
    postgresStep s.postgres ⟨op, (stopTimesOut op s).1⟩ (stopTimesOut op s).2.postgres := by
  rcases op with call | call
  · cases call <;> exact ⟨id, trivial⟩
  · cases call with
    | run command =>
        cases command with
        | pgCtlStop =>
            refine ⟨id, fun result hresult hcode => ?_⟩
            cases hresult
            simp at hcode
        | _ => exact ⟨id, trivial⟩
    | _ => exact ⟨id, trivial⟩

theorem mountStep_stopTimesOut (s : Holdings) (op : SysCall) :
    Mounts.mountStep Mounts.sampleHost s.table ⟨op, (stopTimesOut op s).1⟩
      (stopTimesOut op s).2.table := by
  rcases op with call | call
  · cases call <;> rfl
  · cases call with
    | readMounts => exact ⟨rfl, fun lines hlines => by cases hlines; rfl⟩
    | listdir path =>
        refine ⟨rfl, fun mount hmount => ?_⟩
        cases hhealthy : mount.healthy <;>
          simp [stopTimesOut, hostStopTimesOut, hmount, hhealthy, Except.toBool]
    | run command =>
        cases command with
        | umount => rfl
        | _ => rfl
    | _ => rfl

/-- A primary that holds everything. -/
def holdsAll : Holdings := ⟨⟨true, none⟩, true, [Mounts.dataMount true], ⟨true, none⟩⟩

/-- PostgreSQL runs on in every state that the run goes through. -/
theorem releaseStep_stopTimesOut (s : Holdings) (op : SysCall) :
    ReleaseStep .samplePrimary Mounts.sampleHost s ⟨op, (stopTimesOut op s).1⟩
        (stopTimesOut op s).2 ∧
      (s.postgres = true → (stopTimesOut op s).2.postgres = true) := by
  refine ⟨⟨vipStep_stopTimesOut s op, postgresStep_stopTimesOut s op,
    mountStep_stopTimesOut s op, detachStep_stopTimesOut s op⟩, ?_⟩
  rcases op with call | call
  · cases call <;> exact id
  · exact id

/-- `isSwitchoverRequest`, as a test. -/
def requestsSwitchover : SysCall → Bool
  | .host (.sendRequest request) => request.cmd == cmdSwitchoverRequest
  | _ => false

theorem isSwitchoverRequest_of_test {op : SysCall} (h : requestsSwitchover op = true) :
    isSwitchoverRequest op := by
  unfold requestsSwitchover at h
  split at h
  · exact beq_iff_eq.mp h
  · cases h

/-- The primary's side of the hand-off, on that host. -/
def sampleRun : Run SysCall.Ret Exc Bool Holdings :=
  ((executeAsPrimary .samplePrimary).lower (managers .samplePrimary)).run stopTimesOut holdsAll

/-- `pg_ctl stop` gives up, and the request is sent while PostgreSQL runs. -/
theorem not_released : ¬ ∀ cfg host,
    AtCalls (ReleaseStep cfg host) ((executeAsPrimary cfg).lower (managers cfg)) fun _ _ s op =>
      isSwitchoverRequest op → Released cfg host s := by
  intro h
  have hsent : sampleRun.log.any (fun event => requestsSwitchover event.op) = true := by decide
  obtain ⟨event, hmem, hrequest⟩ := List.any_eq_true.mp hsent
  obtain ⟨before, after, hsplit⟩ := List.append_of_mem hmem
  have hhistory : History (fun s event s' =>
      ReleaseStep .samplePrimary Mounts.sampleHost s event s' ∧
        (s.postgres = true → s'.postgres = true)) holdsAll sampleRun.log sampleRun.final :=
    history_run releaseStep_stopTimesOut _ _
  rw [hsplit] at hhistory
  obtain ⟨mid, hbefore, -⟩ := hhistory.split
  have hruns : mid.postgres = true :=
    hbefore.invariant (P := fun s => s.postgres = true) (fun _ _ _ hstep => hstep.2) rfl
  have hreleased := h .samplePrimary Mounts.sampleHost holdsAll sampleRun.log sampleRun.outcome
    (trace_run _ _ _) before event after hsplit mid (hbefore.map id fun _ _ _ _ hstep => hstep.1)
    (isSwitchoverRequest_of_test hrequest)
  have hstopped : mid.postgres = false := hreleased .postgres
  rw [hruns] at hstopped
  cases hstopped

end PgHa.Release
