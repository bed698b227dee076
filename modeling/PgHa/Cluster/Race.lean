import PgHa.Cluster.Election
import PgHa.Gcp.Footprint
import PgHa.Effect.Threads

/-!
# Two startup elections at once

Both nodes run `ElectionManager.elect` over one Compute API.  All that matters
of its state is who holds the disk read-write: every GET is answered truthfully
at the moment it is made, and a posted attach gives the disk to the caller,
also when somebody else has it, since `forceAttach` is set.

A node becomes PRIMARY after it has seen that it holds the disk, or after its
own attach.  So a PRIMARY has held the disk at some time, and the question is
whether it keeps it.  It does as long as nobody force-attaches the disk away
from the other node, and this is the condition on the steps (`attachesFree`).
The proof gives each node a rely, "the disk that I hold stays mine", under
which its election ends well (`elect_wp`), and the guarantee of its own steps
is the rely of the other one.

Nothing in the code brings the condition about: between the look of a node and
its attach the other node can attach the disk too, and then both elections
return PRIMARY.
-/

namespace PgHa.Race

open Effect DiskManager

variable {cfg : Site → Config}

/-- What the Compute API knows: the instance that holds the disk read-write. -/
abbrev Holder := Option String

/-- A request of node `i`, answered truthfully at the moment it is made.  A
forced attach moves the disk to the caller. -/
def raceStep (cfg : Site → Config) (i : Site) (s : Holder) (event : Event SysCall.Ret Exc)
    (s' : Holder) : Prop :=
  match event with
  | ⟨.gcp (.getDisk ..), answer⟩ =>
      s' = s ∧ ∃ disk, Response.fetched answer = .ok disk ∧
        ∀ j, (∃ userUrl ∈ disk.users, lastSegment userUrl = (cfg j).cluster.nodeName) ↔
          s = some (cfg j).cluster.nodeName
  | ⟨.gcp (.getInstance _ _ name), answer⟩ =>
      s' = s ∧ ∃ inst, Response.fetched answer = .ok inst ∧
        (showsRw (cfg i) inst = true ↔ s = some name)
  | ⟨.gcp (.attachDisk _ _ name _), answer⟩ =>
      s' = some name ∧ ∃ op, answer = .ok (.ok op)
  | ⟨.gcp (.detachDisk _ _ name _), _⟩ => s' = s ∨ s = some name ∧ s' = none
  | _ => s' = s

/-- The elections of both nodes over the Compute API. -/
def raceSystem (cfg : Site → Config) : System Site SysCall.Ret Exc NodeRole Holder where
  step := raceStep cfg
  fork _ _ _ _ _ _ := False
  arrive _ _ _ _ := False
  env _ _ := False

/-- Both nodes start their election; nobody holds the disk. -/
def raceStart (cfg : Site → Config) : Threads Site SysCall.Ret Exc NodeRole Holder where
  shared := none
  prog i := (ElectionManager.elect (cfg i)).lower (managers (cfg i))

/-- A node force-attaches the disk only while the other node does not hold it. -/
def attachesFree (cfg : Site → Config) (i : Site) (s : Holder) (event : Event SysCall.Ret Exc) :
    Prop :=
  isAttachPost event.op → ∀ j, j ≠ i → s ≠ some (cfg j).cluster.nodeName

/-- Under `attachesFree` a node keeps the disk once it holds it. -/
def raceContract (cfg : Site → Config) :
    Contract ((raceSystem cfg).restrict (attachesFree cfg)) where
  inv _ := True
  rely i s s' := s = some (cfg i).cluster.nodeName → s' = some (cfg i).cluster.nodeName
  refl _ _ := id
  trans _ _ _ _ h h' := h' ∘ h
  start _ _ _ := False
  post i outcome s := outcome = .returned .primary → s = some (cfg i).cluster.nodeName
  stable _ _ _ _ hrely _ hpost houtcome := hrely (hpost houtcome)

/-- The transformer of node `i` in the race. -/
abbrev racer (cfg : Site → Config) (i : Site) : Transformer SysCall.Ret Exc Holder :=
  (raceContract cfg).thread i

theorem raceStep_of_not_move {i : Site} {s s' : Holder} {event : Event SysCall.Ret Exc}
    (h : ¬ isMovePost event.op) (hstep : raceStep cfg i s event s') : s' = s := by
  obtain ⟨op, answer⟩ := event
  rcases op with (_ | _ | _ | _ | _ | _) | _
  case gcp.attachDisk => exact absurd (.inl trivial) h
  case gcp.detachDisk => exact absurd (.inr trivial) h
  all_goals first | exact hstep.1 | exact hstep

/-- An operation that does not move the disk leaves an assertion alone that the other
node leaves alone. -/
theorem racer_of_not_move {i : Site} (assertion : Holder → Prop)
    (hstable : ∀ s₁ s₂, assertion s₁ → (raceContract cfg).rely i s₁ s₂ → assertion s₂)
    (op : SysCall) (hop : ¬ isMovePost op) (s : Holder) (hs : assertion s) :
    racer cfg i op (fun _ s' => assertion s') s := by
  refine Contract.thread_of_step assertion hs (fun s₁ s₂ h₁ hrely _ => hstable s₁ s₂ h₁ hrely)
    (fun _ _ _ _ _ h => h.2) fun s₁ h₁ _ answer s₂ hstep => ?_
  obtain rfl : s₂ = s₁ := raceStep_of_not_move hop hstep.2
  exact ⟨trivial, fun _ _ h => h, h₁⟩

theorem quiet_wp {i : Site} {α : Type} {program : Sys α}
    (hcalls : program.Calls fun op => ¬ isMovePost op) {assertion : Holder → Prop}
    (hstable : ∀ s₁ s₂, assertion s₁ → (raceContract cfg).rely i s₁ s₂ → assertion s₂)
    {s : Holder} (hs : assertion s) {post : Outcome Exc α → Holder → Prop}
    (hpost : ∀ outcome s', assertion s' → post outcome s') :
    program.wp (racer cfg i) post s :=
  Prog.wp_of_calls ((raceContract cfg).thread_monotone i) (racer_of_not_move assertion hstable)
    hcalls hs hpost

/-- The node holds the disk. -/
def Holds (cfg : Site → Config) (i : Site) (s : Holder) : Prop :=
  s = some (cfg i).cluster.nodeName

theorem holderAmong_wp {i : Site} (users : List String) (s : Holder) :
    (holderAmong (cfg i) users).wp (racer cfg i)
      (fun outcome s' => outcome = .returned (some (cfg i).cluster.nodeName) →
        Holds cfg i s') s := by
  induction users generalizing s with
  | nil => simp [holderAmong]
  | cons userUrl rest ih =>
      unfold holderAmong
      cases hzone : zoneForInstance (cfg i) (lastSegment userUrl) with
      | none => simpa [hzone] using ih s
      | some zone =>
          simp only [hzone, attempt_getInstance, Prog.bind_eq, Prog.call_bind, Prog.pure_bind,
            Prog.wp_call]
          refine Contract.thread_of_step (fun _ => True) trivial
            (fun _ _ _ _ _ => trivial) (fun _ _ _ _ _ h => h.2) fun s₁ _ _ answer s₂ hstep => ?_
          obtain ⟨-, rfl, inst, hinst, hshows⟩ := hstep
          refine ⟨trivial, fun _ _ h => h, ?_⟩
          simp only [hinst, Prog.wp_ite]
          split_ifs with hrw
          · intro houtcome
            have hname : lastSegment userUrl = (cfg i).cluster.nodeName := by
              simpa using houtcome
            exact (hshows.mp hrw).trans (congrArg some hname)
          · exact ih _

theorem currentRwHolder_wp {i : Site} (s : Holder) :
    (currentRwHolder (cfg i)).wp (racer cfg i)
      (fun outcome s' => outcome = .returned (some (cfg i).cluster.nodeName) →
        Holds cfg i s') s := by
  simp only [currentRwHolder, attempt_getDisk, Prog.bind_eq, Prog.call_bind, Prog.pure_bind,
    Prog.wp_call]
  refine Contract.thread_of_step (fun _ => True) trivial
    (fun _ _ _ _ _ => trivial) (fun _ _ _ _ _ h => h.2) fun s₁ _ _ answer s₂ hstep => ?_
  obtain ⟨-, rfl, disk, hdisk, -⟩ := hstep
  refine ⟨trivial, fun _ _ h => h, ?_⟩
  simp only [hdisk]
  exact holderAmong_wp disk.users _

theorem rely_holds {i : Site} (s₁ s₂ : Holder) (h : Holds cfg i s₁)
    (hrely : (raceContract cfg).rely i s₁ s₂) : Holds cfg i s₂ := hrely h

theorem attachDiskRw_wp {i : Site} (s : Holder) :
    (attachDiskRw (cfg i)).wp (racer cfg i)
      (fun outcome s' => outcome = .returned () → Holds cfg i s') s := by
  simp only [attachDiskRw, Prog.bind_eq, Prog.wp_bind]
  refine Prog.wp_mono ((raceContract cfg).thread_monotone i) ?_ (currentRwHolder_wp s)
  rintro (holder | exc | _) s₁ hholder
  · simp only [Prog.andThen_returned, Prog.wp_ite]
    split_ifs with hme
    · exact fun _ => hholder (by rw [hme])
    · -- the request itself: it gives the disk to this node, and whatever
      -- follows leaves it there
      refine Contract.thread_of_step (fun _ => True) trivial
        (fun _ _ _ _ _ => trivial) (fun _ _ _ _ _ h => h.2) fun s₂ _ _ answer s₃ hstep => ?_
      obtain ⟨hfree, rfl, op, rfl⟩ := hstep
      refine ⟨trivial, fun j hj hother => absurd hother (hfree trivial j hj), ?_⟩
      refine quiet_wp ?_ rely_holds rfl fun _ _ h _ => h
      refine .except (.bind (Prog.calls_ofExcept _) fun resp => .ite (Prog.calls_raise _)
        (.bind (Prog.calls_ofExcept _) fun op => ?_)) fun exc => .ite trivial trivial
      exact (awaitNamed_calls _ _ op).mono fun op hop =>
        not_isMovePost_of_isQuery op (isQuery_of_isPoll op hop)
  · simp
  · simp

theorem becomeStandby_wp {i : Site} (s : Holder) :
    (ElectionManager.becomeStandby.lower (managers (cfg i))).wp (racer cfg i)
      ((raceContract cfg).post i) s := by
  refine Prog.wp_of_calls_of_yields ((raceContract cfg).thread_monotone i)
    (racer_of_not_move (fun _ => True) fun _ _ _ _ => trivial)
    (lower_calls_not_move _ ElectionManager.becomeStandby_calls)
    (ElectionManager.becomeStandby_yields.lower _) trivial fun outcome s' _ hyields => ?_
  intro houtcome
  exact absurd (hyields _ houtcome) (by decide)

/-- A node that holds the disk and resumes the role of the primary keeps it. -/
theorem becomePrimary_wp {i : Site} {s : Holder} (hs : Holds cfg i s) :
    ((ElectionManager.becomePrimary false).lower (managers (cfg i))).wp (racer cfg i)
      (fun _ s' => Holds cfg i s') s :=
  quiet_wp (lower_calls_not_move _ ElectionManager.becomePrimary_calls) rely_holds hs
    fun _ _ h => h

/-- An operation of the host tells a node nothing about the disk. -/
theorem host_wp {i : Site} (call : HostCall) {post : Outcome Exc call.Ret → Holder → Prop}
    {s : Holder} (hpost : ∀ outcome s', post outcome s') :
    (Sys.host call).wp (racer cfg i) post s :=
  Prog.wp_of_calls ((raceContract cfg).thread_monotone i)
    (racer_of_not_move (fun _ => True) fun _ _ _ _ => trivial)
    (Prog.Calls.perform fun h => h.elim id id) trivial fun outcome s' _ => hpost outcome s'

theorem post_of_not_returned {i : Site} {outcome : Outcome Exc NodeRole} {s : Holder}
    (h : ∀ value, outcome ≠ .returned value) : (raceContract cfg).post i outcome s :=
  fun houtcome => absurd houtcome (h _)

theorem competeForPrimary_wp {i : Site} (s : Holder) :
    ((ElectionManager.competeForPrimary (cfg i)).lower (managers (cfg i))).wp (racer cfg i)
      ((raceContract cfg).post i) s := by
  have hmono := (raceContract cfg).thread_monotone i
  -- what the handler of `attach_disk_rw` and `_become_primary` comes to
  have hhandler (exc : Exc) (s : Holder) : ((if exc.isRuntimeError then
      ElectionManager.becomeStandby else Prog.raise exc).lower (managers (cfg i))).wp
      (racer cfg i) ((raceContract cfg).post i) s := by
    rw [Prog.lower_ite, Prog.wp_ite]
    split_ifs
    · exact becomeStandby_wp s
    · exact post_of_not_returned (by simp)
  simp only [ElectionManager.competeForPrimary, Prog.bind_eq, Prog.lower_bind,
    Prog.lower_perform, Prog.lower_except, managers, Prog.wp_bind]
  refine host_wp _ fun hash s₁ => ?_
  rcases hash with hash | exc | _
  · simp only [Prog.andThen_returned, Prog.wp_bind]
    refine host_wp _ fun slept s₂ => ?_
    rcases slept with _ | exc | _
    · simp only [Prog.andThen_returned, Prog.wp_except, Prog.wp_bind]
      refine Prog.wp_mono hmono ?_ (attachDiskRw_wp s₂)
      rintro (_ | exc | _) s₃ hattached
      · refine Prog.wp_mono hmono ?_ (becomePrimary_wp (hattached rfl))
        rintro (role | exc | _) s₄ hholds
        · exact fun _ => hholds
        · exact hhandler exc s₄
        · exact post_of_not_returned (by simp)
      · exact hhandler exc s₃
      · exact post_of_not_returned (by simp)
    · exact post_of_not_returned (by simp)
    · exact post_of_not_returned (by simp)
  · exact post_of_not_returned (by simp)
  · exact post_of_not_returned (by simp)

theorem elect_wp {i : Site} (s : Holder) :
    (raceContract cfg).Safe i ((ElectionManager.elect (cfg i)).lower (managers (cfg i))) s := by
  unfold Contract.Safe
  simp only [ElectionManager.elect, Prog.bind_eq, Prog.lower_bind, Prog.lower_perform,
    Prog.lower_ite, Prog.wp_bind, managers]
  refine Prog.wp_mono ((raceContract cfg).thread_monotone i) ?_ (currentRwHolder_wp s)
  rintro (holder | exc | _) s₁ hholder
  · simp only [Prog.andThen_returned, Prog.wp_ite]
    split_ifs with hme hother
    · refine Prog.wp_mono ((raceContract cfg).thread_monotone i) (fun outcome s' h _ => h) ?_
      exact becomePrimary_wp (hholder (by rw [hme]))
    · exact becomeStandby_wp s₁
    · exact competeForPrimary_wp s₁
  · intro h
    cases h
  · intro h
    cases h

theorem raceContract_holds (cfg : Site → Config) : (raceContract cfg).Holds where
  start _ _ _ _ h := h.elim
  arrive _ _ _ _ _ h := h.elim
  env _ _ _ h := h.elim

/-- **Election mutual exclusion.**  As long as a node force-attaches the disk
only while the other node does not hold it, a node whose election has returned
PRIMARY holds the disk, and so at most one of them has. -/
theorem primary_holds (hcfg : Mirrored cfg) {state : Threads Site SysCall.Ret Exc NodeRole Holder}
    (hrun : ((raceSystem cfg).restrict (attachesFree cfg)).Reach (raceStart cfg) state) :
    (∀ i, (state.prog i).outcome? = some (.returned .primary) →
      state.shared = some (cfg i).cluster.nodeName) ∧
    ∀ i j, (state.prog i).outcome? = some (.returned .primary) →
      (state.prog j).outcome? = some (.returned .primary) → i = j := by
  have hsound := (raceContract_holds cfg).reach hrun ⟨trivial, fun i => elect_wp none⟩
  have hholds (i : Site) (h : (state.prog i).outcome? = some (.returned .primary)) :
      state.shared = some (cfg i).cluster.nodeName := hsound.ended h rfl
  refine ⟨hholds, fun i j hi hj => hcfg.nodeName_injective ?_⟩
  exact Option.some.inj ((hholds i hi).symm.trans (hholds j hj))

/-! ## Two primaries -/

/-- An instance of the sample cluster, with the disk attached when it holds it. -/
def sampleInstance (s : Holder) (name : String) : Instance where
  status := some "RUNNING"
  disks := if s = some name then
      [⟨some (diskSelfLink .samplePrimary), some "READ_WRITE", some "pg-data-disk"⟩]
    else []
  networkInterfaces := [⟨some "nic0", some "fingerprint", []⟩]

/-- The nodes of the sample cluster that use the disk. -/
def sampleUsers (s : Holder) : List String :=
  ["pg-primary", "pg-standby"].filterMap fun name =>
    if s = some name then some ("projects/my-gcp-project/zones/a/instances/" ++ name) else none

/-- A healthy environment: every request and every command succeeds. -/
def healthy : (op : SysCall) → Holder → Except Exc op.Ret × Holder
  | .gcp (.getDisk ..), s => (.ok (.ok ⟨sampleUsers s⟩), s)
  | .gcp (.getInstance _ _ name), s => (.ok (.ok (sampleInstance s name)), s)
  | .gcp (.getOperation ..), s => (.ok (.ok ⟨none, some "DONE", none⟩), s)
  | .gcp (.attachDisk _ _ name _), _ => (.ok (.ok ⟨none, none, none⟩), some name)
  | .gcp (.detachDisk ..), s => (.ok (.ok ⟨none, none, none⟩), s)
  | .gcp (.updateNetworkInterface ..), s => (.ok (.ok ⟨none, none, none⟩), s)
  | .host (.run _), s => (.ok ⟨0, "", ""⟩, s)
  | .host (.pathExists _), s => (.ok true, s)
  | .host .monotonic, s | .host (.hash _), s => (.ok 0, s)
  | .host .readMounts, s => (.ok [], s)
  | .host (.sleep _), s | .host (.setRole _), s | .host (.setHealth _), s
  | .host (.setPgState _), s | .host (.setDiskState _), s => (.ok (), s)
  | .host _, s => (.error ⟨.other, ""⟩, s)

theorem sampleUsers_iff (s : Holder) (j : Site) :
    (∃ userUrl ∈ (Disk.mk (sampleUsers s)).users,
      lastSegment userUrl = (sampleSites j).cluster.nodeName) ↔
      s = some (sampleSites j).cluster.nodeName := by
  have hprimary : lastSegment "projects/my-gcp-project/zones/a/instances/pg-primary" =
      "pg-primary" := by decide
  have hstandby : lastSegment "projects/my-gcp-project/zones/a/instances/pg-standby" =
      "pg-standby" := by decide
  have hnames : ("pg-primary" : String) ≠ "pg-standby" := by decide
  cases j <;> by_cases hone : s = some "pg-primary" <;> by_cases htwo : s = some "pg-standby" <;>
    simp_all [sampleUsers, sampleSites, Config.samplePrimary, Config.sampleStandby, Config.sample]

theorem showsRw_sampleInstance (s : Holder) (i : Site) (name : String) :
    showsRw (sampleSites i) (sampleInstance s name) = true ↔ s = some name := by
  by_cases hs : s = some name
  · have hshows : showsRw (sampleSites i) (sampleInstance (some name) name) = true := by
      cases i <;> simp only [sampleInstance, if_true] <;> decide
    simp [hs, hshows]
  · simp [sampleInstance, hs, showsRw]

theorem raceStep_healthy (i : Site) (s : Holder) (op : SysCall) :
    raceStep sampleSites i s ⟨op, (healthy op s).1⟩ (healthy op s).2 := by
  rcases op with call | call
  · cases call with
    | getDisk project region disk =>
        refine ⟨rfl, ⟨sampleUsers s⟩, rfl, fun j => ?_⟩
        exact sampleUsers_iff s j
    | getInstance project zone name =>
        refine ⟨rfl, sampleInstance s name, rfl, ?_⟩
        exact showsRw_sampleInstance s i name
    | attachDisk project zone name payload => exact ⟨rfl, _, rfl⟩
    | detachDisk project zone name device => exact .inl rfl
    | _ => rfl
  · cases call <;> rfl

/-- Stop before the disk is attached. -/
def beforeAttach : SysCall → Holder → Bool
  | .gcp (.attachDisk ..), _ => true
  | _, _ => false

/-- Stop before the disk is taken from somebody. -/
def beforeTheft : SysCall → Holder → Bool
  | .gcp (.attachDisk ..), s => s.isSome
  | _, _ => false

/-- One node elects itself, and then the other one looks. -/
def oneAttaches : Threads Site SysCall.Ret Exc NodeRole Holder :=
  ((raceStart sampleSites).advance healthy beforeTheft .primary 100).advance healthy beforeTheft
    .standby 100

theorem primary_holds_oneAttaches : oneAttaches.shared = some "pg-primary" := by
  have hstep (i : Site) (s : Holder) (op : SysCall) (hop : beforeTheft op s = false) :
      ((raceSystem sampleSites).restrict (attachesFree sampleSites)).step i s
        ⟨op, (healthy op s).1⟩ (healthy op s).2 := by
    refine ⟨fun hattach j _ hs => ?_, raceStep_healthy i s op⟩
    rcases op with (_ | _ | _ | _ | _ | _) | _
    case gcp.attachDisk => simp [hs, beforeTheft] at hop
    all_goals exact hattach
  refine (primary_holds mirrored_sampleSites ?_).1 .primary ?_
  · exact (System.Reach.advance .refl (hstep .primary) 100).advance (hstep .standby) 100
  · decide

/-- Both nodes find the disk free, and then both attach it. -/
def bothAttach : Threads Site SysCall.Ret Exc NodeRole Holder :=
  ((((raceStart sampleSites).advance healthy beforeAttach .primary 100).advance
    healthy beforeAttach .standby 100).advance healthy (fun _ _ => false) .primary 100).advance
    healthy (fun _ _ => false) .standby 100

theorem reach_bothAttach : (raceSystem sampleSites).Reach (raceStart sampleSites) bothAttach := by
  have hstep (i : Site) {stop : SysCall → Holder → Bool} (s : Holder) (op : SysCall)
      (_ : stop op s = false) :
      (raceSystem sampleSites).step i s ⟨op, (healthy op s).1⟩ (healthy op s).2 :=
    raceStep_healthy i s op
  exact (((System.Reach.advance .refl (hstep .primary) 100).advance (hstep .standby) 100).advance
    (hstep .primary) 100).advance (hstep .standby) 100

/-- Both elections return PRIMARY, and only the second node holds the disk. -/
theorem not_primary_holds : ¬ ∀ cfg, Mirrored cfg → ∀ state,
    (raceSystem cfg).Reach (raceStart cfg) state →
      (∀ i, (∀ j, (state.prog j).Finished) → (state.prog i).outcome? = some (.returned .primary) →
        state.shared = some (cfg i).cluster.nodeName) ∧
      ∀ i j, (state.prog i).outcome? = some (.returned .primary) →
        (state.prog j).outcome? = some (.returned .primary) → i = j := by
  intro h
  have hboth := (h sampleSites mirrored_sampleSites bothAttach reach_bothAttach).2 .primary .standby
    (by decide) (by decide)
  exact absurd hboth (by decide)

end PgHa.Race
