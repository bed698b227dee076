import PgHa.Effect.Trace
import PgHa.Gcp.Footprint

/-!
# Which attached disk is taken for the regional one

Three loops look for the regional disk among the disks of an instance, and all
three compare the end of its URL with `/disks/<disk_name>`.  A zonal disk may
bear the same name.

`regional_iff` says for which lists of disks the loops look at the regional
disk all the same: those in which every other disk of that name comes after a
regional one that the same loop would have taken.  It also draws the consequence
for the device names that are sent with `detachDisk`.
-/

namespace PgHa.DiskMatch

open Effect DiskManager

/-! ## The first entry of a list -/

section First

variable {α : Type} {p q : α → Bool} {l : List α}

/-- Every element that `p` wrongly selects comes after one that it rightly selects. -/
def Shielded (p q : α → Bool) (l : List α) : Prop :=
  ∀ before x after, l = before ++ x :: after → p x = true → q x = false →
    ∃ y ∈ before, p y = true ∧ q y = true

theorem first_iff_shielded : (∀ x, l.find? p = some x → q x = true) ↔ Shielded p q l := by
  constructor
  · rintro hfirst before x after rfl hp hq
    cases hfind : before.find? p with
    | none =>
        -- nothing before `x` is selected, so `x` is the first one
        have hx : (before ++ x :: after).find? p = some x := by
          rw [List.find?_append, hfind, List.find?_cons_of_pos hp]
          rfl
        rw [hfirst x hx] at hq
        cases hq
    | some y =>
        have hy : (before ++ x :: after).find? p = some y := by
          rw [List.find?_append, hfind]
          rfl
        exact ⟨y, List.mem_of_find?_eq_some hfind, List.find?_some hfind, hfirst y hy⟩
  · intro hshielded x hx
    obtain ⟨hp, before, after, hsplit, hnone⟩ := List.find?_eq_some_iff_append.mp hx
    by_contra hq
    obtain ⟨y, hmem, hpy, -⟩ := hshielded before x after hsplit hp (by simpa using hq)
    have hnot := hnone y hmem
    rw [hpy] at hnot
    cases hnot

end First

variable {cfg : Config}

/-! ## The three loops -/

/-- What the disks of an instance are looked through for. -/
inductive Query
  /-- `get_disk_state()`. -/
  | state
  /-- `current_rw_holder()`. -/
  | holder
  /-- `_lookup_device_name()`. -/
  | deviceName

/-- The entries at which each of the loops stops. -/
def Query.stops (cfg : Config) (query : Query) (disk : AttachedDisk) : Bool :=
  match query with
  | .state =>
      isOurs cfg disk && (disk.mode == some "READ_WRITE" || disk.mode == some "READ_ONLY")
  | .holder => isOurs cfg disk && disk.mode == some "READ_WRITE"
  | .deviceName => isOurs cfg disk

/-- The entry whose mode or device name is used. -/
def Query.entry (cfg : Config) (query : Query) (disks : List AttachedDisk) : Option AttachedDisk :=
  disks.find? (query.stops cfg)

/-- The state that the mode of an entry stands for. -/
def stateOf (disk : AttachedDisk) : DiskState :=
  if disk.mode = some "READ_WRITE" then .attachedRw else .attachedRo

theorem stateAmong_eq (disks : List AttachedDisk) :
    stateAmong cfg disks = ((Query.state.entry cfg disks).map stateOf).getD .detached := by
  induction disks with
  | nil => rfl
  | cons disk rest ih =>
      obtain ⟨source, mode, deviceName⟩ := disk
      by_cases hours : isOurs cfg ⟨source, mode, deviceName⟩ = true
      · by_cases hrw : mode = some "READ_WRITE"
        · subst hrw
          simp [stateAmong, Query.entry, Query.stops, stateOf, hours]
        · by_cases hro : mode = some "READ_ONLY"
          · subst hro
            simp [stateAmong, Query.entry, Query.stops, stateOf, hours]
          · -- neither mode: the loop goes on
            have hgetD (text : String) (hne : text ≠ "") (hmode : mode ≠ some text) :
                mode.getD "" ≠ text := by
              cases mode with
              | none => exact fun h => hne h.symm
              | some value => exact fun h => hmode (congrArg some h)
            have hrw' := hgetD "READ_WRITE" (by decide) hrw
            have hro' := hgetD "READ_ONLY" (by decide) hro
            simp only [Query.entry] at ih
            simp [stateAmong, Query.entry, Query.stops, hours, hrw, hro, hrw', hro', ih]
      · simp only [Query.entry] at ih
        simp [stateAmong, Query.entry, Query.stops, hours, ih]

/-- `get_disk_state()` answers with the mode of its entry. -/
theorem getDiskState_eq : getDiskState cfg =
    .call (.gcp (.getInstance cfg.gcp.projectId cfg.myZone cfg.cluster.nodeName)) fun answer =>
      .pure (match Response.fetched answer with
        | .ok inst => ((Query.state.entry cfg inst.disks).map stateOf).getD .detached
        | .error _ => .unknown) := by
  rw [getDiskState, attempt_getInstance]
  refine congrArg (Prog.call _) (funext fun answer => ?_)
  rw [Prog.pure_bind]
  cases Response.fetched answer with
  | error exc => rfl
  | ok inst => exact congrArg Prog.pure (stateAmong_eq inst.disks)

/-- An instance counts as the holder when its loop stops at an entry. -/
theorem showsRw_eq (inst : Instance) :
    showsRw cfg inst = (Query.holder.entry cfg inst.disks).isSome := by
  rw [Query.entry, List.isSome_find?]
  rfl

/-- The device name that an answer to the request for the instance shows. -/
def deviceIn (cfg : Config) (answer : Except Exc (Response Instance)) : Option String :=
  match Response.fetched answer with
  | .ok inst => (Query.deviceName.entry cfg inst.disks).bind (·.deviceName)
  | .error _ => none

/-- `_lookup_device_name()` answers with the device name of its entry. -/
theorem lookupDeviceName_eq (name zone : String) : lookupDeviceName cfg name zone =
    .call (.gcp (.getInstance cfg.gcp.projectId zone name)) fun answer =>
      .pure (deviceIn cfg answer) := by
  rw [lookupDeviceName, attempt_getInstance]
  refine congrArg (Prog.call _) (funext fun answer => ?_)
  rw [Prog.pure_bind, deviceIn]
  cases Response.fetched answer <;> rfl

/-! ## The regional disk -/

/-- The path of the regional disk in the Compute API. -/
def regionalPath (cfg : Config) : String :=
  "projects/" ++ cfg.gcp.projectId ++ "/regions/" ++ cfg.gcp.region ++ "/disks/" ++
    cfg.gcp.diskName

/-- The source of an entry is the regional disk, under any base URL of the Compute API. -/
def isRegional (cfg : Config) (disk : AttachedDisk) : Bool :=
  disk.source == some (regionalPath cfg) ||
    endswith (disk.source.getD "") ("/" ++ regionalPath cfg)

/-- What is attached under the link of the configuration is the regional disk. -/
theorem isRegional_diskSelfLink (mode deviceName : Option String) :
    isRegional cfg ⟨some (diskSelfLink cfg), mode, deviceName⟩ = true := by
  have hlink : diskSelfLink cfg =
      "https://www.googleapis.com/compute/v1" ++ ("/" ++ regionalPath cfg) := by
    have hbase : "https://www.googleapis.com/compute/v1/projects/" =
        "https://www.googleapis.com/compute/v1" ++ "/" ++ "projects/" := by simp
    unfold diskSelfLink regionalPath
    rw [hbase]
    simp only [String.append_assoc]
  have hends : endswith (diskSelfLink cfg) ("/" ++ regionalPath cfg) = true := by
    rw [hlink]
    exact endswith_append _ _
  exact Bool.or_eq_true_iff.mpr (.inr hends)

/-- Every entry that is used is the regional disk. -/
def UsesRegional (cfg : Config) (disks : List AttachedDisk) : Prop :=
  ∀ query disk, Query.entry cfg query disks = some disk → isRegional cfg disk = true

/-- Any other disk of that name at which a loop could stop comes after a regional one at
which the loop stops. -/
def RegionalFirst (cfg : Config) (disks : List AttachedDisk) : Prop :=
  ∀ query : Query, Shielded (query.stops cfg) (isRegional cfg) disks

theorem usesRegional_iff (disks : List AttachedDisk) :
    UsesRegional cfg disks ↔ RegionalFirst cfg disks :=
  forall_congr' fun _ => first_iff_shielded

/-! ## The device names of the detach requests -/

/-- The instance has been seen to have the disk under this device name. -/
def Named (cfg : Config) (trace : List (Event SysCall.Ret Exc))
    (project zone name device : String) : Prop :=
  ∃ answer inst, ⟨.gcp (.getInstance project zone name), answer⟩ ∈ trace ∧
    Response.fetched answer = .ok inst ∧
    (Query.deviceName.entry cfg inst.disks).bind (·.deviceName) = some device

/-- The operations of a detach from an instance once the device name is known. -/
def detaching (cfg : Config) (zone name device : String) (op : SysCall) : Prop :=
  isPoll op ∨ op = .gcp (.detachDisk cfg.gcp.projectId zone name device)

theorem requestDetach_detaching (device : String) :
    (requestDetach cfg device).Calls (detaching cfg cfg.myZone cfg.cluster.nodeName device) := by
  refine .perform_bind (.inr rfl) fun resp => .ite trivial ?_
  refine .bind (Prog.calls_ofExcept _) fun op => ?_
  exact (awaitNamed_calls cfg cfg.myZone op).mono fun _ => .inl

theorem requestForceDetach_detaching (device : String) :
    (requestForceDetach cfg device).Calls
      (detaching cfg cfg.peerZone cfg.cluster.peerNode device) := by
  refine .perform_bind (.inr rfl) fun resp => .ite ?_ (.ite trivial trivial)
  refine .bind (Prog.calls_ofExcept _) fun op => ?_
  exact (awaitNamed_calls cfg cfg.peerZone op).mono fun _ => .inl

/-- A detach looks the device name up at an instance and then asks that instance for that device
only. -/
theorem named_of_lookup {name zone : String} {next : Option String → Sys Unit}
    (hnone : next none = .pure ())
    (hsome : ∀ device, (next (some device)).Calls (detaching cfg zone name device))
    {trace : List (Event SysCall.Ret Exc)} {outcome : Outcome Exc Unit}
    (htrace : ((lookupDeviceName cfg name zone).bind next).Trace trace outcome)
    {project zone' name' device : String}
    (hsent : ∃ answer, ⟨.gcp (.detachDisk project zone' name' device), answer⟩ ∈ trace) :
    Named cfg trace project zone' name' device := by
  obtain ⟨sent, hsent⟩ := hsent
  rw [lookupDeviceName_eq] at htrace
  cases htrace with
  | @call _ _ answer rest _ hrest =>
      have hmem : (⟨.gcp (.detachDisk project zone' name' device), sent⟩ :
          Event SysCall.Ret Exc) ∈ rest := by
        rcases List.mem_cons.mp hsent with h | h
        · cases h
        · exact h
      have hnext : (next (deviceIn cfg answer)).Trace rest outcome := hrest
      cases hdevice : deviceIn cfg answer with
      | none =>
          rw [hdevice, hnone] at hnext
          cases hnext
          cases hmem
      | some found =>
          rw [hdevice] at hnext
          -- nothing but the device that was found is asked for, and of the same instance
          have hasked : SysCall.gcp (.detachDisk project zone' name' device) =
              .gcp (.detachDisk cfg.gcp.projectId zone name found) := by
            rcases (hsome found).trace hnext _ hmem with hpoll | heq
            · exact hpoll.elim
            · exact heq
          cases hasked
          unfold deviceIn at hdevice
          split at hdevice
          · exact ⟨answer, _, List.mem_cons_self, ‹_›, hdevice⟩
          · cases hdevice

theorem detachDisk_named {trace : List (Event SysCall.Ret Exc)} {outcome : Outcome Exc Unit}
    (htrace : (detachDisk cfg).Trace trace outcome) {project zone name device : String}
    (hsent : ∃ answer, ⟨.gcp (.detachDisk project zone name device), answer⟩ ∈ trace) :
    Named cfg trace project zone name device := by
  refine named_of_lookup rfl (fun device => ?_) htrace hsent
  exact .except (requestDetach_detaching device) fun exc => .ite trivial trivial

theorem forceDetachFromPeer_named {trace : List (Event SysCall.Ret Exc)}
    {outcome : Outcome Exc Unit} (htrace : (forceDetachFromPeer cfg).Trace trace outcome)
    {project zone name device : String}
    (hsent : ∃ answer, ⟨.gcp (.detachDisk project zone name device), answer⟩ ∈ trace) :
    Named cfg trace project zone name device := by
  refine named_of_lookup rfl (fun device => ?_) htrace hsent
  exact .except (requestForceDetach_detaching device) fun exc => .ite trivial trivial

/-- The instance has been fetched, and lists a regional entry under this device name. -/
def RegionalDevice (cfg : Config) (trace : List (Event SysCall.Ret Exc))
    (project zone name device : String) : Prop :=
  ∃ answer inst, ⟨.gcp (.getInstance project zone name), answer⟩ ∈ trace ∧
    Response.fetched answer = .ok inst ∧
    ∃ disk ∈ inst.disks, isRegional cfg disk = true ∧ disk.deviceName = some device

/-- Every instance that has been fetched lists the regional disk first. -/
def ShowsRegionalFirst (cfg : Config) (trace : List (Event SysCall.Ret Exc)) : Prop :=
  ∀ project zone name answer inst, ⟨.gcp (.getInstance project zone name), answer⟩ ∈ trace →
    Response.fetched answer = .ok inst → RegionalFirst cfg inst.disks

theorem Named.regional {trace : List (Event SysCall.Ret Exc)} {project zone name device : String}
    (h : Named cfg trace project zone name device) (hfirst : ShowsRegionalFirst cfg trace) :
    RegionalDevice cfg trace project zone name device := by
  obtain ⟨answer, inst, hmem, hinst, hdevice⟩ := h
  obtain ⟨disk, hentry, hname⟩ := Option.bind_eq_some_iff.mp hdevice
  have hregional : isRegional cfg disk = true :=
    (usesRegional_iff inst.disks).mpr (hfirst _ _ _ _ _ hmem hinst) _ _ hentry
  exact ⟨_, _, hmem, hinst, disk, List.mem_of_find?_eq_some hentry, hregional, hname⟩

/-- **Which disk is matched.**  The loops use the regional disk exactly when it is listed
before every other one of its name, and where it is, both detaches ask for the device under
which the instance they detach from lists it. -/
theorem regional_iff (cfg : Config) :
    (∀ disks, UsesRegional cfg disks ↔ RegionalFirst cfg disks) ∧
    ∀ program, program = detachDisk cfg ∨ program = forceDetachFromPeer cfg →
      ∀ trace outcome, program.Trace trace outcome → ShowsRegionalFirst cfg trace →
        ∀ project zone name device answer,
          ⟨.gcp (.detachDisk project zone name device), answer⟩ ∈ trace →
            RegionalDevice cfg trace project zone name device := by
  refine ⟨usesRegional_iff, ?_⟩
  rintro program (rfl | rfl) trace outcome htrace hfirst project zone name device answer hsent
  · exact (detachDisk_named htrace ⟨answer, hsent⟩).regional hfirst
  · exact (forceDetachFromPeer_named htrace ⟨answer, hsent⟩).regional hfirst

/-! ## Sample disks -/

/-- The regional disk of the sample configuration, attached to the primary. -/
def regionalDisk : AttachedDisk :=
  ⟨some (diskSelfLink .samplePrimary), some "READ_WRITE", some "pg-data-disk"⟩

/-- A zonal disk of the same name. -/
def zonalDisk : AttachedDisk :=
  ⟨some ("https://www.googleapis.com/compute/v1/projects/my-gcp-project/zones/us-central1-a" ++
      "/disks/pg-regional-disk"), some "READ_WRITE", some "scratch"⟩

/-- The disks are listed, and a detach is accepted. -/
def listing (disks : List AttachedDisk) : (op : SysCall) → Unit → Except Exc op.Ret × Unit
  | .gcp (.getInstance ..), _ => (.ok (.ok ⟨some "RUNNING", disks, []⟩), ())
  | .gcp (.detachDisk ..), _ => (.ok (.ok ⟨none, none, none⟩), ())
  | _, _ => (.error (.runtimeError ""), ())

def listedRun (disks : List AttachedDisk) : Run SysCall.Ret Exc Unit Unit :=
  (forceDetachFromPeer .sampleStandby).run (listing disks) ()

theorem regionalFirst_sample : RegionalFirst .sampleStandby [regionalDisk, zonalDisk] := by
  refine (usesRegional_iff _).mp fun query disk hentry => ?_
  have hours : isOurs .sampleStandby regionalDisk = true :=
    isOurs_diskSelfLink .sampleStandby (some "READ_WRITE") (some "pg-data-disk")
  have hstops : query.stops .sampleStandby regionalDisk = true := by
    have hmode : regionalDisk.mode = some "READ_WRITE" := rfl
    cases query <;> simp [Query.stops, hours, hmode]
  have hfirst : Query.entry .sampleStandby query [regionalDisk, zonalDisk] = some regionalDisk :=
    List.find?_cons_of_pos hstops
  rw [hfirst] at hentry
  obtain rfl : regionalDisk = disk := Option.some.inj hentry
  exact isRegional_diskSelfLink ..

theorem regional_sample :
    RegionalDevice .sampleStandby (listedRun [regionalDisk, zonalDisk]).log
      "my-gcp-project" "us-central1-a" "pg-primary" "pg-data-disk" := by
  have hfirst : ShowsRegionalFirst .sampleStandby (listedRun [regionalDisk, zonalDisk]).log := by
    intro project zone name answer inst hmem hinst
    obtain ⟨s, hanswer⟩ := answer_of_mem_log _ _ hmem
    have hlisted : answer = .ok (.ok ⟨some "RUNNING", [regionalDisk, zonalDisk], []⟩) := hanswer
    rw [hlisted] at hinst
    obtain rfl : (⟨some "RUNNING", [regionalDisk, zonalDisk], []⟩ : Instance) = inst :=
      Except.ok.inj hinst
    exact regionalFirst_sample
  have hsent : (listedRun [regionalDisk, zonalDisk]).log.any (fun event =>
      event.op == .gcp (.detachDisk "my-gcp-project" "us-central1-a" "pg-primary" "pg-data-disk")) =
        true := by
    decide
  obtain ⟨⟨op, answer⟩, hmem, hop⟩ := List.any_eq_true.mp hsent
  obtain rfl := beq_iff_eq.mp hop
  exact (regional_iff .sampleStandby).2 _ (.inr rfl) _ _ (trace_run _ _ _) hfirst _ _ _ _ _ hmem

/-- With the zonal disk first, all three loops use it. -/
theorem not_usesRegional : ¬ ∀ cfg disks, UsesRegional cfg disks := by
  intro h
  have hentry : Query.entry .sampleStandby .deviceName [zonalDisk, regionalDisk] =
      some zonalDisk := by
    decide
  have hregional := h .sampleStandby [zonalDisk, regionalDisk] .deviceName zonalDisk hentry
  revert hregional
  decide

end PgHa.DiskMatch
