import PgHa.Cluster.Service
import PgHa.Gcp.Network

/-!
# The cluster, request by request

Two machines, two instances and a disk that do what they are asked: the Compute
API answers truthfully and its operations are done when they are polled, the
commands of a host succeed, and a process that is killed is gone.

`managers_refine` says that the managers, on such a cluster, do what `Service.lean` takes
them to do: each of their methods, with its requests, its polls and its commands,
is one operation of the pair that the cluster stands for.
-/

namespace PgHa.Cloud

open Effect Behaviour DiskManager NetworkManager

/-! ## The cluster -/

/-- A machine, and the daemon that runs on it. -/
structure Vm where
  daemon : DaemonState
  up : Bool
  mounted : Bool
  postgres : Bool

structure World where
  vm : Site → Vm
  /-- What the Compute API shows of the instances. -/
  inst : Site → Instance
  /-- The links of the instances. -/
  url : Site → String
  /-- The last message to a peer. -/
  request : Option PeerRequest

variable {cfg : Site → Config}

/-- Project, zone and name of an instance. -/
def address (cfg : Site → Config) (i : Site) : String × String × String :=
  ((cfg i).gcp.projectId, (cfg i).myZone, (cfg i).cluster.nodeName)

/-- The instance that a request would change. -/
def target : GcpCall → Option (String × String × String)
  | .attachDisk project zone name _ | .detachDisk project zone name _
  | .updateNetworkInterface project zone name _ _ => some (project, zone, name)
  | _ => none

/-- A patch takes effect if it shows the fingerprint of the interface, which it changes. -/
def patched (name : String) (payload : NicPayload) (nic : Nic) : Nic :=
  if nic.name = some name ∧ nic.fingerprint.getD "" = payload.fingerprint then
    { nic with
      fingerprint := some (payload.fingerprint ++ "'")
      aliasIpRanges := payload.aliasIpRanges.map fun cidr => ⟨cidr, none, []⟩ }
  else nic

/-- What the API shows of an instance after a request that is for it. -/
def requested (inst : Instance) : GcpCall → Instance
  | .attachDisk _ _ _ payload =>
      { inst with
        disks := inst.disks ++ [⟨some payload.source, some payload.mode, some payload.deviceName⟩] }
  | .detachDisk _ _ _ device =>
      { inst with disks := inst.disks.filter (·.deviceName ≠ some device) }
  | .updateNetworkInterface _ _ _ nic payload =>
      { inst with networkInterfaces := inst.networkInterfaces.map (patched nic payload) }
  | _ => inst

/-- What an operation of the host does to the machine. -/
def Vm.after (vm : Vm) : HostCall → Vm
  | .run (.mount ..) => { vm with mounted := true }
  | .run (.umount ..) => { vm with mounted := false }
  | .run (.pgCtlStart ..) => { vm with postgres := true }
  | .run (.pgCtlStop ..) | .killMountUsers _ => { vm with postgres := false }
  | call => { vm with daemon := vm.daemon.after call }

namespace World

/-- The interface that carries the address shows it. -/
def hasVip (cfg : Config) (inst : Instance) : Bool :=
  (inst.networkInterfaces.find? (·.name == some cfg.gcp.nicName)).any fun nic =>
    (cidrs nic).contains (some cfg.gcp.vipCidr)

/-- The pair of nodes that the cluster stands for. -/
def pair (cfg : Site → Config) (w : World) : Service.Pair where
  node i :=
    { daemon := (w.vm i).daemon
      held := fun
        | .vip => hasVip (cfg i) (w.inst i)
        | .postgres => (w.vm i).postgres
        | .filesystem => (w.vm i).mounted
        | .disk => showsRw (cfg i) (w.inst i) }
  up i := (w.vm i).up
  status i := (w.inst i).status.getD "UNKNOWN"
  request := w.request

/-- The users of the disk. -/
def users (cfg : Site → Config) (w : World) : List String :=
  ([.primary, .standby].filter fun i => showsRw (cfg i) (w.inst i)).map w.url

/-- Another instance in the place of the one that is there. -/
def set (w : World) (i : Site) (inst : Instance) : World :=
  { w with inst := fun j => if j = i then inst else w.inst j }

/-- Another state of the machine. -/
def setVm (w : World) (i : Site) (vm : Vm) : World :=
  { w with vm := fun j => if j = i then vm else w.vm j }

/-- What an operation of the daemon at `site` leaves behind. -/
def done (cfg : Site → Config) (site : Site) (w : World) : SysCall → World
  | .gcp call =>
      { w with inst := fun i =>
          if target call = some (address cfg i) then requested (w.inst i) call else w.inst i }
  | .host call =>
      { w with
        vm := fun i => if i = site then (w.vm i).after call else w.vm i
        request :=
          match call with
          | .sendRequest request => some request
          | _ => w.request }

/-- The answers of the Compute API. -/
def AnswersRequest (cfg : Site → Config) (w : World) :
    (call : GcpCall) → Except Exc call.Ret → Prop
  | .getDisk project region disk, answer =>
      ∀ i, (project, region, disk) =
          ((cfg i).gcp.projectId, (cfg i).gcp.region, (cfg i).gcp.diskName) →
        answer = .ok (.ok ⟨w.users cfg⟩)
  | .getInstance project zone name, answer =>
      ∀ i, (project, zone, name) = address cfg i → answer = .ok (.ok (w.inst i))
  | .getOperation .., answer =>
      ∃ op, answer = .ok (.ok op) ∧ op.status = some "DONE" ∧ op.error = none
  | .attachDisk project zone name _, answer =>
      ∀ i, (project, zone, name) = address cfg i → showsRw (cfg i.other) (w.inst i.other) = false →
        ∃ op, answer = .ok (.ok op)
  | .detachDisk project zone name _, answer =>
      ∀ i, (project, zone, name) = address cfg i → ∃ op, answer = .ok (.ok op)
  | .updateNetworkInterface project zone name nicName payload, answer =>
      ∀ i nic, (project, zone, name) = address cfg i →
        (w.inst i).networkInterfaces.find? (·.name == some nicName) = some nic →
        nic.fingerprint.getD "" = payload.fingerprint → ∃ op, answer = .ok (.ok op)

/-- The answers of the host at `site`, and of what it reaches. -/
def AnswersHost (cfg : Site → Config) (site : Site) (w : World) :
    (call : HostCall) → Except Exc call.Ret → Prop
  | .readMounts, answer =>
      ∃ lines, answer = .ok lines ∧
        lines.any (mountsAt (cfg site).gcp.diskMountPoint) = (w.vm site).mounted
  | .listdir _, answer => (w.vm site).mounted = true → ∃ names, answer = .ok names
  | .pathExists path, answer =>
      ∃ there, answer = .ok there ∧
        (path = devPath (cfg site) → showsRw (cfg site) (w.inst site) = true → there = true)
  | .run (.pgCtlStatus ..), answer =>
      ∃ result, answer = .ok result ∧ (result.returncode == 0) = (w.vm site).postgres
  | .run (.systemctl ..), _ => True
  | .run (.pgCtlStop ..), answer => ∃ result, answer = .ok result
  | .run _, answer => ∃ result, answer = .ok result ∧ result.returncode = 0
  | call, answer => (w.pair cfg).PeerAnswers cfg site call answer

end World

/-- What a reading of the clock shows. -/
def Timely (cfg : Config) (now : Int) (event : Event SysCall.Ret Exc) (now' : Int) : Prop :=
  match event with
  | ⟨.host .monotonic, answer⟩ => answer = .ok now' ∧ now' < now + Service.patience cfg
  | _ => True

/-- The operations that the daemon at `site` and its managers perform. -/
def cloud (cfg : Site → Config) (site : Site) : Behaviour SysCall.Ret Exc World where
  ready w
    | .host (.acquireFailoverLock _) => (w.vm site).daemon.failoverLocked = false
    | _ => True
  answers w
    | .gcp call, answer => w.AnswersRequest cfg call answer
    | .host call, answer =>
        (w.vm site).daemon.Answers call answer ∧ w.AnswersHost cfg site call answer
  done w op := w.done cfg site op
  timely := Timely (cfg site)

/-- The disk is attached as the daemons attach it, to one instance at a time, and both instances
have the interface for the address. -/
structure Sane (cfg : Site → Config) (w : World) : Prop where
  ours : ∀ i, ∀ disk ∈ (w.inst i).disks, isOurs (cfg i) disk = true →
    disk.mode = some "READ_WRITE" ∧ disk.deviceName = some (cfg i).gcp.diskDeviceName
  single : ∀ i, showsRw (cfg i) (w.inst i) = true → showsRw (cfg i.other) (w.inst i.other) = false
  nic : ∀ i, ∃ nic, (w.inst i).networkInterfaces.find?
    (·.name == some (cfg i).gcp.nicName) = some nic
  url : ∀ i, lastSegment (w.url i) = (cfg i).cluster.nodeName

/-! ## The configurations -/

section Configurations

theorem gcp_eq (h : Mirrored cfg) (i j : Site) : (cfg i).gcp = (cfg j).gcp := by
  cases i <;> cases j <;> first | rfl | exact h.gcp | exact h.gcp.symm

theorem peerNode_eq (h : Mirrored cfg) (i : Site) :
    (cfg i).cluster.peerNode = (cfg i.other).cluster.nodeName := by
  cases i
  · exact h.primaryPeer.trans h.standbyNode.symm
  · exact h.standbyPeer.trans h.primaryNode.symm

theorem peerZone_eq (h : Mirrored cfg) (i : Site) : (cfg i).peerZone = (cfg i.other).myZone := by
  cases i <;>
    simp [Config.peerZone, Config.myZone, Site.other, h.gcp, h.primaryNode, h.standbyNode,
      h.distinct.symm]

theorem address_injective (h : Mirrored cfg) {i j : Site} (hij : address cfg i = address cfg j) :
    i = j := by
  have hname : (cfg i).cluster.nodeName = (cfg j).cluster.nodeName :=
    congrArg (fun place : String × String × String => place.2.2) hij
  exact h.nodeName_injective hname

/-- The daemon at one site asks for the instance of the other by its own configuration. -/
theorem address_eq (h : Mirrored cfg) (site i : Site) :
    ((cfg site).gcp.projectId, (cfg i).myZone, (cfg i).cluster.nodeName) = address cfg i := by
  rw [gcp_eq h site i, address]

theorem zoneForInstance_eq (h : Mirrored cfg) (site i : Site) :
    zoneForInstance (cfg site) (cfg i).cluster.nodeName = some (cfg i).myZone := by
  rw [zoneForInstance, gcp_eq h site .primary]
  cases i
  · rw [if_pos h.primaryNode, Config.myZone, if_pos h.primaryNode]
  · have hnode : ¬ (cfg .standby).cluster.nodeName = (cfg .primary).gcp.instancePrimary := by
      rw [h.standbyNode]
      exact h.distinct.symm
    rw [if_neg hnode, if_pos h.standbyNode, Config.myZone, h.gcp, if_neg hnode]

/-- Both daemons recognise the disk in the same way. -/
theorem isOurs_eq (h : Mirrored cfg) (i j : Site) : isOurs (cfg i) = isOurs (cfg j) := by
  funext disk
  rw [isOurs, isOurs, diskSuffix, diskSuffix, gcp_eq h i j]

theorem showsRw_eq (h : Mirrored cfg) (i j : Site) : showsRw (cfg i) = showsRw (cfg j) := by
  funext inst
  rw [showsRw, showsRw, isOurs_eq h i j]

end Configurations

/-! ## What a request leaves behind -/

section Effects

variable {site i : Site} {w : World}

theorem done_gcp (hm : Mirrored cfg) {call : GcpCall}
    (htarget : target call = some (address cfg i)) :
    w.done cfg site (.gcp call) = w.set i (requested (w.inst i) call) := by
  refine congrArg (fun inst => { w with inst }) (funext fun j => ?_)
  by_cases hij : j = i
  · subst hij
    rw [if_pos htarget, if_pos rfl]
  · rw [if_neg hij, if_neg]
    rw [htarget]
    exact fun heq => hij (address_injective hm (Option.some.inj heq)).symm

/-- A request that is for no instance changes none. -/
theorem done_query {call : GcpCall} (htarget : target call = none) :
    w.done cfg site (.gcp call) = w := by
  refine congrArg (fun inst => { w with inst }) (funext fun j => ?_)
  rw [htarget, if_neg (by simp)]

theorem set_inst (w : World) (i : Site) (inst : Instance) :
    (w.set i inst).inst i = inst := if_pos rfl

theorem set_inst_other (w : World) {i j : Site} (hij : j ≠ i) (inst : Instance) :
    (w.set i inst).inst j = w.inst j := if_neg hij

theorem set_self : w.set i (w.inst i) = w := by
  refine congrArg (fun inst => { w with inst }) (funext fun j => ?_)
  split
  · rename_i hij
    rw [hij]
  · rfl

/-- The operations of the host that are about the machine. -/
def Local : HostCall → Prop
  | .sendRequest _ | .acquireFailoverLock _ => False
  | _ => True

theorem done_host {call : HostCall} (h : Local call) :
    w.done cfg site (.host call) = w.setVm site ((w.vm site).after call) := by
  have hrequest : (w.done cfg site (.host call)).request = w.request := by
    cases call with
    | sendRequest request => exact h.elim
    | _ => rfl
  have hvm : (w.done cfg site (.host call)).vm = (w.setVm site ((w.vm site).after call)).vm := by
    funext j
    show (if j = site then (w.vm j).after call else w.vm j) = if j = site then _ else w.vm j
    split
    · rename_i hj
      rw [hj]
    · rfl
  show World.mk (w.done cfg site (.host call)).vm w.inst w.url
    (w.done cfg site (.host call)).request = _
  rw [hrequest, hvm]
  rfl

theorem setVm_self : w.setVm i (w.vm i) = w := by
  refine congrArg (fun vm => { w with vm }) (funext fun j => ?_)
  split
  · rename_i hij
    rw [hij]
  · rfl

/-- An operation of the host that changes nothing there. -/
theorem done_still {call : HostCall} (h : ∀ vm : Vm, vm.after call = vm) (hlocal : Local call) :
    w.done cfg site (.host call) = w := by
  rw [done_host hlocal, h, setVm_self]

end Effects

abbrev Leaves {α : Type} (cfg : Site → Config) (site : Site) (w : World) (program : Sys α)
    (w' : World) : Prop := (cloud cfg site).Leaves w program w'

abbrev Gives {α : Type} (cfg : Site → Config) (site : Site) (w : World)
    (program : Sys α) (value : α) (w' : World) : Prop :=
  (cloud cfg site).Gives w program value w'

/-! ## Queries and polls -/

section Queries

variable {site i : Site} {w : World} {α : Type}

/-- A request that changes nothing. -/
theorem query_gives {call : GcpCall} {value : call.Ret} (htarget : target call = none)
    (h : ∀ answer, w.AnswersRequest cfg call answer → answer = .ok value) :
    Gives cfg site w (Sys.gcp call) value w := by
  have hdone : Gives cfg site w (Sys.gcp call) value (w.done cfg site (.gcp call)) :=
    gives_perform trivial h
  rwa [done_query htarget] at hdone

/-- A request for an instance by what its answers have in common. -/
theorem gcp_returns (hm : Mirrored cfg) {call : GcpCall} {Q : call.Ret → Prop}
    (htarget : target call = some (address cfg i))
    (h : ∀ answer, w.AnswersRequest cfg call answer → ∃ value, answer = .ok value ∧ Q value) :
    Prog.Returns (cloud cfg site).transformer (Is w) (Sys.gcp call)
      fun value s => Q value ∧ Is (w.set i (requested (w.inst i) call)) s := by
  rw [← done_gcp hm htarget]
  refine @returns_perform _ _ _ _ (cloud cfg site) w (.gcp call)
    (fun value y => Q value ∧ y = w.done cfg site (.gcp call)) trivial fun answer hanswer => ?_
  obtain ⟨value, hvalue, hQ⟩ := h answer hanswer
  exact ⟨value, hvalue, hQ, rfl⟩

theorem ready_of_local {call : HostCall} (h : Local call) :
    (cloud cfg site).ready w (.host call) := by
  cases call with
  | acquireFailoverLock blocking => exact h.elim
  | _ => trivial

/-- An operation of the host by what its answers have in common. -/
theorem host_returns {call : HostCall} {Q : call.Ret → Prop}
    (hlocal : Local call)
    (h : ∀ answer, w.AnswersHost cfg site call answer → ∃ value, answer = .ok value ∧ Q value) :
    Prog.Returns (cloud cfg site).transformer (Is w) (Sys.host call)
      fun value s => Q value ∧ Is (w.setVm site ((w.vm site).after call)) s := by
  rw [← done_host hlocal]
  refine @returns_perform _ _ _ _ (cloud cfg site) w (.host call)
    (fun value y => Q value ∧ y = w.done cfg site (.host call)) (ready_of_local hlocal)
    fun answer hanswer => ?_
  obtain ⟨value, hvalue, hQ⟩ := h answer hanswer.2
  exact ⟨value, hvalue, hQ, rfl⟩

/-- An operation of the host that changes nothing there. -/
theorem still_returns {call : HostCall} {Q : call.Ret → Prop}
    (hstill : ∀ vm : Vm, vm.after call = vm) (hlocal : Local call)
    (h : ∀ answer, w.AnswersHost cfg site call answer → ∃ value, answer = .ok value ∧ Q value) :
    Prog.Returns (cloud cfg site).transformer (Is w) (Sys.host call)
      fun value s => Q value ∧ Is w s := by
  have hdone := @host_returns cfg site w call Q hlocal h
  rwa [hstill, setVm_self] at hdone

theorem still_gives {call : HostCall} {value : call.Ret} (hstill : ∀ vm : Vm, vm.after call = vm)
    (hlocal : Local call)
    (h : ∀ answer, w.AnswersHost cfg site call answer → answer = .ok value) :
    Gives cfg site w (Sys.host call) value w :=
  still_returns (Q := (· = value)) hstill hlocal fun answer hanswer =>
    ⟨value, h answer hanswer, rfl⟩

theorem still_leaves {call : HostCall} (hstill : ∀ vm : Vm, vm.after call = vm)
    (hlocal : Local call)
    (h : ∀ answer, w.AnswersHost cfg site call answer → ∃ value, answer = .ok value) :
    Leaves cfg site w (Sys.host call) w := by
  refine (still_returns (Q := fun _ => True) hstill hlocal fun answer hanswer => ?_).conseq
    transformer_monotone (fun _ => id) fun _ _ hs => hs.2
  obtain ⟨value, hvalue⟩ := h answer hanswer
  exact ⟨value, hvalue, trivial⟩

theorem getInstance_gives (hm : Mirrored cfg) (i : Site) :
    Gives cfg site w (getInstance (cfg site) (cfg i).cluster.nodeName (cfg i).myZone)
      (w.inst i) w := by
  have hget : Gives cfg site w
      (Sys.gcp (.getInstance (cfg site).gcp.projectId (cfg i).myZone (cfg i).cluster.nodeName))
      (.ok (w.inst i)) w := query_gives rfl fun answer h => h i (address_eq hm site i)
  exact hget.bind (gives_pure _)

/-- The device name under which the disk is attached, if it is. -/
theorem lookupDeviceName_gives (hm : Mirrored cfg) (hs : Sane cfg w) (i : Site) :
    Gives cfg site w (lookupDeviceName (cfg site) (cfg i).cluster.nodeName (cfg i).myZone)
      (if showsRw (cfg i) (w.inst i) then some (cfg i).gcp.diskDeviceName else none) w := by
  have hfind : ((w.inst i).disks.find? (isOurs (cfg site))).bind (·.deviceName) =
      if showsRw (cfg i) (w.inst i) then some (cfg i).gcp.diskDeviceName else none := by
    rw [isOurs_eq hm site i]
    cases hdisk : (w.inst i).disks.find? (isOurs (cfg i)) with
    | none =>
        rw [if_neg]
        · rfl
        · rw [List.find?_eq_none] at hdisk
          simp only [showsRw, List.any_eq_true, Bool.and_eq_true, not_exists, not_and]
          exact fun disk hmem hours => absurd hours (hdisk disk hmem)
    | some disk =>
        have hmem := List.mem_of_find?_eq_some hdisk
        obtain ⟨hmode, hname⟩ := hs.ours i disk hmem (List.find?_some hdisk)
        rw [if_pos]
        · exact hname
        · rw [showsRw, List.any_eq_true]
          exact ⟨disk, hmem, by simp [List.find?_some hdisk, hmode]⟩
  rw [← hfind]
  exact (getInstance_gives hm i).attempt_bind (gives_pure _)

/-- The loop over the users of the disk ends at the first of them. -/
theorem holderAmong_gives (hm : Mirrored cfg) (hs : Sane cfg w) {users : List Site}
    (husers : ∀ i ∈ users, showsRw (cfg i) (w.inst i) = true) :
    Gives cfg site w (holderAmong (cfg site) (users.map w.url))
      (users.head?.map fun i => (cfg i).cluster.nodeName) w := by
  cases users with
  | nil => exact gives_pure none
  | cons i rest =>
      have hshows : showsRw (cfg site) (w.inst i) = true := by
        rw [showsRw_eq hm site i]
        exact husers i (by simp)
      rw [List.map_cons, holderAmong]
      simp only [hs.url i, zoneForInstance_eq hm site i]
      refine (getInstance_gives hm i).attempt_bind ?_
      simp only [hshows, if_true]
      exact gives_pure _

theorem currentRwHolder_gives (hm : Mirrored cfg) (hs : Sane cfg w) :
    Gives cfg site w (currentRwHolder (cfg site)) ((w.pair cfg).holder cfg) w := by
  have hdisk : Gives cfg site w (getDisk (cfg site)) ⟨w.users cfg⟩ w := by
    have hget : Gives cfg site w (Sys.gcp (.getDisk (cfg site).gcp.projectId (cfg site).gcp.region
        (cfg site).gcp.diskName)) (.ok ⟨w.users cfg⟩) w :=
          query_gives rfl fun answer h => h site rfl
    exact hget.bind (gives_pure _)
  refine hdisk.attempt_bind ?_
  have hholder : (w.pair cfg).holder cfg =
      ([.primary, .standby].filter fun i => showsRw (cfg i) (w.inst i)).head?.map
        fun i => (cfg i).cluster.nodeName := by
    by_cases hprimary : showsRw (cfg .primary) (w.inst .primary) = true <;>
      by_cases hstandby : showsRw (cfg .standby) (w.inst .standby) = true <;>
      simp [Service.Pair.holder, World.pair, hprimary, hstandby]
  rw [hholder]
  exact holderAmong_gives hm hs fun i hi => (List.mem_filter.mp hi).2

/-- The second of two looks at the clock is before the deadline that the first one has set. -/
theorem twice_returns {timeout : Int} (htimeout : Service.patience (cfg site) ≤ timeout)
    {next : Int → Int → Sys α} {Q : α → Moment World → Prop}
    (h : ∀ first second, second < first + timeout →
      Prog.Returns (cloud cfg site).transformer (Is w) (next first second) Q) :
    Prog.Returns (cloud cfg site).transformer (Is w)
      ((Sys.host .monotonic).bind fun first => (Sys.host .monotonic).bind (next first)) Q := by
  have hstill : w.done cfg site (.host .monotonic) = w := done_still (fun _ => rfl) trivial
  refine Behaviour.twice_returns (b := cloud cfg site)
    (fun (value : (SysCall.host .monotonic).Ret) => value) trivial hstill ?_ htimeout h
  rintro now answer now' ⟨rfl, hlate⟩
  exact ⟨now', rfl, rfl, hlate⟩

/-- An operation of the API is done when it is polled. -/
theorem pollZoneOp_leaves (hbound : 0 < (cfg site).loopBound) (opName zone : String)
    (pollInterval : Int) :
    Leaves cfg site w ((Sys.host .monotonic).bind fun now =>
      pollZoneOp (cfg site) opName zone pollInterval (now + 1000 * (cfg site).gcp.apiTimeout)
        (cfg site).loopBound) w := by
  obtain ⟨bound, hloop⟩ : ∃ bound, (cfg site).loopBound = bound + 1 :=
    ⟨(cfg site).loopBound - 1, by omega⟩
  rw [hloop]
  refine twice_returns (Int.min_le_right 30000 _) fun first second hsecond => ?_
  rw [if_pos hsecond]
  have hget : Prog.Returns (cloud cfg site).transformer (Is w)
      (Sys.gcp (.getOperation (cfg site).gcp.projectId zone opName)) fun resp s =>
        (∃ op, resp = .ok op ∧ op.status = some "DONE" ∧ op.error = none) ∧ Is w s := by
    have hsame : w.done cfg site (.gcp (.getOperation (cfg site).gcp.projectId zone opName)) = w :=
      done_query rfl
    refine .perform (fun _ _ => trivial) fun s answer s' hs hstep => ?_
    obtain ⟨op, rfl, hop⟩ := hstep.answers
    refine ⟨.ok op, rfl, ⟨op, rfl, hop⟩, ?_⟩
    rw [Is, hstep.done, show s.state = w from hs]
    exact hsame
  refine Prog.Returns.bind transformer_monotone hget fun resp s hs => ?_
  obtain ⟨⟨op, rfl, hstatus, herror⟩, hs⟩ := hs
  have hdone : op.status.getD "" = "DONE" := by rw [hstatus, Option.getD_some]
  show Prog.wp _ (if op.status.getD "" = "DONE" then _ else _) _ s
  rw [if_pos hdone]
  simp only [herror]
  exact hs

theorem awaitNamed_leaves (hbound : 0 < (cfg site).loopBound) (zone : String) (op : Operation) :
    Leaves cfg site w (awaitNamed (cfg site) zone op) w := by
  unfold awaitNamed
  split
  · exact pollZoneOp_leaves hbound _ _ _
  · exact leaves_pure ()

end Queries

/-! ## The machine -/

section Machine

variable {site : Site} {w : World}

theorem isMounted_gives :
    Gives cfg site w (isMounted (cfg site).gcp.diskMountPoint) (w.vm site).mounted w := by
  have hread : Prog.Returns (cloud cfg site).transformer (Is w) (Sys.host .readMounts)
      fun lines s => lines.any (mountsAt (cfg site).gcp.diskMountPoint) = (w.vm site).mounted ∧
        Is w s := still_returns (fun _ => rfl) trivial fun _ h => h
  exact Prog.Returns.bind transformer_monotone hread fun lines => .pure fun _ h => h

/-- The device of a disk that is attached is there. -/
theorem waitForDevice_leaves (hbound : 0 < (cfg site).loopBound)
    (hdisk : showsRw (cfg site) (w.inst site) = true) :
    Leaves cfg site w (waitForDevice (cfg site) (devPath (cfg site)) 30) w := by
  obtain ⟨bound, hloop⟩ : ∃ bound, (cfg site).loopBound = bound + 1 :=
    ⟨(cfg site).loopBound - 1, by omega⟩
  have hexists : Gives cfg site w (Sys.host (.pathExists (devPath (cfg site)))) true w := by
    refine still_gives (fun _ => rfl) trivial ?_
    rintro answer ⟨there, rfl, hthere⟩
    rw [hthere rfl hdisk]
  unfold waitForDevice
  rw [hloop]
  have hpatience : Service.patience (cfg site) ≤ 1000 * 30 := Int.min_le_left 30000 _
  refine twice_returns hpatience fun first second hsecond => ?_
  rw [if_pos hsecond]
  exact hexists.bind (leaves_pure ())

/-- The filesystem is mounted where it is not. -/
theorem mountDevice_leaves : Leaves cfg site w (mountDevice (cfg site))
    (w.setVm site { w.vm site with mounted := true }) := by
  have hmount : Leaves cfg site w ((Sys.host (.run (.mount (devPath (cfg site))
      (cfg site).gcp.diskMountPoint))).bind fun result =>
        if result.returncode ≠ 0 then
          let text := strip result.stderr
          Prog.raise (.runtimeError
            s!"mount {devPath (cfg site)} {(cfg site).gcp.diskMountPoint} failed: {text}")
        else pure ()) (w.setVm site { w.vm site with mounted := true }) := by
    refine Prog.Returns.bind transformer_monotone (host_returns trivial fun _ h => h)
      fun result s hs => ?_
    rw [if_neg (by simpa using hs.1)]
    exact hs.2
  have hexists : Leaves cfg site w
      (Sys.host (.pathExists (cfg site).gcp.diskMountPoint)) w :=
    still_leaves (fun _ => rfl) trivial fun answer h => by
      obtain ⟨there, hthere, -⟩ := h
      exact ⟨there, hthere⟩
  unfold mountDevice
  refine hexists.bind fun there => ?_
  cases there with
  | true => exact hmount
  | false =>
      refine Prog.Returns.bind transformer_monotone (host_returns trivial fun _ h => h)
        fun result s hs => ?_
      rw [if_neg (by simpa using hs.1)]
      exact hmount s (hs.2.trans setVm_self)

theorem mountDisk_leaves (hbound : 0 < (cfg site).loopBound)
    (hdisk : showsRw (cfg site) (w.inst site) = true) :
    Leaves cfg site w (mountDisk (cfg site)) (w.setVm site { w.vm site with mounted := true }) := by
  refine (waitForDevice_leaves hbound hdisk).bind fun _ => isMounted_gives.bind ?_
  cases hmounted : (w.vm site).mounted with
  | false => exact mountDevice_leaves
  | true =>
      have hlist : Leaves cfg site w (Sys.host (.listdir (cfg site).gcp.diskMountPoint)) w :=
        still_leaves (fun _ => rfl) trivial fun answer h => h hmounted
      have hhealthy : Gives cfg site w (isMountHealthy (cfg site).gcp.diskMountPoint) true w :=
        hlist.attempt_bind fun _ => gives_pure true
      have hsame : { w.vm site with mounted := true } = w.vm site := by
        rw [← hmounted]
      rw [hsame, setVm_self]
      exact hhealthy.bind (leaves_pure ())

theorem unmountDisk_leaves :
    Leaves cfg site w (unmountDisk (cfg site))
      (w.setVm site { w.vm site with mounted := false }) := by
  refine isMounted_gives.bind ?_
  cases hmounted : (w.vm site).mounted with
  | true =>
      refine Prog.Returns.bind transformer_monotone (host_returns trivial fun _ h => h)
        fun result s hs => ?_
      rw [if_pos hs.1]
      exact hs.2
  | false =>
      have hsame : { w.vm site with mounted := false } = w.vm site := by
        rw [← hmounted]
      rw [hsame, setVm_self]
      exact leaves_pure ()

theorem startPostgres_leaves :
    Leaves cfg site w (startPostgres (cfg site))
      (w.setVm site { w.vm site with postgres := true }) := by
  let pg := (cfg site).postgresql
  have hstatus : Prog.Returns (cloud cfg site).transformer (Is w)
      (Sys.host (.run (.pgCtlStatus pg.pgOsUser pg.pgCtl pg.dataDir)))
      fun result s => (result.returncode == 0) = (w.vm site).postgres ∧ Is w s :=
    still_returns (fun _ => rfl) trivial fun _ h => h
  have hrunning : Gives cfg site w (pgIsRunning (cfg site)) (w.vm site).postgres w :=
    hstatus.attempt_bind transformer_monotone fun result => .pure fun _ h => h
  refine hrunning.bind ?_
  cases hpostgres : (w.vm site).postgres with
  | false =>
      refine Prog.Returns.bind transformer_monotone (host_returns trivial fun _ h => h)
        fun result s hs => ?_
      rw [if_neg (by simpa using hs.1)]
      exact hs.2
  | true =>
      have hsame : { w.vm site with postgres := true } = w.vm site := by
        rw [← hpostgres]
      rw [hsame, setVm_self]
      exact leaves_pure ()

theorem stopPostgres_leaves (mode : StopMode) : Leaves cfg site w (stopPostgres (cfg site) mode)
    (w.setVm site { w.vm site with postgres := false }) := by
  refine Prog.Returns.bind transformer_monotone (host_returns (Q := fun _ => True) trivial ?_)
    fun _ => .pure fun _ hs => hs.2
  rintro answer ⟨result, rfl⟩
  exact ⟨result, rfl, trivial⟩

end Machine

/-! ## The disk -/

section Disk

variable {site i : Site} {w : World}

/-- An instance that has the disk. -/
def attached (cfg : Config) (inst : Instance) : Instance :=
  if showsRw cfg inst then inst
  else
    { inst with
      disks :=
        inst.disks ++ [⟨some (diskSelfLink cfg), some "READ_WRITE", some cfg.gcp.diskDeviceName⟩] }

/-- An instance that does not have it. -/
def detached (cfg : Config) (inst : Instance) : Instance :=
  if showsRw cfg inst then
    { inst with disks := inst.disks.filter (·.deviceName ≠ some cfg.gcp.diskDeviceName) }
  else inst

/-- A disk that is attached as the daemons attach it. -/
def Proper (cfg : Config) (disk : AttachedDisk) : Prop :=
  isOurs cfg disk = true →
    disk.mode = some "READ_WRITE" ∧ disk.deviceName = some cfg.gcp.diskDeviceName

theorem showsRw_attached (cfg : Config) (inst : Instance) :
    showsRw cfg (attached cfg inst) = true := by
  unfold attached
  split
  · assumption
  · rw [showsRw, List.any_eq_true]
    exact ⟨_, List.mem_append_right _ (List.mem_singleton.mpr rfl), by simp [isOurs_diskSelfLink]⟩

theorem showsRw_detached {cfg : Config} {inst : Instance}
    (h : ∀ disk ∈ inst.disks, Proper cfg disk) :
    showsRw cfg (detached cfg inst) = false := by
  unfold detached
  split
  · simp only [showsRw, List.any_eq_false, Bool.and_eq_true, not_and]
    intro disk hmem hours
    obtain ⟨hmem, hname⟩ := List.mem_filter.mp hmem
    exact absurd (h disk hmem hours).2 (by simpa using hname)
  · simpa using ‹¬ showsRw cfg inst = true›

theorem proper_attached {cfg : Config} {inst : Instance}
    (h : ∀ disk ∈ inst.disks, Proper cfg disk) :
    ∀ disk ∈ (attached cfg inst).disks, Proper cfg disk := by
  unfold attached
  split
  · exact h
  · intro disk hmem
    rcases List.mem_append.mp hmem with hmem | hmem
    · exact h disk hmem
    · rw [List.mem_singleton.mp hmem]
      exact fun _ => ⟨rfl, rfl⟩

theorem proper_detached {cfg : Config} {inst : Instance}
    (h : ∀ disk ∈ inst.disks, Proper cfg disk) :
    ∀ disk ∈ (detached cfg inst).disks, Proper cfg disk := by
  unfold detached
  split
  · exact fun disk hmem => h disk (List.mem_of_mem_filter hmem)
  · exact h

theorem Sane.set (hs : Sane cfg w) {inst : Instance}
    (hours : ∀ disk ∈ inst.disks, Proper (cfg i) disk)
    (hnic : ∃ nic, inst.networkInterfaces.find? (·.name == some (cfg i).gcp.nicName) = some nic)
    (hsingle : showsRw (cfg i) inst = true → showsRw (cfg i.other) (w.inst i.other) = false) :
    Sane cfg (w.set i inst) := by
  have hself := set_inst w i inst
  have hother := set_inst_other w i.other_ne inst
  refine ⟨Service.forall_of_other i ?_ ?_, Service.forall_of_other i ?_ ?_,
    Service.forall_of_other i ?_ ?_, hs.url⟩
  · rwa [hself]
  · rw [hother]
    exact hs.ours i.other
  · rwa [hself, hother]
  · rw [Site.other_other, hself, hother]
    intro hshows
    rw [← Bool.not_eq_true]
    exact fun hinst => by simp [hsingle hinst] at hshows
  · rwa [hself]
  · rw [hother]
    exact hs.nic i.other

/-- The instance of the daemon has the disk. -/
theorem attachDiskRw_leaves (hm : Mirrored cfg) (hs : Sane cfg w)
    (hbound : 0 < (cfg site).loopBound)
    (hfree : showsRw (cfg site.other) (w.inst site.other) = false) :
    Leaves cfg site w (attachDiskRw (cfg site))
      (w.set site (attached (cfg site) (w.inst site))) := by
  refine (currentRwHolder_gives hm hs).bind ?_
  by_cases hdisk : showsRw (cfg site) (w.inst site) = true
  · rw [Service.holder_eq_some (x := w.pair cfg) hdisk hfree, if_pos rfl, attached, if_pos hdisk,
      set_self]
    exact leaves_pure ()
  · have habsent : showsRw (cfg site) (w.inst site) = false := by simpa using hdisk
    have hnone : ¬ (w.pair cfg).holder cfg = some (cfg site).cluster.nodeName := by
      rw [Service.holder_eq_none (x := w.pair cfg) habsent hfree]
      simp
    rw [if_neg hnone, attached, if_neg hdisk]
    have hrequest : Prog.Returns (cloud cfg site).transformer (Is w)
        (Sys.gcp (.attachDisk (cfg site).gcp.projectId (cfg site).myZone (cfg site).cluster.nodeName
          (attachPayload (cfg site))))
        fun resp s => (∃ op, resp = .ok op) ∧ Is _ s :=
      gcp_returns hm rfl fun answer h => by
        obtain ⟨op, hop⟩ := h site rfl hfree
        exact ⟨.ok op, hop, op, rfl⟩
    refine Prog.Returns.except transformer_monotone ?_
    refine Prog.Returns.bind transformer_monotone hrequest fun resp s hs => ?_
    obtain ⟨⟨op, rfl⟩, hs⟩ := hs
    exact awaitNamed_leaves hbound _ op s hs

/-- A request to detach the disk from an instance that has it. -/
theorem request_returns (hm : Mirrored cfg) (hdisk : showsRw (cfg i) (w.inst i) = true) :
    Prog.Returns (cloud cfg site).transformer (Is w)
      (Sys.gcp (.detachDisk (cfg site).gcp.projectId (cfg i).myZone (cfg i).cluster.nodeName
        (cfg i).gcp.diskDeviceName))
      fun resp s => (∃ op, resp = .ok op) ∧ Is (w.set i (detached (cfg i) (w.inst i))) s := by
  rw [detached, if_pos hdisk]
  refine gcp_returns hm (congrArg some (address_eq hm site i)) fun answer h => ?_
  obtain ⟨op, hop⟩ := h i (address_eq hm site i)
  exact ⟨.ok op, hop, op, rfl⟩

theorem detachDisk_leaves (hm : Mirrored cfg) (hs : Sane cfg w)
    (hbound : 0 < (cfg site).loopBound) :
    Leaves cfg site w (detachDisk (cfg site)) (w.set site (detached (cfg site) (w.inst site))) := by
  refine (lookupDeviceName_gives hm hs site).bind ?_
  by_cases hdisk : showsRw (cfg site) (w.inst site) = true
  · simp only [hdisk, if_true]
    refine Prog.Returns.except transformer_monotone ?_
    refine Prog.Returns.bind transformer_monotone (request_returns hm hdisk) fun resp s hs => ?_
    obtain ⟨⟨op, rfl⟩, hs⟩ := hs
    exact awaitNamed_leaves hbound _ op s hs
  · simp only [hdisk, Bool.false_eq_true, if_false, detached, set_self]
    exact leaves_pure ()

/-- Also when it is the other machine that has it. -/
theorem forceDetachFromPeer_leaves (hm : Mirrored cfg) (hs : Sane cfg w)
    (hbound : 0 < (cfg site).loopBound) : Leaves cfg site w (forceDetachFromPeer (cfg site))
      (w.set site.other (detached (cfg site.other) (w.inst site.other))) := by
  rw [forceDetachFromPeer, peerNode_eq hm, peerZone_eq hm]
  refine (lookupDeviceName_gives hm hs site.other).bind ?_
  by_cases hdisk : showsRw (cfg site.other) (w.inst site.other) = true
  · simp only [hdisk, if_true]
    refine Prog.Returns.except transformer_monotone ?_
    unfold requestForceDetach
    rw [peerNode_eq hm, peerZone_eq hm]
    refine Prog.Returns.bind transformer_monotone (request_returns hm hdisk) fun resp s hs => ?_
    obtain ⟨⟨op, rfl⟩, hs⟩ := hs
    exact awaitNamed_leaves hbound _ op s hs
  · simp only [hdisk, Bool.false_eq_true, if_false, detached, set_self]
    exact leaves_pure ()

end Disk

/-! ## The address -/

section Address

variable {site i : Site} {w : World} {inst : Instance} {nic : Nic}

/-- The interface that carries the address. -/
def nic? (cfg : Config) (inst : Instance) : Option Nic :=
  inst.networkInterfaces.find? (·.name == some cfg.gcp.nicName)

/-- An instance whose interface has another list of addresses. -/
def readdressed (cfg : Config) (inst : Instance) (nic : Nic) (addresses : List (Option String)) :
    Instance :=
  { inst with
    networkInterfaces := inst.networkInterfaces.map
      (patched cfg.gcp.nicName ⟨addresses, nic.fingerprint.getD ""⟩) }

theorem patched_name (name : String) (payload : NicPayload) (nic : Nic) :
    (patched name payload nic).name = nic.name := by
  unfold patched
  split <;> rfl

/-- The interface shows the addresses of the patch. -/
theorem nic_readdressed {cfg : Config} (hnic : nic? cfg inst = some nic)
    (addresses : List (Option String)) :
    ∃ nic', nic? cfg (readdressed cfg inst nic addresses) = some nic' ∧ cidrs nic' = addresses := by
  have hname : nic.name = some cfg.gcp.nicName := by simpa using List.find?_some hnic
  have hsame : ((fun nic : Nic => nic.name == some cfg.gcp.nicName) ∘
      patched cfg.gcp.nicName ⟨addresses, nic.fingerprint.getD ""⟩) =
      fun nic => nic.name == some cfg.gcp.nicName := by
    funext nic
    rw [Function.comp_apply, patched_name]
  refine ⟨patched cfg.gcp.nicName ⟨addresses, nic.fingerprint.getD ""⟩ nic, ?_, ?_⟩
  · unfold nic? at hnic
    rw [nic?, readdressed, List.find?_map, hsame, hnic, Option.map_some]
  · rw [patched, if_pos ⟨hname, rfl⟩, cidrs, List.map_map]
    exact List.map_id' addresses

theorem getNic_gives (hm : Mirrored cfg) (hnic : nic? (cfg i) (w.inst i) = some nic) :
    Gives cfg site w (getNic (cfg site) (cfg i).cluster.nodeName (cfg i).myZone) nic w := by
  have hget : Gives cfg site w
      (getInstanceJson (cfg site) (cfg i).cluster.nodeName (cfg i).myZone) (w.inst i) w :=
    getInstance_gives hm i
  refine hget.bind ?_
  rw [nic?, gcp_eq hm i site] at hnic
  simp only [hnic]
  exact gives_pure nic

/-- The first attempt succeeds. -/
theorem patchNicAliases_leaves (hm : Mirrored cfg) (hbound : 0 < (cfg site).loopBound)
    (hnic : nic? (cfg i) (w.inst i) = some nic) (addresses : List (Option String)) :
    Leaves cfg site w
      (patchNicAliases (cfg site) (cfg i).cluster.nodeName (cfg i).myZone nic addresses)
      (w.set i (readdressed (cfg i) (w.inst i) nic addresses)) := by
  have hrequest : Prog.Returns (cloud cfg site).transformer (Is w)
      (Sys.gcp (.updateNetworkInterface (cfg site).gcp.projectId (cfg i).myZone
        (cfg i).cluster.nodeName (cfg site).gcp.nicName ⟨addresses, nic.fingerprint.getD ""⟩))
      fun resp s => (∃ op, resp = .ok op) ∧
        Is (w.set i (readdressed (cfg i) (w.inst i) nic addresses)) s := by
    rw [readdressed, gcp_eq hm i site]
    refine gcp_returns hm (congrArg some (address_eq hm site i)) fun answer h => ?_
    rw [nic?, gcp_eq hm i site] at hnic
    obtain ⟨op, hop⟩ := h i nic (address_eq hm site i) hnic rfl
    exact ⟨.ok op, hop, op, rfl⟩
  rw [patchNicAliases, patchFrom]
  refine Prog.Returns.bind transformer_monotone hrequest fun resp s hs => ?_
  obtain ⟨⟨op, rfl⟩, hs⟩ := hs
  rw [if_pos (show (Response.ok op).statusCode = 200 from rfl)]
  refine Gives.bind (gives_pure op) ?_ s hs
  cases nonempty? op.name with
  | some opName => exact pollZoneOp_leaves hbound opName _ _
  | none => exact leaves_pure ()

/-- A patch, and the look at what it has done. -/
theorem patch_leaves (hm : Mirrored cfg) (hbound : 0 < (cfg site).loopBound)
    (hnic : nic? (cfg i) (w.inst i) = some nic) (addresses : List (Option String)) :
    Leaves cfg site w (do
      patchNicAliases (cfg site) (cfg i).cluster.nodeName (cfg i).myZone nic addresses
      verifyAlias (cfg site) (cfg i).cluster.nodeName (cfg i).myZone)
      (w.set i (readdressed (cfg i) (w.inst i) nic addresses)) := by
  refine (patchNicAliases_leaves hm hbound hnic addresses).bind fun _ => ?_
  obtain ⟨nic', hnic', -⟩ := nic_readdressed hnic addresses
  rw [← set_inst w i (readdressed (cfg i) (w.inst i) nic addresses)] at hnic'
  exact (getNic_gives hm hnic').bind (leaves_pure ())

/-- The instance that has the address. -/
def addressed (cfg : Config) (inst : Instance) (nic : Nic) : Instance :=
  if (cidrs nic).contains (some cfg.gcp.vipCidr) then inst
  else readdressed cfg inst nic (cidrs nic ++ [some cfg.gcp.vipCidr])

/-- An instance that does not have it. -/
def unaddressed (cfg : Config) (inst : Instance) (nic : Nic) : Instance :=
  if (cidrs nic).contains (some cfg.gcp.vipCidr) then
    readdressed cfg inst nic ((cidrs nic).filter (· ≠ some cfg.gcp.vipCidr))
  else inst

theorem addAliasIp_leaves (hm : Mirrored cfg) (hbound : 0 < (cfg site).loopBound)
    (hnic : nic? (cfg i) (w.inst i) = some nic) :
    Leaves cfg site w (addAliasIp (cfg site) (cfg i).cluster.nodeName (cfg i).myZone)
      (w.set i (addressed (cfg i) (w.inst i) nic)) := by
  refine (getNic_gives hm hnic).bind ?_
  rw [addressed, gcp_eq hm i site]
  by_cases haddress : some (cfg site).gcp.vipCidr ∈ cidrs nic
  · rw [if_pos haddress, if_pos (List.contains_iff_mem.mpr haddress), set_self]
    exact leaves_pure ()
  · rw [if_neg haddress, if_neg (mt List.contains_iff_mem.mp haddress)]
    exact patch_leaves hm hbound hnic _

theorem removeAliasIp_leaves (hm : Mirrored cfg) (hbound : 0 < (cfg site).loopBound)
    (hnic : nic? (cfg i) (w.inst i) = some nic) :
    Leaves cfg site w (removeAliasIp (cfg site) (cfg i).cluster.nodeName (cfg i).myZone)
      (w.set i (unaddressed (cfg i) (w.inst i) nic)) := by
  refine (getNic_gives hm hnic).bind ?_
  rw [unaddressed, gcp_eq hm i site]
  by_cases haddress : some (cfg site).gcp.vipCidr ∈ cidrs nic
  · rw [if_neg (by simpa using haddress), if_pos (List.contains_iff_mem.mpr haddress)]
    exact patch_leaves hm hbound hnic _
  · rw [if_pos haddress, if_neg (mt List.contains_iff_mem.mp haddress), set_self]
    exact leaves_pure ()

/-- The peer loses the address, if it has it. -/
theorem releaseVipFromPeer_leaves (hm : Mirrored cfg) (hbound : 0 < (cfg site).loopBound)
    (hnic : nic? (cfg site.other) (w.inst site.other) = some nic) :
    Leaves cfg site w (releaseVipFromPeer (cfg site))
      (w.set site.other (unaddressed (cfg site.other) (w.inst site.other) nic)) := by
  rw [releaseVipFromPeer, peerNode_eq hm, peerZone_eq hm]
  have hhas : Gives cfg site w
      (hasAliasIp (cfg site) (cfg site.other).cluster.nodeName (cfg site.other).myZone)
      (decide (some (cfg site).gcp.vipCidr ∈ cidrs nic)) w :=
    (getNic_gives hm hnic).attempt_bind (gives_pure _)
  refine hhas.bind ?_
  by_cases haddress : some (cfg site).gcp.vipCidr ∈ cidrs nic
  · rw [if_pos (by simpa using haddress)]
    exact removeAliasIp_leaves hm hbound hnic
  · rw [if_neg (by simpa using haddress), unaddressed, gcp_eq hm site.other site,
      if_neg (mt List.contains_iff_mem.mp haddress), set_self]
    exact leaves_pure ()

/-- The node takes the address over. -/
theorem acquireVip_leaves {nic' : Nic} (hm : Mirrored cfg) (hbound : 0 < (cfg site).loopBound)
    (hnic : nic? (cfg site) (w.inst site) = some nic)
    (hnic' : nic? (cfg site.other) (w.inst site.other) = some nic') :
    Leaves cfg site w (acquireVip (cfg site))
      ((w.set site.other (unaddressed (cfg site.other) (w.inst site.other) nic')).set site
        (addressed (cfg site) (w.inst site) nic)) := by
  refine (releaseVipFromPeer_leaves hm hbound hnic').bind fun _ => ?_
  have hself := set_inst_other w site.other_ne.symm
    (unaddressed (cfg site.other) (w.inst site.other) nic')
  rw [← hself] at hnic
  have hadd := @addAliasIp_leaves cfg site site _ nic hm hbound hnic
  rwa [hself] at hadd

theorem hasVip_of_nic {cfg : Config} (hnic : nic? cfg inst = some nic) :
    World.hasVip cfg inst = (cidrs nic).contains (some cfg.gcp.vipCidr) := by
  unfold nic? at hnic
  rw [World.hasVip, hnic, Option.any_some]

theorem hasVip_addressed (cfg : Config) (hnic : nic? cfg inst = some nic) :
    World.hasVip cfg (addressed cfg inst nic) = true := by
  unfold addressed
  split
  · rename_i haddress
    rwa [hasVip_of_nic hnic]
  · obtain ⟨nic', hnic', hcidrs⟩ := nic_readdressed hnic (cidrs nic ++ [some cfg.gcp.vipCidr])
    simp [hasVip_of_nic hnic', hcidrs]

theorem hasVip_unaddressed (cfg : Config) (hnic : nic? cfg inst = some nic) :
    World.hasVip cfg (unaddressed cfg inst nic) = false := by
  unfold unaddressed
  split
  · obtain ⟨nic', hnic', hcidrs⟩ := nic_readdressed hnic
      ((cidrs nic).filter (· ≠ some cfg.gcp.vipCidr))
    rw [hasVip_of_nic hnic', hcidrs, ← Bool.not_eq_true, List.contains_iff_mem]
    simp
  · rename_i haddress
    rw [hasVip_of_nic hnic]
    simpa using haddress

/-- What a change of the addresses leaves alone. -/
structure SameButAddress (cfg : Config) (inst inst' : Instance) : Prop where
  status : inst'.status = inst.status
  disks : inst'.disks = inst.disks
  nic : ∃ nic, nic? cfg inst' = some nic

theorem same_addressed (cfg : Config) (hnic : nic? cfg inst = some nic) :
    SameButAddress cfg inst (addressed cfg inst nic) := by
  unfold addressed
  split
  · exact ⟨rfl, rfl, nic, hnic⟩
  · obtain ⟨nic', hnic', -⟩ := nic_readdressed hnic (cidrs nic ++ [some cfg.gcp.vipCidr])
    exact ⟨rfl, rfl, nic', hnic'⟩

theorem same_unaddressed (cfg : Config) (hnic : nic? cfg inst = some nic) :
    SameButAddress cfg inst (unaddressed cfg inst nic) := by
  unfold unaddressed
  split
  · obtain ⟨nic', hnic', -⟩ := nic_readdressed hnic ((cidrs nic).filter (· ≠ some cfg.gcp.vipCidr))
    exact ⟨rfl, rfl, nic', hnic'⟩
  · exact ⟨rfl, rfl, nic, hnic⟩

theorem SameButAddress.showsRw {cfg : Config} {inst' : Instance}
    (h : SameButAddress cfg inst inst') :
    DiskManager.showsRw cfg inst' = DiskManager.showsRw cfg inst := by
  rw [DiskManager.showsRw, DiskManager.showsRw, h.disks]

theorem Sane.set_address (hs : Sane cfg w) {inst' : Instance}
    (h : SameButAddress (cfg i) (w.inst i) inst') : Sane cfg (w.set i inst') := by
  refine hs.set ?_ h.nic fun hshows => hs.single i ?_
  · rw [h.disks]
    exact hs.ours i
  · rwa [← h.showsRw]

end Address

/-! ## What the managers do to the pair -/

section Refinement

variable {site : Site} {w w' : World}

/-- An operation of a manager, by what it changes of the two nodes. -/
theorem pair_done {op : Call} (hop : ∀ call, op ≠ .host call)
    (hdaemon : ∀ i, (w'.vm i).daemon = (w.vm i).daemon) (hup : ∀ i, (w'.vm i).up = (w.vm i).up)
    (hstatus : ∀ i, (w'.inst i).status = (w.inst i).status) (hrequest : w'.request = w.request)
    (hself : ∀ r, ((w'.pair cfg).node site).held r = op.done ((w.pair cfg).node site).held r)
    (hother : ∀ r, ((w'.pair cfg).node site.other).held r =
      if Service.takes op = some r then false else ((w.pair cfg).node site.other).held r) :
    w'.pair cfg = (w.pair cfg).done site op := by
  -- field by field; only what the nodes hold takes an argument
  have hnode : (w'.pair cfg).node = ((w.pair cfg).done site op).node := by
    have hdoes : Service.does ((w.pair cfg).node site) op =
        ⟨(w.vm site).daemon, op.done ((w.pair cfg).node site).held⟩ := by
      cases op with
      | host call => exact absurd rfl (hop call)
      | _ => rfl
    refine funext (Service.forall_of_other site ?_ ?_)
    · rw [Service.Pair.node_done_self, hdoes, ← hdaemon, ← funext hself]
      rfl
    · rw [Service.Pair.node_done_other]
      show NodeWorld.mk (w'.vm site.other).daemon _ = ⟨(w.vm site.other).daemon, _⟩
      rw [hdaemon]
      exact congrArg _ (funext hother)
  have hup' : (w'.pair cfg).up = (w.pair cfg).up := funext hup
  have hstatus' : (w'.pair cfg).status = (w.pair cfg).status :=
    funext fun i => congrArg (·.getD "UNKNOWN") (hstatus i)
  have hsent : ((w.pair cfg).done site op).request = w.request := by
    cases op with
    | host call => exact absurd rfl (hop call)
    | _ => rfl
  show Service.Pair.mk (w'.pair cfg).node (w'.pair cfg).up (w'.pair cfg).status w'.request =
    ⟨((w.pair cfg).done site op).node, (w.pair cfg).up, (w.pair cfg).status,
      ((w.pair cfg).done site op).request⟩
  rw [hnode, hup', hstatus', hrequest, hsent]

theorem Sane.setVm (hs : Sane cfg w) (i : Site) (vm : Vm) : Sane cfg (w.setVm i vm) :=
  ⟨hs.ours, hs.single, hs.nic, hs.url⟩

theorem setVm_vm (w : World) (i : Site) (vm : Vm) : (w.setVm i vm).vm i = vm := if_pos rfl

theorem setVm_vm_other (w : World) {i j : Site} (hij : j ≠ i) (vm : Vm) :
    (w.setVm i vm).vm j = w.vm j := if_neg hij

/-- A node is what its machine and its instance are. -/
theorem node_eq {i : Site} (hvm : w'.vm i = w.vm i) (hinst : w'.inst i = w.inst i) :
    (w'.pair cfg).node i = (w.pair cfg).node i := by
  simp only [World.pair, hvm, hinst]

/-- An operation of a manager on the machine itself. -/
theorem pair_setVm {op : Call} {vm : Vm} (hop : ∀ call, op ≠ .host call)
    (hdaemon : vm.daemon = (w.vm site).daemon) (hup : vm.up = (w.vm site).up)
    (htakes : Service.takes op = none)
    (hself : ∀ r, (((w.setVm site vm).pair cfg).node site).held r =
      op.done ((w.pair cfg).node site).held r) :
    (w.setVm site vm).pair cfg = (w.pair cfg).done site op := by
  have hsame := setVm_vm w site vm
  have hother := setVm_vm_other w site.other_ne vm
  refine pair_done hop (Service.forall_of_other site ?_ ?_) (Service.forall_of_other site ?_ ?_)
    (fun _ => rfl) rfl hself fun r => ?_
  · rw [hsame, hdaemon]
  · rw [hother]
  · rw [hsame, hup]
  · rw [hother]
  · rw [htakes, if_neg (by simp), node_eq hother rfl]

/-- The implementation of an operation that returns nothing. -/
theorem lands (op : Call) {t : Moment World} {program : Sys op.Ret}
    (huntimed : ∀ now answer now', Service.Timely (cfg site) now ⟨op, answer⟩ now')
    (hanswer : ∀ value, (t.state.pair cfg).Answers cfg site op (.ok value))
    (h : Leaves cfg site t.state program w') (hdone : w'.pair cfg = (t.state.pair cfg).done site op)
    (hs : Sane cfg w') :
    program.wp (cloud cfg site).transformer
      ((Service.service cfg site).Lands (World.pair cfg) (Sane cfg) t op) t := by
  refine lands_of_returns huntimed
    (h.conseq transformer_monotone (fun _ => id) fun value s hstate => ?_)
  rw [show s.state = w' from hstate]
  exact ⟨hanswer value, hdone, hs⟩

theorem attachDiskRw_lands (hm : Mirrored cfg) (hbound : 0 < (cfg site).loopBound)
    {t : Moment World} (hs : Sane cfg t.state)
    (hfree : showsRw (cfg site.other) (t.state.inst site.other) = false) :
    (attachDiskRw (cfg site)).wp (cloud cfg site).transformer
      ((Service.service cfg site).Lands (World.pair cfg) (Sane cfg) t (.disk .attachDiskRw)) t := by
  have hnics : (attached (cfg site) (t.state.inst site)).networkInterfaces =
      (t.state.inst site).networkInterfaces := by
    unfold attached
    split <;> rfl
  have hstatus : (attached (cfg site) (t.state.inst site)).status = (t.state.inst site).status := by
    unfold attached
    split <;> rfl
  have hself := set_inst t.state site (attached (cfg site) (t.state.inst site))
  have hother := set_inst_other t.state site.other_ne (attached (cfg site) (t.state.inst site))
  refine lands (.disk .attachDiskRw) (fun _ _ _ => trivial) (fun value => ⟨value, rfl⟩)
    (attachDiskRw_leaves hm hs hbound hfree) ?_ ?_
  · refine pair_done (by simp) (fun _ => rfl) (fun _ => rfl)
      (Service.forall_of_other site ?_ ?_) rfl (fun r => ?_) (fun r => ?_)
    · rw [hself, hstatus]
    · rw [hother]
    · cases r <;>
        simp [World.pair, Call.done, Call.acquires, Call.releases, hself, showsRw_attached,
          World.hasVip, hnics] <;> rfl
    · cases r <;> simp [World.pair, Service.takes, hother] <;> rfl
  · refine hs.set (proper_attached (hs.ours site)) ?_ fun _ => hfree
    rw [hnics]
    exact hs.nic site

theorem detached_nics (cfg : Config) (inst : Instance) :
    (detached cfg inst).networkInterfaces = inst.networkInterfaces := by
  unfold detached
  split <;> rfl

theorem detached_status (cfg : Config) (inst : Instance) :
    (detached cfg inst).status = inst.status := by
  unfold detached
  split <;> rfl

theorem Sane.set_detached (hs : Sane cfg w) (i : Site) :
    Sane cfg (w.set i (detached (cfg i) (w.inst i))) := by
  refine hs.set (proper_detached (hs.ours i)) ?_ fun hshows => ?_
  · rw [detached_nics]
    exact hs.nic i
  · rw [showsRw_detached (hs.ours i)] at hshows
    cases hshows

theorem detachDisk_lands (hm : Mirrored cfg) (hbound : 0 < (cfg site).loopBound) {t : Moment World}
    (hs : Sane cfg t.state) : (detachDisk (cfg site)).wp (cloud cfg site).transformer
      ((Service.service cfg site).Lands (World.pair cfg) (Sane cfg) t (.disk .detachDisk)) t := by
  have hself := set_inst t.state site (detached (cfg site) (t.state.inst site))
  have hother := set_inst_other t.state site.other_ne (detached (cfg site) (t.state.inst site))
  refine lands (.disk .detachDisk) (fun _ _ _ => trivial) (fun value => ⟨value, rfl⟩)
    (detachDisk_leaves hm hs hbound) ?_ (hs.set_detached site)
  refine pair_done (by simp) (fun _ => rfl) (fun _ => rfl) (Service.forall_of_other site ?_ ?_) rfl
    (fun r => ?_) (fun r => ?_)
  · rw [hself, detached_status]
  · rw [hother]
  · cases r <;>
      simp [World.pair, Call.done, Call.acquires, Call.releases, hself,
        showsRw_detached (hs.ours site), World.hasVip, detached_nics] <;> rfl
  · cases r <;> simp [World.pair, Service.takes, hother] <;> rfl

theorem forceDetachFromPeer_lands (hm : Mirrored cfg) (hbound : 0 < (cfg site).loopBound)
    {t : Moment World} (hs : Sane cfg t.state) :
    (forceDetachFromPeer (cfg site)).wp (cloud cfg site).transformer
      ((Service.service cfg site).Lands (World.pair cfg) (Sane cfg) t (.disk .forceDetachFromPeer))
      t := by
  have hpeer := set_inst t.state site.other (detached (cfg site.other) (t.state.inst site.other))
  have hself := set_inst_other t.state site.other_ne.symm
    (detached (cfg site.other) (t.state.inst site.other))
  refine lands (.disk .forceDetachFromPeer) (fun _ _ _ => trivial) (fun value => ⟨value, rfl⟩)
    (forceDetachFromPeer_leaves hm hs hbound) ?_ (hs.set_detached site.other)
  refine pair_done (by simp) (fun _ => rfl) (fun _ => rfl) (Service.forall_of_other site ?_ ?_) rfl
    (fun r => ?_) (fun r => ?_)
  · rw [hself]
  · rw [hpeer, detached_status]
  · cases r <;> simp [World.pair, Call.done, Call.acquires, Call.releases, hself] <;> rfl
  · cases r <;>
      simp [World.pair, Service.takes, hpeer, showsRw_detached (hs.ours site.other), World.hasVip,
        detached_nics] <;> rfl

/-- An operation on the machine itself, by the state in which it leaves it. -/
theorem machine_lands (op : Call) {t : Moment World} {vm : Vm} {program : Sys op.Ret}
    (huntimed : ∀ now answer now', Service.Timely (cfg site) now ⟨op, answer⟩ now')
    (hanswer : ∀ value, (t.state.pair cfg).Answers cfg site op (.ok value))
    (hop : ∀ call, op ≠ .host call) (htakes : Service.takes op = none) (hs : Sane cfg t.state)
    (h : Leaves cfg site t.state program (t.state.setVm site vm))
    (hdaemon : vm.daemon = (t.state.vm site).daemon) (hup : vm.up = (t.state.vm site).up)
    (hself : ∀ r, (((t.state.setVm site vm).pair cfg).node site).held r =
      op.done ((t.state.pair cfg).node site).held r) :
    program.wp (cloud cfg site).transformer
      ((Service.service cfg site).Lands (World.pair cfg) (Sane cfg) t op) t :=
  lands op huntimed hanswer h (pair_setVm hop hdaemon hup htakes hself) (hs.setVm site vm)

theorem mountDisk_lands (hbound : 0 < (cfg site).loopBound) {t : Moment World}
    (hs : Sane cfg t.state)
    (hdisk : showsRw (cfg site) (t.state.inst site) = true) :
    (mountDisk (cfg site)).wp (cloud cfg site).transformer
      ((Service.service cfg site).Lands (World.pair cfg) (Sane cfg) t (.disk .mountDisk)) t := by
  refine machine_lands (.disk .mountDisk) (fun _ _ _ => trivial)
    (fun value => ⟨value, rfl⟩) (by simp) rfl hs (mountDisk_leaves hbound hdisk) rfl rfl
    fun r => ?_
  cases r <;> simp [World.pair, Call.done, Call.acquires, Call.releases, setVm_vm] <;> rfl

theorem unmountDisk_lands {t : Moment World} (hs : Sane cfg t.state) :
    (unmountDisk (cfg site)).wp (cloud cfg site).transformer
      ((Service.service cfg site).Lands (World.pair cfg) (Sane cfg) t (.disk .unmountDisk)) t := by
  refine machine_lands (.disk .unmountDisk) (fun _ _ _ => trivial) (fun value => ⟨value, rfl⟩)
    (by simp) rfl hs unmountDisk_leaves rfl rfl fun r => ?_
  cases r <;> simp [World.pair, Call.done, Call.acquires, Call.releases, setVm_vm] <;> rfl

theorem startPostgres_lands {t : Moment World} (hs : Sane cfg t.state) :
    (startPostgres (cfg site)).wp (cloud cfg site).transformer
      ((Service.service cfg site).Lands (World.pair cfg) (Sane cfg) t
      (.disk .startPostgres)) t := by
  refine machine_lands (.disk .startPostgres) (fun _ _ _ => trivial) (fun value => ⟨value, rfl⟩)
    (by simp) rfl hs startPostgres_leaves rfl rfl fun r => ?_
  cases r <;> simp [World.pair, Call.done, Call.acquires, Call.releases, setVm_vm] <;> rfl

theorem stopPostgres_lands (mode : StopMode) {t : Moment World} (hs : Sane cfg t.state) :
    (stopPostgres (cfg site) mode).wp (cloud cfg site).transformer
      ((Service.service cfg site).Lands (World.pair cfg) (Sane cfg) t (.disk (.stopPostgres mode)))
      t := by
  refine machine_lands (.disk (.stopPostgres mode)) (fun _ _ _ => trivial)
    (fun value => ⟨value, rfl⟩) (by simp) rfl hs (stopPostgres_leaves mode) rfl rfl fun r => ?_
  cases r <;> simp [World.pair, Call.done, Call.acquires, Call.releases, setVm_vm] <;> rfl

theorem releaseVip_lands (hm : Mirrored cfg) (hbound : 0 < (cfg site).loopBound) {t : Moment World}
    (hs : Sane cfg t.state) : (releaseVip (cfg site)).wp (cloud cfg site).transformer
      ((Service.service cfg site).Lands (World.pair cfg) (Sane cfg) t (.net .releaseVip)) t := by
  obtain ⟨nic, hnic⟩ := hs.nic site
  have hsame := same_unaddressed (cfg site) hnic
  have hself := set_inst t.state site (unaddressed (cfg site) (t.state.inst site) nic)
  have hother := set_inst_other t.state site.other_ne
    (unaddressed (cfg site) (t.state.inst site) nic)
  refine lands (.net .releaseVip) (fun _ _ _ => trivial) (fun value => ⟨value, rfl⟩)
    (removeAliasIp_leaves hm hbound hnic) ?_ (hs.set_address hsame)
  refine pair_done (by simp) (fun _ => rfl) (fun _ => rfl) (Service.forall_of_other site ?_ ?_) rfl
    (fun r => ?_) (fun r => ?_)
  · rw [hself, hsame.status]
  · rw [hother]
  · cases r <;>
      simp [World.pair, Call.done, Call.acquires, Call.releases, hself, hsame.showsRw,
        hasVip_unaddressed (cfg site) hnic] <;> rfl
  · cases r <;> simp [World.pair, Service.takes, hother] <;> rfl

theorem acquireVip_lands (hm : Mirrored cfg) (hbound : 0 < (cfg site).loopBound) {t : Moment World}
    (hs : Sane cfg t.state) : (acquireVip (cfg site)).wp (cloud cfg site).transformer
      ((Service.service cfg site).Lands (World.pair cfg) (Sane cfg) t (.net .acquireVip)) t := by
  obtain ⟨nic, hnic⟩ := hs.nic site
  obtain ⟨nic', hnic'⟩ := hs.nic site.other
  have hsame := same_addressed (cfg site) hnic
  have hsame' := same_unaddressed (cfg site.other) hnic'
  have hacquire := acquireVip_leaves hm hbound hnic hnic'
  -- the peer loses the address first, and the node gains it on what that leaves
  obtain ⟨between, hset⟩ : ∃ between, t.state.set site.other
      (unaddressed (cfg site.other) (t.state.inst site.other) nic') = between := ⟨_, rfl⟩
  rw [hset] at hacquire
  have hbetween : between.inst site = t.state.inst site := by
    rw [← hset]
    exact set_inst_other t.state site.other_ne.symm _
  have hbefore : Sane cfg between := by
    rw [← hset]
    exact hs.set_address hsame'
  have hvm : between.vm = t.state.vm := by rw [← hset]; rfl
  have hrequest : between.request = t.state.request := by rw [← hset]; rfl
  have hself := set_inst between site (addressed (cfg site) (t.state.inst site) nic)
  have hother : (between.set site (addressed (cfg site) (t.state.inst site) nic)).inst site.other =
      unaddressed (cfg site.other) (t.state.inst site.other) nic' := by
    rw [set_inst_other between site.other_ne, ← hset, set_inst]
  refine lands (.net .acquireVip) (fun _ _ _ => trivial) (fun value => ⟨value, rfl⟩) hacquire ?_
    (hbefore.set_address (by rwa [hbetween]))
  refine pair_done (by simp) (fun i => congrArg (fun vm : Site → Vm => (vm i).daemon) hvm)
    (fun i => congrArg (fun vm : Site → Vm => (vm i).up) hvm) (Service.forall_of_other site ?_ ?_)
    hrequest (fun r => ?_) (fun r => ?_)
  · rw [hself, hsame.status]
  · rw [hother, hsame'.status]
  · cases r with
    | vip => simp [World.pair, Call.done, Call.acquires, hself, hasVip_addressed (cfg site) hnic]
    | disk => simp [World.pair, Call.done, Call.acquires, Call.releases, hself, hsame.showsRw]
    | _ => simp [World.pair, Call.done, Call.acquires, Call.releases, World.set, hvm]
  · cases r with
    | vip => simp [World.pair, Service.takes, hother, hasVip_unaddressed (cfg site.other) hnic']
    | disk => simp [World.pair, Service.takes, hother, hsame'.showsRw]
    | _ => simp [World.pair, Service.takes, World.set, hvm]

/-- A query, by the answer that it has. -/
theorem query_lands {op : Call} {t : Moment World} {program : Sys op.Ret} {value : op.Ret}
    (huntimed : ∀ now answer now', Service.Timely (cfg site) now ⟨op, answer⟩ now')
    (hanswer : (t.state.pair cfg).Answers cfg site op (.ok value)) (hquiet : Service.Quiet op)
    (hs : Sane cfg t.state) (h : Gives cfg site t.state program value t.state) :
    program.wp (cloud cfg site).transformer
      ((Service.service cfg site).Lands (World.pair cfg) (Sane cfg) t op) t := by
  refine lands_of_returns huntimed
    (h.conseq transformer_monotone (fun _ => id) fun result s hend => ?_)
  obtain ⟨rfl, hstate⟩ := hend
  rw [show s.state = t.state from hstate]
  exact ⟨hanswer, (Service.done_of_quiet hquiet).symm, hs⟩

/-- The status of the peer's instance. -/
theorem getInstanceStatus_gives (hm : Mirrored cfg) :
    Gives cfg site w (getInstanceStatus (cfg site) (cfg site).cluster.peerNode (cfg site).peerZone)
      ((w.pair cfg).status site.other) w := by
  rw [peerNode_eq hm, peerZone_eq hm]
  exact (getInstance_gives hm site.other).attempt_bind (gives_pure _)

/-! ### The operations of the host -/

/-- What a host answers here, it answers there. -/
theorem peerAnswers_of_host {call : HostCall} {answer : Except Exc call.Ret}
    (h : w.AnswersHost cfg site call answer) : (w.pair cfg).PeerAnswers cfg site call answer := by
  cases call <;> first | exact h | trivial

theorem after_daemon (vm : Vm) (call : HostCall) :
    (vm.after call).daemon = vm.daemon.after call := by
  cases call with
  | run command => cases command <;> rfl
  | _ => rfl

theorem after_up (vm : Vm) (call : HostCall) : (vm.after call).up = vm.up := by
  cases call with
  | run command => cases command <;> rfl
  | _ => rfl

/-- The commands that the daemon itself runs leave the machine as it is. -/
theorem held_after_host {call : HostCall} (hready : (w.pair cfg).Ready cfg site (.host call))
    (r : Resource) : (((w.done cfg site (.host call)).pair cfg).node site).held r =
      (Call.host call).done ((w.pair cfg).node site).held r := by
  have hvm : (w.done cfg site (.host call)).vm site = (w.vm site).after call := if_pos rfl
  have hinst : (w.done cfg site (.host call)).inst = w.inst := rfl
  cases r with
  | vip => cases call <;> rfl
  | disk => cases call <;> rfl
  | postgres =>
      simp only [World.pair, hvm]
      cases call with
      | run command =>
          obtain ⟨verb, service, rfl⟩ := hready
          rfl
      | _ => rfl
  | filesystem =>
      simp only [World.pair, hvm]
      cases call with
      | run command =>
          obtain ⟨verb, service, rfl⟩ := hready
          rfl
      | _ => rfl

theorem pair_done_host {call : HostCall} (hready : (w.pair cfg).Ready cfg site (.host call)) :
    (w.done cfg site (.host call)).pair cfg = (w.pair cfg).done site (.host call) := by
  have hself : (w.done cfg site (.host call)).vm site = (w.vm site).after call := if_pos rfl
  have hother : (w.done cfg site (.host call)).vm site.other = w.vm site.other :=
    if_neg site.other_ne
  -- field by field, as for a request
  have hnode : ((w.done cfg site (.host call)).pair cfg).node =
      ((w.pair cfg).done site (.host call)).node := by
    refine funext (Service.forall_of_other site ?_ ?_)
    · rw [Service.Pair.node_done_self]
      have hdaemon : ((w.done cfg site (.host call)).vm site).daemon =
          (w.vm site).daemon.after call := by
        rw [hself, after_daemon]
      exact congr (congrArg NodeWorld.mk hdaemon) (funext (held_after_host hready))
    · rw [Service.Pair.node_done_other, node_eq hother rfl]
      rfl
  have hup : ((w.done cfg site (.host call)).pair cfg).up = (w.pair cfg).up := by
    refine funext (Service.forall_of_other site ?_ ?_)
    · show ((w.done cfg site (.host call)).vm site).up = (w.vm site).up
      rw [hself, after_up]
    · exact congrArg Vm.up hother
  have hrequest : (w.done cfg site (.host call)).request =
      ((w.pair cfg).done site (.host call)).request := by
    cases call <;> rfl
  show Service.Pair.mk ((w.done cfg site (.host call)).pair cfg).node
      ((w.done cfg site (.host call)).pair cfg).up (w.pair cfg).status
      (w.done cfg site (.host call)).request =
    ⟨((w.pair cfg).done site (.host call)).node, (w.pair cfg).up, (w.pair cfg).status,
      ((w.pair cfg).done site (.host call)).request⟩
  rw [hnode, hup, hrequest]

theorem host_lands {call : HostCall} {t : Moment World} (hs : Sane cfg t.state)
    (hready : (t.state.pair cfg).Ready cfg site (.host call)) :
    (Sys.host call).wp (cloud cfg site).transformer
      ((Service.service cfg site).Lands (World.pair cfg) (Sane cfg) t (.host call)) t := by
  have hfree : (cloud cfg site).ready t.state (.host call) := by
    cases call with
    | acquireFailoverLock blocking => exact hready
    | _ => trivial
  rw [Prog.wp_perform]
  refine ⟨hfree, fun answer t' hstep => ⟨answer, rfl, ?_, ?_, ?_, ?_⟩⟩
  · exact ⟨hstep.answers.1, peerAnswers_of_host hstep.answers.2⟩
  · have hstate : t'.state = t.state.done cfg site (.host call) := hstep.done
    rw [hstate]
    exact pair_done_host hready
  · have hstate : t'.state = t.state.done cfg site (.host call) := hstep.done
    rw [hstate]
    exact ⟨hs.ours, hs.single, hs.nic, hs.url⟩
  · have htimely := hstep.timely
    cases call <;> exact htimely

/-- **The managers do what they are taken to do.** -/
theorem managers_refine (hm : Mirrored cfg) (hbound : 0 < (cfg site).loopBound) :
    Refines (fun s t => s.state = t.state.pair cfg ∧ s.now = t.now ∧ Sane cfg t.state)
      (fun s op => (Service.service cfg site).ready s.state op) (Service.service cfg site).Step
      (cloud cfg site).transformer (managers (cfg site)) := by
  refine refines fun op t hs hready => ?_
  cases op with
  | host call => exact host_lands hs hready
  | net call =>
      cases call with
      | acquireVip => exact acquireVip_lands hm hbound hs
      | releaseVip => exact releaseVip_lands hm hbound hs
  | disk call =>
      cases call with
      | currentRwHolder =>
          exact query_lands (fun _ _ _ => trivial) rfl trivial hs (currentRwHolder_gives hm hs)
      | getInstanceStatus name zone =>
          obtain ⟨rfl, rfl⟩ := hready
          exact query_lands (fun _ _ _ => trivial) rfl trivial hs (getInstanceStatus_gives hm)
      | forceDetachFromPeer => exact forceDetachFromPeer_lands hm hbound hs
      | attachDiskRw => exact attachDiskRw_lands hm hbound hs hready
      | detachDisk => exact detachDisk_lands hm hbound hs
      | mountDisk => exact mountDisk_lands hbound hs hready
      | unmountDisk => exact unmountDisk_lands hs
      | startPostgres => exact startPostgres_lands hs
      | stopPostgres mode => exact stopPostgres_lands mode hs

end Refinement

end PgHa.Cloud
