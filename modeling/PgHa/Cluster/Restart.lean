import PgHa.Daemon
import PgHa.Gcp.Network
import PgHa.Model.Host

/-!
# A restart of the daemon

The election at the start of a daemon runs the same steps on a node that has been
serving for weeks as on one that has to take over.  It is harmless because each of
these steps looks first: `restart_harmless` says that a daemon which starts in a
cluster that serves takes the role that fits, and that nothing is attached,
detached, mounted, unmounted, started, stopped or moved on the way.

The proof follows the operations of the managers down to the requests and the
commands (`currentRwHolder_wp`, `mountDisk_wp`, `startPostgres_wp`,
`acquireVip_wp`), each of which takes its short way.
-/

namespace PgHa.Restart

open Effect DiskManager

variable {cfg : Config}

/-- What can be asked about a cluster in which one of the two instances serves. -/
structure Cluster (cfg : Config) where
  /-- The users of the disk. -/
  users : List String
  /-- The instance of a name. -/
  inst : String → Instance
  /-- The lines of `/proc/mounts` on this node. -/
  mounts : List String

/-- The instance of this name serves, and this node is one of the two. -/
structure Serving (cluster : Cluster cfg) (holder : String) : Prop where
  node : cfg.cluster.nodeName = cfg.gcp.instancePrimary ∨
    cfg.cluster.nodeName = cfg.gcp.instanceStandby
  known : holder = cfg.gcp.instancePrimary ∨ holder = cfg.gcp.instanceStandby
  peer : cfg.cluster.peerNode = cfg.gcp.instancePrimary ∨
    cfg.cluster.peerNode = cfg.gcp.instanceStandby
  distinct : cfg.cluster.peerNode ≠ cfg.cluster.nodeName
  listed : ∃ user ∈ cluster.users, lastSegment user = holder
  attached : ∀ name, showsRw cfg (cluster.inst name) = true ↔ name = holder
  /-- The address is on the interface of the instance that serves. -/
  address : ∃ nic, (cluster.inst holder).networkInterfaces.find?
    (·.name == some cfg.gcp.nicName) = some nic ∧ some cfg.gcp.vipCidr ∈ NetworkManager.cidrs nic
  /-- And on no other one. -/
  elsewhere : ∀ name, name ≠ holder → ∀ nic, (cluster.inst name).networkInterfaces.find?
    (·.name == some cfg.gcp.nicName) = some nic → some cfg.gcp.vipCidr ∉ NetworkManager.cidrs nic
  mounted : holder = cfg.cluster.nodeName →
    cluster.mounts.any (mountsAt cfg.gcp.diskMountPoint) = true

/-- The answers of the Compute API: it answers every query, and truthfully. -/
def AnswersQuery (cluster : Cluster cfg) : (call : GcpCall) → Except Exc call.Ret → Prop
  | .getDisk project region disk, answer =>
      project = cfg.gcp.projectId → region = cfg.gcp.region → disk = cfg.gcp.diskName →
        answer = .ok (.ok ⟨cluster.users⟩)
  | .getInstance project zone name, answer =>
      project = cfg.gcp.projectId → zoneForInstance cfg name = some zone →
        answer = .ok (.ok (cluster.inst name))
  | _, _ => True

/-- The answers of a host on which the filesystem is mounted and healthy and PostgreSQL runs, to
a daemon that starts within 30 seconds. -/
def AnswersHost (cluster : Cluster cfg) (start : Int) :
    (call : HostCall) → Except Exc call.Ret → Prop
  | .monotonic, answer => ∃ now, answer = .ok now ∧ start ≤ now ∧ now < start + 30000
  | .readMounts, answer => answer = .ok cluster.mounts
  | .listdir path, answer => path = cfg.gcp.diskMountPoint → ∃ names, answer = .ok names
  | .pathExists path, answer => path = devPath cfg → answer = .ok true
  | .run command, answer =>
      let pg := cfg.postgresql
      command = .pgCtlStatus pg.pgOsUser pg.pgCtl pg.dataDir →
        ∃ result, answer = .ok result ∧ result.returncode = 0
  | _, _ => True

/-- An operation of the daemon that starts. -/
def startStep (cluster : Cluster cfg) (start : Int) (s : DaemonState)
    (event : Event SysCall.Ret Exc) (s' : DaemonState) : Prop :=
  match event with
  | ⟨.gcp call, answer⟩ => AnswersQuery cluster call answer ∧ s' = s
  | ⟨.host call, answer⟩ =>
      s.Answers call answer ∧ AnswersHost cluster start call answer ∧ s' = s.after call

/-- The operations that change nothing outside of the daemon but the EFM service. -/
def Harmless : SysCall → Prop
  | .gcp (.getDisk ..) | .gcp (.getInstance ..) => True
  | .gcp _ => False
  | .host (.run (.pgCtlStatus ..)) | .host (.run (.systemctl ..)) => True
  | .host (.run _) | .host (.remove _) | .host (.writeFile _) | .host (.makeParent _)
  | .host (.killMountUsers _) | .host (.sendRequest _) | .host (.startThread _) => False
  | .host _ => True

abbrev starting (cluster : Cluster cfg) (start : Int) : Transformer SysCall.Ret Exc DaemonState :=
  guarded (fun _ => Harmless) (startStep cluster start)

/-! ## The queries -/

section Rules

variable {cluster : Cluster cfg} {start : Int} {s : DaemonState} {α : Type}

theorem getInstance_wp {name zone : String} (hzone : zoneForInstance cfg name = some zone)
    {post : Outcome Exc (Except Exc Instance) → DaemonState → Prop}
    (h : post (.returned (.ok (cluster.inst name))) s) :
    (getInstance cfg name zone).attempt.wp (starting cluster start) post s := by
  rw [attempt_getInstance, Prog.wp_call]
  refine ⟨trivial, ?_⟩
  rintro answer s' ⟨hanswer, rfl⟩
  obtain rfl := hanswer rfl hzone
  exact h

theorem zone_of_holder {holder : String} (h : Serving cluster holder) :
    ∃ zone, zoneForInstance cfg holder = some zone := by
  unfold zoneForInstance
  split
  · exact ⟨_, rfl⟩
  · rename_i hprimary
    exact ⟨_, if_pos (h.known.resolve_left hprimary)⟩

/-- The loop over the users of the disk, by induction on them: those before the holder do not
show the disk in read-write mode. -/
theorem holderAmong_wp {holder : String} (h : Serving cluster holder) {users : List String}
    (hmem : ∃ user ∈ users, lastSegment user = holder)
    {post : Outcome Exc (Option String) → DaemonState → Prop}
    (hpost : post (.returned (some holder)) s) :
    (holderAmong cfg users).wp (starting cluster start) post s := by
  induction users with
  | nil => simp at hmem
  | cons user rest ih =>
      have hrest (hne : lastSegment user ≠ holder) :
          (holderAmong cfg rest).wp (starting cluster start) post s := by
        obtain ⟨user', hin, heq⟩ := hmem
        rcases List.mem_cons.mp hin with rfl | hin
        · exact absurd heq hne
        · exact ih ⟨user', hin, heq⟩
      unfold holderAmong
      cases hzone : zoneForInstance cfg (lastSegment user) with
      | none =>
          simp only [hzone]
          apply hrest
          -- the zone of the holder is known, so this user is another one
          rintro rfl
          obtain ⟨zone, hsome⟩ := zone_of_holder h
          rw [hzone] at hsome
          cases hsome
      | some zone =>
          simp only [hzone, Prog.bind_eq]
          rw [Prog.wp_bind]
          refine getInstance_wp hzone ?_
          rw [Prog.andThen_returned]
          -- only the holder shows the disk read-write
          by_cases hname : lastSegment user = holder
          · have hrw := (h.attached _).mpr hname
            simp only [hrw, if_true]
            rw [hname]
            exact hpost
          · have hrw : showsRw cfg (cluster.inst (lastSegment user)) = false := by
              rw [Bool.eq_false_iff]
              exact fun hrw => hname ((h.attached _).mp hrw)
            simp only [hrw, Bool.false_eq_true, if_false]
            exact hrest hname

theorem currentRwHolder_wp {holder : String} (h : Serving cluster holder)
    {post : Outcome Exc (Option String) → DaemonState → Prop}
    (hpost : post (.returned (some holder)) s) :
    (currentRwHolder cfg).wp (starting cluster start) post s := by
  unfold currentRwHolder
  rw [Prog.bind_eq, Prog.wp_bind, attempt_getDisk, Prog.wp_call]
  refine ⟨trivial, ?_⟩
  rintro answer s' ⟨hanswer, rfl⟩
  obtain rfl := hanswer rfl rfl rfl
  exact holderAmong_wp h h.listed hpost

/-! ## The operations that look first -/

theorem host_wp {call : HostCall} {post : Outcome Exc call.Ret → DaemonState → Prop}
    (hharmless : Harmless (.host call))
    (h : ∀ answer, s.Answers call answer → AnswersHost cluster start call answer →
      post (Prog.answered answer) (s.after call)) :
    (Sys.host call).wp (starting cluster start) post s := by
  rw [Prog.wp_perform]
  refine ⟨hharmless, ?_⟩
  rintro answer s' ⟨hanswer, hhost, rfl⟩
  exact h answer hanswer hhost

/-- The device is there, and the first look at the clock is early enough. -/
theorem waitForDevice_wp (hbound : 0 < cfg.loopBound)
    {post : Outcome Exc Unit → DaemonState → Prop} (hpost : post (.returned ()) s) :
    (waitForDevice cfg (devPath cfg) 30).wp (starting cluster start) post s := by
  obtain ⟨bound, hloop⟩ : ∃ bound, cfg.loopBound = bound + 1 := ⟨cfg.loopBound - 1, by omega⟩
  unfold waitForDevice
  rw [hloop, Prog.bind_eq, Prog.wp_bind]
  refine host_wp trivial ?_
  rintro _ _ ⟨first, rfl, hfirst, -⟩
  rw [Prog.answered_ok, Prog.andThen_returned, pollDevice, Prog.bind_eq, Prog.wp_bind]
  refine host_wp trivial ?_
  rintro _ _ ⟨now, rfl, -, hnow⟩
  have hlate : start + 30000 ≤ first + 1000 * 30 := by omega
  have hearly : now < first + 1000 * 30 := Int.lt_of_lt_of_le hnow hlate
  rw [Prog.answered_ok, Prog.andThen_returned, if_pos hearly, Prog.bind_eq, Prog.wp_bind]
  refine host_wp trivial ?_
  intro answer _ hanswer
  obtain rfl := hanswer rfl
  exact hpost

/-- What is mounted and healthy is left alone. -/
theorem mountDisk_wp (hbound : 0 < cfg.loopBound)
    (hmounted : cluster.mounts.any (mountsAt cfg.gcp.diskMountPoint) = true)
    {post : Outcome Exc Unit → DaemonState → Prop} (hpost : post (.returned ()) s) :
    (mountDisk cfg).wp (starting cluster start) post s := by
  unfold mountDisk
  rw [Prog.bind_eq, Prog.wp_bind]
  refine waitForDevice_wp hbound ?_
  rw [Prog.andThen_returned, Prog.bind_eq, Prog.wp_bind, isMounted, Prog.bind_eq, Prog.wp_bind]
  refine host_wp trivial ?_
  rintro _ _ rfl
  rw [Prog.answered_ok, Prog.andThen_returned]
  simp only [hmounted, Prog.pure_eq, Prog.wp_pure, Prog.andThen_returned, if_true]
  rw [Prog.bind_eq, Prog.wp_bind, isMountHealthy, Prog.bind_eq, Prog.wp_bind, Prog.wp_attempt]
  refine host_wp trivial ?_
  intro answer _ hanswer
  obtain ⟨names, rfl⟩ := hanswer rfl
  exact hpost

/-- A database that runs is not started. -/
theorem startPostgres_wp {post : Outcome Exc Unit → DaemonState → Prop}
    (hpost : post (.returned ()) s) : (startPostgres cfg).wp (starting cluster start) post s := by
  unfold startPostgres
  rw [Prog.bind_eq, Prog.wp_bind, pgIsRunning, Prog.bind_eq, Prog.wp_bind, Prog.wp_attempt]
  refine host_wp trivial ?_
  intro answer _ hanswer
  obtain ⟨result, rfl, hcode⟩ := hanswer rfl
  simp only [Prog.answered_ok, Prog.captured_returned, Prog.andThen_returned, hcode, Prog.pure_eq,
    Prog.wp_pure, beq_self_eq_true, if_true]
  exact hpost

theorem getNic_wp {name zone : String} (hzone : zoneForInstance cfg name = some zone)
    {post : Outcome Exc Nic → DaemonState → Prop}
    (h : post (Prog.answered (NetworkManager.nicIn name cfg.gcp.nicName
      (.ok (.ok (cluster.inst name))))) s) :
    (NetworkManager.getNic cfg name zone).wp (starting cluster start) post s := by
  rw [NetworkManager.getNic_eq_call, Prog.wp_call]
  refine ⟨trivial, ?_⟩
  rintro answer s' ⟨hanswer, rfl⟩
  obtain rfl := hanswer rfl hzone
  rwa [Prog.wp_ofExcept]

theorem zone_of_node {holder : String} (h : Serving cluster holder) :
    zoneForInstance cfg cfg.cluster.nodeName = some cfg.myZone := by
  unfold zoneForInstance Config.myZone
  split
  · rfl
  · rename_i hprimary
    rw [if_pos (h.node.resolve_left hprimary)]

theorem zone_of_peer {holder : String} (h : Serving cluster holder) :
    zoneForInstance cfg cfg.cluster.peerNode = some cfg.peerZone := by
  unfold zoneForInstance Config.peerZone
  by_cases hnode : cfg.cluster.nodeName = cfg.gcp.instancePrimary
  · have hpeer : cfg.cluster.peerNode ≠ cfg.gcp.instancePrimary := hnode ▸ h.distinct
    rw [if_neg hpeer, if_pos (h.peer.resolve_left hpeer), if_pos hnode]
  · have hstandby := h.node.resolve_left hnode
    have hpeer : cfg.cluster.peerNode = cfg.gcp.instancePrimary :=
      h.peer.resolve_right (hstandby ▸ h.distinct)
    rw [if_pos hpeer, if_neg hnode]

/-- An address that the peer does not have is not taken from it. -/
theorem releaseVipFromPeer_wp (h : Serving cluster cfg.cluster.nodeName)
    {post : Outcome Exc Unit → DaemonState → Prop} (hpost : post (.returned ()) s) :
    (NetworkManager.releaseVipFromPeer cfg).wp (starting cluster start) post s := by
  unfold NetworkManager.releaseVipFromPeer NetworkManager.hasAliasIp
  rw [Prog.bind_eq, Prog.wp_bind, Prog.bind_eq, Prog.wp_bind, Prog.wp_attempt]
  refine getNic_wp (zone_of_peer h) ?_
  cases hnic : (cluster.inst cfg.cluster.peerNode).networkInterfaces.find?
      (·.name == some cfg.gcp.nicName) with
  | none =>
      -- without such an interface there is no address on it either
      simp [NetworkManager.nicIn, Except.bind, hnic]
      exact hpost
  | some nic =>
      have habsent := h.elsewhere _ h.distinct nic hnic
      simp [NetworkManager.nicIn, Except.bind, hnic, habsent]
      exact hpost

/-- An address that is where it belongs is neither released nor added. -/
theorem acquireVip_wp (h : Serving cluster cfg.cluster.nodeName)
    {post : Outcome Exc Unit → DaemonState → Prop} (hpost : post (.returned ()) s) :
    (NetworkManager.acquireVip cfg).wp (starting cluster start) post s := by
  have hadd : (NetworkManager.addAliasIp cfg cfg.cluster.nodeName cfg.myZone).wp
      (starting cluster start) post s := by
    obtain ⟨nic, hnic, hlisted⟩ := h.address
    unfold NetworkManager.addAliasIp
    rw [Prog.bind_eq, Prog.wp_bind]
    refine getNic_wp (zone_of_node h) ?_
    have hanswer : NetworkManager.nicIn cfg.cluster.nodeName cfg.gcp.nicName
        (.ok (.ok (cluster.inst cfg.cluster.nodeName))) = .ok nic := by
      simp [NetworkManager.nicIn, Except.bind, hnic]
    rw [hanswer, Prog.answered_ok, Prog.andThen_returned]
    simp only [hlisted, if_true]
    exact hpost
  unfold NetworkManager.acquireVip
  rw [Prog.bind_eq, Prog.wp_bind]
  refine releaseVipFromPeer_wp h ?_
  rwa [Prog.andThen_returned]

/-! ## The start -/

/-- A command whose failure is only logged. -/
theorem attempted_wp {command : Command} (hharmless : Harmless (.host (.run command)))
    {next : Except Exc CompletedProcess → Sys α} {post : Outcome Exc α → DaemonState → Prop}
    (h : ∀ result, (next result).wp (starting cluster start) post s) :
    ((Sys.host (.run command)).attempt.bind next).wp (starting cluster start) post s := by
  rw [Prog.wp_bind, Prog.wp_attempt]
  refine host_wp hharmless ?_
  intro answer _ _
  cases answer with
  | ok result => exact h (.ok result)
  | error exc => exact h (.error exc)

theorem efmStart_wp {post : Outcome Exc Unit → DaemonState → Prop} (hpost : post (.returned ()) s) :
    ((PgHaDaemon.efmStart cfg).lower (managers cfg)).wp (starting cluster start) post s := by
  simp only [PgHaDaemon.efmStart, Prog.bind_eq, Prog.lower_ite, Prog.lower_bind, Prog.lower_attempt,
    Prog.lower_perform, Prog.pure_eq, Prog.lower_pure, Prog.wp_ite, managers]
  split
  · exact attempted_wp (by trivial) fun _ => hpost
  · exact hpost

theorem efmStop_wp {post : Outcome Exc Unit → DaemonState → Prop} (hpost : post (.returned ()) s) :
    ((PgHaDaemon.efmStop cfg).lower (managers cfg)).wp (starting cluster start) post s := by
  simp only [PgHaDaemon.efmStop, Prog.bind_eq, Prog.lower_ite, Prog.lower_bind, Prog.lower_attempt,
    Prog.lower_perform, Prog.pure_eq, Prog.lower_pure, Prog.wp_ite, managers]
  split
  · refine attempted_wp (by trivial) fun _ => ?_
    rw [Prog.wp_bind, Prog.wp_attempt, Prog.wp_bind]
    refine host_wp trivial ?_
    intro answer _ _
    cases answer with
    | error exc => exact hpost
    | ok result =>
        rw [Prog.answered_ok, Prog.andThen_returned, Prog.wp_ite]
        split
        · rw [Prog.wp_bind]
          refine host_wp trivial ?_
          intro answer _ _
          cases answer <;> exact hpost
        · exact hpost
  · exact hpost

/-- What a node says of itself when it serves, and when it does not. -/
structure Says (said : NodeRole) (s : DaemonState) : Prop where
  role : s.node.role = said
  health : s.node.health = .healthy
  diskState : s.node.diskState = if said = .primary then .attachedRw else .detached
  pgState : s.node.pgState = if said = .primary then .runningPrimary else .stopped

/-- The role is assumed, without a word to the outside. -/
theorem assume_wp (role : NodeRole) (diskState : DiskState) (pgState : PgState)
    {post : Outcome Exc NodeRole → DaemonState → Prop}
    (h : post (.returned role) ((((s.after (.setRole role)).after (.setDiskState diskState)).after
      (.setPgState pgState)).after (.setHealth .healthy))) :
    ((Sys.host (.setRole role)).bind fun _ => (Sys.host (.setDiskState diskState)).bind fun _ =>
      (Sys.host (.setPgState pgState)).bind fun _ => (Sys.host (.setHealth .healthy)).bind fun _ =>
        .pure role).wp (starting cluster start) post s := by
  rw [Prog.wp_bind]
  refine host_wp trivial ?_
  rintro _ rfl _
  rw [Prog.answered_ok, Prog.andThen_returned, Prog.wp_bind]
  refine host_wp trivial ?_
  rintro _ rfl _
  rw [Prog.answered_ok, Prog.andThen_returned, Prog.wp_bind]
  refine host_wp trivial ?_
  rintro _ rfl _
  rw [Prog.answered_ok, Prog.andThen_returned, Prog.wp_bind]
  refine host_wp trivial ?_
  rintro _ rfl _
  exact h

/-- The role that fits what is there. -/
def fitting (cfg : Config) (holder : String) : NodeRole :=
  if holder = cfg.cluster.nodeName then .primary else .standby

theorem elect_wp {holder : String} (hbound : 0 < cfg.loopBound) (h : Serving cluster holder)
    {post : Outcome Exc NodeRole → DaemonState → Prop}
    (hpost : ∀ s', Says (fitting cfg holder) s' → post (.returned (fitting cfg holder)) s') :
    ((ElectionManager.elect cfg).lower (managers cfg)).wp (starting cluster start) post s := by
  simp only [ElectionManager.elect, Prog.bind_eq, Prog.lower_bind, Prog.lower_perform, managers]
  rw [Prog.wp_bind]
  refine currentRwHolder_wp h ?_
  rw [Prog.andThen_returned]
  by_cases hnode : holder = cfg.cluster.nodeName
  -- everything is already there, so `_become_primary` only looks
  · subst hnode
    simp only [if_true, ElectionManager.becomePrimary, Prog.lower_except, Prog.wp_except]
    simp only [ElectionManager.takeOver, Bool.false_eq_true, if_false, Prog.bind_eq, Prog.pure_eq,
      Prog.lower_bind, Prog.lower_perform, Prog.lower_pure, managers]
    rw [Prog.wp_bind]
    refine mountDisk_wp hbound (h.mounted rfl) ?_
    rw [Prog.andThen_returned, Prog.wp_bind]
    refine startPostgres_wp ?_
    rw [Prog.andThen_returned, Prog.wp_bind]
    refine acquireVip_wp h ?_
    rw [Prog.andThen_returned]
    refine assume_wp _ _ _ ?_
    have hfit : fitting cfg cfg.cluster.nodeName = .primary := if_pos rfl
    rw [Prog.handled_returned]
    rw [hfit] at hpost
    exact hpost _ ⟨rfl, rfl, rfl, rfl⟩
  -- the peer serves
  · have hother : some holder ≠ some cfg.cluster.nodeName := by simpa using hnode
    rw [if_neg hother]
    simp only [Option.isSome_some, if_true, ElectionManager.becomeStandby,
      Prog.bind_eq, Prog.pure_eq, Prog.lower_bind, Prog.lower_perform, Prog.lower_pure, managers]
    have hfit : fitting cfg holder = .standby := if_neg hnode
    refine assume_wp _ _ _ ?_
    rw [hfit] at hpost
    exact hpost _ ⟨rfl, rfl, rfl, rfl⟩

theorem startup_wp {holder : String} (hbound : 0 < cfg.loopBound) (h : Serving cluster holder) :
    ((PgHaDaemon.startup cfg).lower (managers cfg)).wp (starting cluster start)
      (fun outcome s' => outcome = .returned () ∧ Says (fitting cfg holder) s') s := by
  simp only [PgHaDaemon.startup, Prog.bind_eq, Prog.lower_bind, Prog.lower_perform, Prog.lower_ite,
    managers]
  rw [Prog.wp_bind]
  refine elect_wp hbound h fun s' htold => ?_
  rw [Prog.andThen_returned, Prog.wp_ite]
  have hrest : ∀ s', Says (fitting cfg holder) s' →
      ((Sys.host .pgMonReset).bind fun _ =>
        Sys.host (.pgMonSetActive (fitting cfg holder == .primary))).wp (starting cluster start)
        (fun outcome s' => outcome = .returned () ∧ Says (fitting cfg holder) s') s' := by
    intro s' htold
    rw [Prog.wp_bind]
    refine host_wp trivial ?_
    rintro _ rfl _
    rw [Prog.answered_ok, Prog.andThen_returned]
    refine host_wp trivial ?_
    rintro _ rfl _
    exact ⟨rfl, htold⟩
  rw [Prog.wp_bind, Prog.wp_bind]
  split
  · exact efmStart_wp (hrest s' htold)
  · exact efmStop_wp (hrest s' htold)

end Rules

/-- **A restart is not noticed.**  A daemon that is started while one of the two instances serves
takes the role that fits what is there, and on the way it changes nothing but itself and the EFM
service: it neither attaches nor detaches the disk, mounts or unmounts nothing, neither starts nor
stops PostgreSQL and leaves the address where it is. -/
theorem restart_harmless {cluster : Cluster cfg} {holder : String} (hbound : 0 < cfg.loopBound)
    (h : Serving cluster holder) (start : Int) (s : DaemonState)
    {trace : List (Event SysCall.Ret Exc)} {outcome : Outcome Exc Unit} {s' : DaemonState}
    (htrace : ((PgHaDaemon.startup cfg).lower (managers cfg)).Trace trace outcome)
    (hhistory : History (startStep cluster start) s trace s') :
    outcome = .returned () ∧ Says (fitting cfg holder) s' ∧ ∀ event ∈ trace, Harmless event.op := by
  have hwp := @startup_wp cfg cluster start s _ hbound h
  have hend := Prog.trace_wp (Prog.wp_of_guarded hwp) htrace hhistory
  exact ⟨hend.1, hend.2, Prog.checked_of_wp_guarded hwp htrace hhistory⟩

/-! ## The sample cluster -/

/-- The primary of the sample configuration serves. -/
def sampleCluster : Cluster Config.samplePrimary where
  users := ["https://www.googleapis.com/compute/v1/projects/my-gcp-project/zones/us-central1-a/" ++
    "instances/pg-primary"]
  inst name :=
    if name = "pg-primary" then
      ⟨some "RUNNING", [⟨some (diskSelfLink Config.samplePrimary), some "READ_WRITE",
        some "pg-data-disk"⟩], [⟨some "nic0", some "fp", [⟨some "10.0.0.100/32", none, []⟩]⟩]⟩
    else ⟨some "RUNNING", [], []⟩
  mounts := ["/dev/sdb /pgdata xfs rw 0 0"]

theorem serving_sampleCluster : Serving sampleCluster "pg-primary" where
  node := .inl rfl
  known := .inl rfl
  peer := .inr rfl
  distinct := by decide
  listed := by decide +kernel
  attached name := by
    by_cases hname : name = "pg-primary"
    · simp [sampleCluster, hname, showsRw, isOurs_diskSelfLink]
    · simp [sampleCluster, hname, showsRw]
  address := by
    refine ⟨_, rfl, ?_⟩
    decide +kernel
  elsewhere name hname nic hnic := by
    simp [sampleCluster, hname] at hnic
  mounted _ := by decide +kernel

def sampleAnswer (s : DaemonState) : (call : HostCall) → Except Exc call.Ret
  | .pathExists _ => .ok true
  | .readMounts => .ok sampleCluster.mounts
  | call => s.reply call

def sampleHandle (op : SysCall) (s : DaemonState) : Except Exc op.Ret × DaemonState :=
  match op with
  | .gcp (.getDisk ..) => (.ok (.ok ⟨sampleCluster.users⟩), s)
  | .gcp (.getInstance _ _ name) => (.ok (.ok (sampleCluster.inst name)), s)
  | .gcp (.getOperation ..) | .gcp (.attachDisk ..) | .gcp (.detachDisk ..)
  | .gcp (.updateNetworkInterface ..) => (.error ⟨.requestException, ""⟩, s)
  | .host call => (sampleAnswer s call, s.after call)

def sampleDaemon : DaemonState where
  node := { name := "pg-primary" }
  attempts := 0
  lastAttemptTs := 0
  peerInstanceStatus := ""
  switchoverActive := false
  failoverLocked := false
  lastDemotionTs := 0

abbrev sampleRun : Run SysCall.Ret Exc Unit DaemonState :=
  ((PgHaDaemon.startup Config.samplePrimary).lower (managers Config.samplePrimary)).run sampleHandle
    sampleDaemon

def unlocking : SysCall → Bool
  | .host (.acquireFailoverLock _) => false
  | _ => true

theorem startStep_sampleHandle (s : DaemonState) (op : SysCall) (h : unlocking op = true) :
    startStep sampleCluster 0 s ⟨op, (sampleHandle op s).1⟩ (sampleHandle op s).2 := by
  cases op with
  | gcp call => cases call <;> simp [startStep, sampleHandle, AnswersQuery]
  | host call =>
      have hanswers : s.Answers call (sampleAnswer s call) := by
        unfold sampleAnswer
        split
        · trivial
        · trivial
        · refine s.answers_reply call ?_
          rintro blocking rfl
          cases h
      refine ⟨hanswers, ?_, rfl⟩
      cases call <;> simp [AnswersHost, sampleAnswer, sampleHandle, DaemonState.reply]

theorem restart_harmless_sample : sampleRun.outcome = .returned () ∧
    Says .primary sampleRun.final ∧ ∀ event ∈ sampleRun.log, Harmless event.op := by
  have hlog : sampleRun.log.all (fun event => unlocking event.op) = true := by decide +kernel
  exact restart_harmless (by decide) serving_sampleCluster 0 sampleDaemon (trace_run _ _ _)
    (history_run_of_log startStep_sampleHandle _ _ hlog)

end PgHa.Restart
