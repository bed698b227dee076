import PgHa.Daemon
import PgHa.Effect.Behaviour
import PgHa.Model.Resources

/-!
# A pair of nodes that serves

What the two nodes of a cluster hold and what their daemons say of it, while the
requests, the commands and the peer answer.  The operations of the managers take
effect as a whole here; `Cloud.lean` shows that they do, request by request.

On this level the engines are followed from one state of the pair to the next
(`Leaves`, `Gives`): a planned switchover hands over from a node that serves
(`executeAsPrimary_gives`, `executeAsStandby_gives`), and a failover takes over what
a machine has left behind (`failoverSteps_gives`).  The last section says it of the
entries of the daemon, in terms of which node serves.
-/

namespace PgHa.Service

open Effect LocalNode Behaviour

variable {cfg : Site → Config}

/-! ## The pair -/

/-- The two nodes of a cluster. -/
structure Pair where
  node : Site → NodeWorld
  /-- The machine runs and can be reached. -/
  up : Site → Bool
  /-- What the Compute API says of the machine. -/
  status : Site → String
  /-- The last message to a peer. -/
  request : Option PeerRequest

/-- The operation has had its effect on the node itself. -/
def does (node : NodeWorld) (op : Call) : NodeWorld where
  daemon :=
    match op with
    | .host call => node.daemon.after call
    | _ => node.daemon
  held := op.done node.held

/-- What an operation takes away from the peer. -/
def takes : Call → Option Resource
  | .disk .forceDetachFromPeer => some .disk
  | .net .acquireVip => some .vip
  | _ => none

/-- The operation has had its effect on the peer. -/
def suffers (node : NodeWorld) (op : Call) : NodeWorld :=
  { node with held := fun r => if takes op = some r then false else node.held r }

namespace Pair

/-- The pair after an operation of the daemon at `site`. -/
def done (x : Pair) (site : Site) (op : Call) : Pair :=
  { x with
    node := fun i => if i = site then does (x.node i) op else suffers (x.node i) op
    request :=
      match op with
      | .host (.sendRequest request) => some request
      | _ => x.request }

/-- The pair after some operations of the daemon at `site`. -/
def after (x : Pair) (site : Site) (ops : List Call) : Pair :=
  ops.foldl (fun x op => x.done site op) x

theorem node_done_self (x : Pair) (site : Site) (op : Call) :
    (x.done site op).node site = does (x.node site) op := if_pos rfl

theorem node_done_other (x : Pair) (site : Site) (op : Call) :
    (x.done site op).node site.other = suffers (x.node site.other) op := if_neg site.other_ne

theorem after_cons (x : Pair) (site : Site) (op : Call) (ops : List Call) :
    x.after site (op :: ops) = (x.done site op).after site ops := rfl

/-- The node of the daemon goes through its operations. -/
theorem node_after_self (x : Pair) (site : Site) (ops : List Call) :
    (x.after site ops).node site = ops.foldl does (x.node site) := by
  induction ops generalizing x with
  | nil => rfl
  | cons op ops ih =>
      rw [after_cons, ih, List.foldl_cons, node_done_self]

/-- And the other one suffers them. -/
theorem node_after_other (x : Pair) (site : Site) (ops : List Call) :
    (x.after site ops).node site.other = ops.foldl suffers (x.node site.other) := by
  induction ops generalizing x with
  | nil => rfl
  | cons op ops ih =>
      rw [after_cons, ih, List.foldl_cons, node_done_other]

@[simp] theorem up_after (x : Pair) (site : Site) (ops : List Call) :
    (x.after site ops).up = x.up := by
  induction ops generalizing x with
  | nil => rfl
  | cons op ops ih => exact ih (x.done site op)

/-- The instance that has the disk. -/
def holder (cfg : Site → Config) (x : Pair) : Option String :=
  if (x.node .primary).held .disk then some (cfg .primary).cluster.nodeName
  else if (x.node .standby).held .disk then some (cfg .standby).cluster.nodeName
  else none

/-- The answers of what is outside of the daemon: a machine that runs accepts connections on its
peer port, and a switchover that is requested with its token. -/
def PeerAnswers (cfg : Site → Config) (x : Pair) (site : Site) :
    (call : HostCall) → Except Exc call.Ret → Prop
  | .createConnection _ port _, answer =>
      if x.up site.other then port = (cfg site).cluster.peerPort → answer = .ok ()
      else ∃ exc, answer = .error exc ∧ exc.isOSError = true
  | .sendRequest _, answer => x.up site.other = true → answer = .ok ()
  | .recvReply, answer => x.up site.other = true →
      x.request = some (SwitchoverEngine.peerRequest (cfg site.other)
        SwitchoverEngine.cmdSwitchoverRequest) →
      ∃ reply, answer = .ok reply ∧ SwitchoverEngine.jsonGet reply.value "cmd" =
        .ok (some (.str SwitchoverEngine.cmdSwitchoverAccept))
  | .sleep _, answer => answer = .ok ()
  | _, _ => True

/-- The answers to the operations of the daemon at `site`. -/
def Answers (cfg : Site → Config) (x : Pair) (site : Site) :
    (op : Call) → Except Exc op.Ret → Prop
  | .disk .currentRwHolder, answer => answer = .ok (x.holder cfg)
  | .disk (.getInstanceStatus ..), answer => answer = .ok (x.status site.other)
  | .host call, answer => (x.node site).daemon.Answers call answer ∧
      x.PeerAnswers cfg site call answer
  | _, answer => ∃ value, answer = .ok value

/-- What has to hold where an operation is performed: a disk is attached to one instance at a
time, the filesystem is on the disk and the database on the filesystem, and a lock is free. -/
def Ready (cfg : Site → Config) (x : Pair) (site : Site) : Call → Prop
  | .disk .attachDiskRw => (x.node site.other).held .disk = false
  | .disk .mountDisk => (x.node site).held .disk = true
  | .disk .startPostgres => (x.node site).held .filesystem = true
  | .disk (.getInstanceStatus name zone) =>
      name = (cfg site).cluster.peerNode ∧ zone = (cfg site).peerZone
  | .host (.run command) => ∃ verb service, command = .systemctl verb service
  | .host (.acquireFailoverLock _) => (x.node site).daemon.failoverLocked = false
  | _ => True

end Pair

/-- Two readings of the clock in a row are closer to each other than any timeout. -/
def patience (cfg : Config) : Int := min 30000 (1000 * cfg.gcp.apiTimeout)

/-- What a reading of the clock shows. -/
def Timely (cfg : Config) (now : Int) (event : Event Call.Ret Exc) (now' : Int) : Prop :=
  match event with
  | ⟨.host .monotonic, answer⟩ => answer = .ok now' ∧ now' < now + patience cfg
  | _ => True

/-- The operations of the daemon at `site`. -/
def service (cfg : Site → Config) (site : Site) : Behaviour Call.Ret Exc Pair where
  ready x op := x.Ready cfg site op
  answers x op answer := x.Answers cfg site op answer
  done x op := x.done site op
  timely := Timely (cfg site)

abbrev serving (cfg : Site → Config) (site : Site) : Transformer Call.Ret Exc (Moment Pair) :=
  (service cfg site).transformer

theorem serving_monotone {site : Site} : (serving cfg site).Monotone :=
  Behaviour.transformer_monotone

abbrev Leaves {α : Type} (cfg : Site → Config) (site : Site) (x : Pair) (program : Mgr α)
    (x' : Pair) : Prop := (service cfg site).Leaves x program x'

abbrev Gives {α : Type} (cfg : Site → Config) (site : Site) (x : Pair) (program : Mgr α) (value : α)
    (x' : Pair) : Prop := (service cfg site).Gives x program value x'

/-! ## Operations that change nothing -/

section Quiet

variable {site : Site} {x : Pair} {α : Type}

/-- The operations that change nothing of the pair. -/
def Quiet : Call → Prop
  | .disk .currentRwHolder | .disk (.getInstanceStatus ..) => True
  | .host (.setRole _) | .host (.setHealth _) | .host (.setPgState _) | .host (.setDiskState _)
  | .host (.setAttempts _) | .host (.setLastAttemptTs _) | .host (.setPeerInstanceStatus _)
  | .host (.setSwitchoverActive _) | .host (.acquireFailoverLock _) | .host .releaseFailoverLock
  | .host (.setLastDemotionTs _) | .host (.killMountUsers _) | .host (.sendRequest _) => False
  | .host _ => True
  | _ => False

theorem does_of_quiet {op : Call} (h : Quiet op) (node : NodeWorld) : does node op = node := by
  have hpassive : op.passive := by
    cases op with
    | net call => exact h.elim
    | disk call => cases call <;> first | exact h.elim | trivial
    | host call => cases call <;> first | exact h.elim | trivial
  have hheld : op.done node.held = node.held := Call.done_of_passive hpassive node.held
  cases op with
  | host call =>
      have hafter : node.daemon.after call = node.daemon := by
        cases call <;> first | exact h.elim | rfl
      show NodeWorld.mk (node.daemon.after call) _ = node
      rw [hafter, hheld]
  | _ => exact congrArg (NodeWorld.mk node.daemon) hheld

theorem takes_of_quiet {op : Call} (h : Quiet op) : takes op = none := by
  cases op with
  | net call => exact h.elim
  | disk call => cases call <;> first | exact h.elim | rfl
  | host call => rfl

theorem done_of_quiet {op : Call} (h : Quiet op) : x.done site op = x := by
  have hnode : (x.done site op).node = x.node := by
    funext i
    simp only [Pair.done, does_of_quiet h, suffers, takes_of_quiet h, reduceCtorEq,
      if_false, ite_self]
  have hrequest : (x.done site op).request = x.request := by
    cases op with
    | host call => cases call <;> first | exact h.elim | rfl
    | _ => rfl
  show Pair.mk (x.done site op).node x.up x.status (x.done site op).request = x
  rw [hnode, hrequest]

theorem same_of_step {op : Call} (hquiet : Quiet op) {s s' : Moment Pair} (hs : Is x s)
    {answer : Except Exc op.Ret} (hstep : (service cfg site).Step s ⟨op, answer⟩ s') : Is x s' := by
  have hdone : s'.state = s.state.done site op := hstep.done
  rw [Is, hdone, show s.state = x from hs, done_of_quiet hquiet]

theorem gives_quiet {op : Call} {value : op.Ret} (hquiet : Quiet op) (hready : x.Ready cfg site op)
    (hanswer : ∀ answer, x.Answers cfg site op answer → answer = .ok value) :
    Gives cfg site x (.perform op) value x := by
  have hdone : Gives cfg site x (.perform op) value (x.done site op) :=
    Behaviour.gives_perform hready hanswer
  rwa [done_of_quiet hquiet] at hdone

theorem leaves_quiet {op : Call} (hquiet : Quiet op) (hready : x.Ready cfg site op)
    (hanswer : ∀ answer, x.Answers cfg site op answer → ∃ value, answer = .ok value) :
    Leaves cfg site x (.perform op) x := by
  have hdone : Leaves cfg site x (.perform op) (x.done site op) :=
    Behaviour.leaves_perform hready hanswer
  rwa [done_of_quiet hquiet] at hdone

/-- Quiet operations whose failures are only noted. -/
theorem attempt_quiet {program : Mgr α} (hbounded : program.Bounded)
    (hcalls : program.Calls fun op => Quiet op ∧ x.Ready cfg site op) :
    Leaves cfg site x program.attempt x := by
  refine attempt_keeps (P := (· = x)) hbounded (hcalls.mono fun op hop y hy => ?_)
  subst hy
  exact ⟨hop.2, done_of_quiet hop.1⟩

end Quiet

/-! ## What all engines use -/

section Common

variable {site : Site} {x x' : Pair} {α : Type}

theorem emit_leaves (eventType : HaEventType) (message : String) :
    Leaves cfg site x (emit (cfg site) eventType message) x := by
  intro s hs
  rw [emit, Prog.wp_except, Prog.wp_perform]
  refine ⟨trivial, fun answer s' hstep => ?_⟩
  have hquiet :
      Quiet (.host (.putEvent ⟨eventType, (cfg site).cluster.nodeName, message⟩)) := trivial
  have hsame : Is x s' := same_of_step hquiet hs hstep
  cases answer with
  | ok value => exact hsame
  | error exc =>
      have hfull : exc.cls = .queueFull := hstep.answers.1 exc rfl
      simp only [Prog.answered_error, Prog.handled_raised, hfull, if_true]
      exact hsame

theorem mark_leaves (mark : Mark) : Leaves cfg site x (Mgr.host (.mark mark)) x :=
  leaves_quiet trivial trivial fun _ h => ⟨_, h.1⟩

theorem inSequence_returns {sequence : Sequence} {body : Mgr α} {P : α → Pair → Prop}
    (h : Prog.Returns (serving cfg site) (Is x) body fun value s => P value s.state) :
    Prog.Returns (serving cfg site) (Is x) (inSequence sequence body) fun value s =>
      P value s.state := by
  refine (mark_leaves _).bind fun _ => h.ensuring serving_monotone fun value => ?_
  exact keeps_of_leaves fun x => mark_leaves _

theorem inSequence_gives {sequence : Sequence} {body : Mgr α} {value : α}
    (h : Gives cfg site x body value x') : Gives cfg site x (inSequence sequence body) value x' :=
  inSequence_returns (P := fun result y => result = value ∧ y = x') h

theorem isPrimary_gives {value : Bool} (h : ((x.node site).daemon.node.role == .primary) = value) :
    Gives cfg site x isPrimary value x := by
  refine Gives.bind (gives_quiet trivial trivial fun _ hanswer => hanswer.1) ?_
  rw [h]
  exact gives_pure value

theorem isStandby_gives {value : Bool} (h : ((x.node site).daemon.node.role == .standby) = value) :
    Gives cfg site x isStandby value x := by
  refine Gives.bind (gives_quiet trivial trivial fun _ hanswer => hanswer.1) ?_
  rw [h]
  exact gives_pure value

/-- A command of the EFM service, whatever comes of it. -/
theorem systemctl_leaves (verb : List String) (service : String) :
    Leaves cfg site x (Mgr.host (.run (.systemctl verb service))).attempt x :=
  attempt_quiet (Prog.bounded_perform _) (.perform ⟨trivial, verb, service, rfl⟩)

theorem efmStart_leaves : Leaves cfg site x (PgHaDaemon.efmStart (cfg site)) x := by
  unfold PgHaDaemon.efmStart
  split
  · exact (systemctl_leaves _ _).bind fun _ => leaves_pure ()
  · exact leaves_pure ()

theorem efmStop_leaves : Leaves cfg site x (PgHaDaemon.efmStop (cfg site)) x := by
  unfold PgHaDaemon.efmStop
  split
  · refine (systemctl_leaves _ _).bind fun _ => Leaves.bind ?_ fun _ => leaves_pure ()
    refine attempt_quiet ?_ ?_
    · exact .bind (Prog.bounded_perform _) fun result =>
        .ite (.bind (Prog.bounded_perform _) fun _ => trivial) trivial
    · refine .perform_bind ⟨trivial, _, _, rfl⟩ fun result => .ite ?_ trivial
      exact .perform_bind ⟨trivial, _, _, rfl⟩ fun _ => trivial
  · exact leaves_pure ()

/-- The second of two looks at the clock is before the deadline that the first one has set. -/
theorem twice_returns {timeout : Int} (htimeout : patience (cfg site) ≤ timeout)
    {next : Int → Int → Mgr α} {Q : α → Moment Pair → Prop}
    (h : ∀ first second, second < first + timeout →
      Prog.Returns (serving cfg site) (Is x) (next first second) Q) :
    Prog.Returns (serving cfg site) (Is x)
      ((Mgr.host .monotonic).bind fun first => (Mgr.host .monotonic).bind (next first)) Q := by
  have hquiet : Quiet (.host .monotonic) := trivial
  refine Behaviour.twice_returns (b := service cfg site)
    (fun (value : (Call.host .monotonic).Ret) => value) trivial (done_of_quiet hquiet) ?_ htimeout h
  rintro now answer now' ⟨rfl, hlate⟩
  exact ⟨now', rfl, rfl, hlate⟩

/-- A field of the daemon is set. -/
theorem set_leaves {call : HostCall} (hready : x.Ready cfg site (.host call))
    (hanswer : ∀ (s : DaemonState) answer, s.Answers call answer → ∃ value, answer = .ok value) :
    Leaves cfg site x (Mgr.host call) (x.done site (.host call)) :=
  leaves_perform hready fun answer h => hanswer _ answer h.1

theorem setRole_leaves (role : NodeRole) : Leaves cfg site x (Mgr.host (.setRole role))
    (x.done site (.host (.setRole role))) := set_leaves trivial fun _ _ h => ⟨_, h⟩

theorem setHealth_leaves (health : NodeHealth) : Leaves cfg site x (Mgr.host (.setHealth health))
    (x.done site (.host (.setHealth health))) := set_leaves trivial fun _ _ h => ⟨_, h⟩

theorem setPgState_leaves (pgState : PgState) : Leaves cfg site x (Mgr.host (.setPgState pgState))
    (x.done site (.host (.setPgState pgState))) := set_leaves trivial fun _ _ h => ⟨_, h⟩

theorem setDiskState_leaves (diskState : DiskState) :
    Leaves cfg site x (Mgr.host (.setDiskState diskState))
      (x.done site (.host (.setDiskState diskState))) := set_leaves trivial fun _ _ h => ⟨_, h⟩

/-- An operation of a manager. -/
theorem disk_leaves {call : DiskCall} (hready : x.Ready cfg site (.disk call))
    (hanswer : ∀ answer, x.Answers cfg site (.disk call) answer → ∃ value, answer = .ok value) :
    Leaves cfg site x (Mgr.disk call) (x.done site (.disk call)) := leaves_perform hready hanswer

theorem stopPostgres_leaves (mode : StopMode) : Leaves cfg site x (Mgr.disk (.stopPostgres mode))
    (x.done site (.disk (.stopPostgres mode))) := disk_leaves trivial fun _ h => h

theorem unmountDisk_leaves : Leaves cfg site x (Mgr.disk .unmountDisk)
    (x.done site (.disk .unmountDisk)) := disk_leaves trivial fun _ h => h

theorem detachDisk_leaves : Leaves cfg site x (Mgr.disk .detachDisk)
    (x.done site (.disk .detachDisk)) := disk_leaves trivial fun _ h => h

theorem net_leaves (call : NetCall) :
    Leaves cfg site x (Mgr.net call) (x.done site (.net call)) :=
      leaves_perform trivial fun _ h => h

end Common

/-! ## The side of the primary -/

section Primary

variable {site : Site} {x x' : Pair}

theorem connect_gives (hup : x.up site.other = true) (timeout : Int) : Gives cfg site x
    (Mgr.host (.createConnection (cfg site).cluster.peerIp (cfg site).cluster.peerPort timeout)) ()
    x := by
  refine gives_quiet trivial trivial fun answer hanswer => ?_
  simpa [Pair.PeerAnswers, hup] using hanswer.2

theorem preCheck_leaves (hbound : 0 < (cfg site).loopBound) (hup : x.up site.other = true) :
    Leaves cfg site x (SwitchoverEngine.stepPreCheck (cfg site)) x := by
  obtain ⟨bound, hloop⟩ : ∃ bound, (cfg site).loopBound = bound + 1 :=
    ⟨(cfg site).loopBound - 1, by omega⟩
  have hpatience : patience (cfg site) ≤ SwitchoverEngine.mgmtTimeoutMillis := Int.min_le_left _ _
  unfold SwitchoverEngine.stepPreCheck
  rw [hloop]
  refine twice_returns hpatience fun first second hsecond => ?_
  rw [if_pos hsecond]
  refine Prog.Returns.attempt_bind serving_monotone (connect_gives hup 3000) fun _ => ?_
  exact .pure fun _ hs => hs.2

/-- A step of the engine that returns is followed by the next one. -/
theorem runPrimarySteps_gives {name : StepName} {step : Mgr Unit}
    {rest : List (StepName × Mgr Unit)} {value : Bool} {x'' : Pair}
    (hstep : Leaves cfg site x step x')
    (hrest : Gives cfg site x' (SwitchoverEngine.runPrimarySteps (cfg site) rest) value x'') :
    Gives cfg site x
      (SwitchoverEngine.runPrimarySteps (cfg site) ((name, step) :: rest)) value x'' :=
  (mark_leaves _).bind fun _ => Prog.Returns.attempt_bind serving_monotone hstep fun _ => hrest

/-- The operations that a switchover of the primary leaves behind. -/
def handOver (cfg : Config) : List Call :=
  [.net .releaseVip, .disk (.stopPostgres .fast), .host (.setPgState .stopped), .disk .unmountDisk,
    .disk .detachDisk, .host (.setDiskState .detached),
    .host (.sendRequest (SwitchoverEngine.peerRequest cfg SwitchoverEngine.cmdSwitchoverRequest)),
    .host (.setRole .standby), .host (.setHealth .healthy)]

/-- The peer accepts a switchover that it has been asked for. -/
theorem recvReply_returns (hup : x.up site.other = true)
    (hrequest : x.request = some (SwitchoverEngine.peerRequest (cfg site.other)
      SwitchoverEngine.cmdSwitchoverRequest)) :
    Prog.Returns (serving cfg site) (Is x) (Mgr.host .recvReply) fun reply s =>
      SwitchoverEngine.jsonGet reply.value "cmd" =
        .ok (some (.str SwitchoverEngine.cmdSwitchoverAccept)) ∧ Is x s := by
  refine .perform (fun _ _ => trivial) fun s answer s' hs hstep => ?_
  have hpair : s.state = x := hs
  have hquiet : Quiet (.host .recvReply) := trivial
  have hanswer := hstep.answers.2
  rw [hpair] at hanswer
  obtain ⟨reply, rfl, hcmd⟩ := hanswer hup hrequest
  exact ⟨reply, rfl, hcmd, same_of_step hquiet hs hstep⟩

theorem signalPeer_leaves (hup : x.up site.other = true)
    (htoken : (cfg site.other).cluster.peerAuthToken = (cfg site).cluster.peerAuthToken) :
    Leaves cfg site x (SwitchoverEngine.stepSignalPeer (cfg site))
      (x.done site (.host (.sendRequest (SwitchoverEngine.peerRequest (cfg site)
        SwitchoverEngine.cmdSwitchoverRequest)))) := by
  have hsend : Leaves cfg site x (Mgr.host (.sendRequest (SwitchoverEngine.peerRequest (cfg site)
      SwitchoverEngine.cmdSwitchoverRequest))) _ :=
    leaves_perform trivial fun answer hanswer => ⟨(), hanswer.2 hup⟩
  refine (connect_gives hup _).bind (hsend.bind fun _ => ?_)
  -- the reply is that of a peer that has read the request
  refine Prog.Returns.bind serving_monotone (recvReply_returns ?_ ?_) fun reply s hs => ?_
  · exact hup
  · show some (SwitchoverEngine.peerRequest (cfg site) _) = some (SwitchoverEngine.peerRequest _ _)
    rw [SwitchoverEngine.peerRequest, SwitchoverEngine.peerRequest, htoken]
  · obtain ⟨hcmd, hs⟩ := hs
    rw [hcmd]
    exact hs

/-- The steps of the primary, from a state in which its peer can be reached. -/
theorem primarySteps_gives (hbound : 0 < (cfg site).loopBound) (hup : x.up site.other = true)
    (htoken : (cfg site.other).cluster.peerAuthToken = (cfg site).cluster.peerAuthToken) :
    Gives cfg site x (SwitchoverEngine.runPrimarySteps (cfg site)
      (SwitchoverEngine.primarySteps (cfg site))) true
      (x.after site (handOver (cfg site))) := by
  have hemit {program : Mgr Unit} {x x' : Pair} {eventType : HaEventType} {message : String}
      (h : Leaves cfg site x program x') :
      Leaves cfg site x (program.bind fun _ => emit (cfg site) eventType message) x' :=
    h.bind fun _ => emit_leaves _ _
  refine runPrimarySteps_gives (preCheck_leaves hbound hup) ?_
  refine runPrimarySteps_gives (hemit (net_leaves .releaseVip)) ?_
  refine runPrimarySteps_gives ((stopPostgres_leaves _).bind fun _ => setPgState_leaves _) ?_
  refine runPrimarySteps_gives unmountDisk_leaves ?_
  refine runPrimarySteps_gives (detachDisk_leaves.bind fun _ => hemit (setDiskState_leaves _)) ?_
  refine runPrimarySteps_gives (signalPeer_leaves hup htoken) ?_
  refine runPrimarySteps_gives ((setRole_leaves _).bind fun _ => hemit (setHealth_leaves _)) ?_
  exact gives_pure true

theorem executeAsPrimary_gives (hbound : 0 < (cfg site).loopBound) (hup : x.up site.other = true)
    (htoken : (cfg site.other).cluster.peerAuthToken = (cfg site).cluster.peerAuthToken)
    (hrole : (x.node site).daemon.node.role = .primary) :
    Gives cfg site x (SwitchoverEngine.executeAsPrimary (cfg site)) true
      (x.after site (handOver (cfg site))) := by
  have hprimary : Gives cfg site x isPrimary true x := isPrimary_gives (by rw [hrole]; rfl)
  refine hprimary.bind (inSequence_gives ?_)
  refine (emit_leaves _ _).bind fun _ => (primarySteps_gives hbound hup htoken).bind ?_
  exact (emit_leaves _ _).bind fun _ => gives_pure true

end Primary

/-! ## The side of the standby -/

section Standby

variable {site : Site} {x x' : Pair}

/-- The operations that a promotion leaves behind. -/
def takeOver : List Call :=
  [.disk .attachDiskRw, .host (.setDiskState .attachedRw), .disk .mountDisk, .disk .startPostgres,
    .host (.setPgState .runningPrimary), .net .acquireVip, .host (.setRole .primary),
    .host (.setHealth .healthy)]

theorem runStandbySteps_gives {completed : List StepName} {name : StepName} {step : Mgr Unit}
    {rest : List (StepName × Mgr Unit)} {value : Bool} {x'' : Pair}
    (hstep : Leaves cfg site x step x')
    (hrest : Gives cfg site x'
      (SwitchoverEngine.runStandbySteps (cfg site) (name :: completed) rest) value x'') :
    Gives cfg site x
      (SwitchoverEngine.runStandbySteps (cfg site) completed ((name, step) :: rest)) value x'' :=
  (mark_leaves _).bind fun _ => Prog.Returns.attempt_bind serving_monotone hstep fun _ => hrest

theorem runSteps_gives {skipFence : Bool} {name : StepName} {step : Mgr Unit}
    {rest : List (StepName × Mgr Unit)} {value : Bool} {x'' : Pair}
    (hname : FailoverEngine.skipped skipFence name = false) (hstep : Leaves cfg site x step x')
    (hrest : Gives cfg site x' (FailoverEngine.runSteps (cfg site) skipFence rest) value x'') :
    Gives cfg site x (FailoverEngine.runSteps (cfg site) skipFence ((name, step) :: rest)) value
      x'' := by
  rw [FailoverEngine.runSteps, hname, if_neg Bool.false_ne_true]
  exact (mark_leaves _).bind fun _ =>
    Prog.Returns.attempt_bind serving_monotone hstep fun _ => hrest

theorem attachDisk_leaves (h : (x.node site.other).held .disk = false) :
    Leaves cfg site x (Mgr.disk .attachDiskRw) (x.done site (.disk .attachDiskRw)) :=
  disk_leaves h fun _ h => h

theorem mountDisk_leaves (h : (x.node site).held .disk = true) :
    Leaves cfg site x (Mgr.disk .mountDisk) (x.done site (.disk .mountDisk)) :=
  disk_leaves h fun _ h => h

theorem startPostgres_leaves (h : (x.node site).held .filesystem = true) (left : ℕ) :
    Leaves cfg site x (startPostgresFrom (cfg site) (left + 1))
      ((x.done site (.disk .startPostgres)).done site (.host (.setPgState .runningPrimary))) := by
  have hstart : Leaves cfg site x (Mgr.disk .startPostgres) (x.done site (.disk .startPostgres)) :=
    disk_leaves h fun _ h => h
  exact Prog.Returns.except serving_monotone (hstart.bind fun _ => setPgState_leaves _)

theorem acquireVip_leaves (cfg : Site → Config) (site : Site) (x : Pair) :
    Leaves cfg site x (SwitchoverEngine.stepAcquireVip (cfg site))
      (x.done site (.net .acquireVip)) :=
  (net_leaves .acquireVip).bind fun _ => emit_leaves _ _

theorem promote_leaves (cfg : Site → Config) (site : Site) (x : Pair) :
    Leaves cfg site x (SwitchoverEngine.stepPromote (cfg site))
      ((x.done site (.host (.setRole .primary))).done site (.host (.setHealth .healthy))) :=
  (setRole_leaves _).bind fun _ => (setHealth_leaves _).bind fun _ => emit_leaves _ _

/-- Nobody has the disk. -/
theorem holder_eq_none (h : (x.node site).held .disk = false)
    (h' : (x.node site.other).held .disk = false) : x.holder cfg = none := by
  cases site <;> simp_all [Pair.holder, Site.other]

/-- One of the two has it. -/
theorem holder_eq_some (h : (x.node site).held .disk = true)
    (h' : (x.node site.other).held .disk = false) :
    x.holder cfg = some (cfg site).cluster.nodeName := by
  cases site <;> simp_all [Pair.holder, Site.other]

theorem standbySteps_gives (h : (x.node site).held .disk = false)
    (h' : (x.node site.other).held .disk = false) :
    Gives cfg site x (SwitchoverEngine.runStandbySteps (cfg site) []
      (SwitchoverEngine.standbySteps (cfg site))) true (x.after site takeOver) := by
  have hholder : Gives cfg site x (Mgr.disk .currentRwHolder) none x :=
    gives_quiet trivial trivial fun _ hanswer => by rw [hanswer, holder_eq_none h h']
  have hattach : Leaves cfg site x (SwitchoverEngine.stepAttachDisk (cfg site))
      ((x.done site (.disk .attachDiskRw)).done site (.host (.setDiskState .attachedRw))) := by
    refine hholder.bind ?_
    rw [if_neg (by simp)]
    exact (attachDisk_leaves h').bind fun _ => setDiskState_leaves _
  refine runStandbySteps_gives hattach ?_
  refine runStandbySteps_gives (mountDisk_leaves ?_) ?_
  · simp [Pair.done, does, Call.done, Call.acquires, Call.releases]
  refine runStandbySteps_gives (startPostgres_leaves ?_ 2) ?_
  · simp [Pair.done, does, Call.done, Call.acquires]
  refine runStandbySteps_gives (acquireVip_leaves cfg site _) ?_
  exact runStandbySteps_gives (promote_leaves cfg site _) (gives_pure true)

theorem executeAsStandby_gives (hrole : (x.node site).daemon.node.role = .standby)
    (h : (x.node site).held .disk = false) (h' : (x.node site.other).held .disk = false) :
    Gives cfg site x (SwitchoverEngine.executeAsStandby (cfg site)) true
      (x.after site takeOver) := by
  have hstandby : Gives cfg site x isStandby true x := isStandby_gives (by rw [hrole]; rfl)
  refine hstandby.bind (inSequence_gives ?_)
  refine (standbySteps_gives h h').bind ?_
  exact (emit_leaves _ _).bind fun _ => gives_pure true

/-! ### A failover -/

/-- The steps of a failover from the one that attaches the disk. -/
theorem promotionSteps_gives {skipFence : Bool} (h' : (x.node site.other).held .disk = false) :
    Gives cfg site x (FailoverEngine.runSteps (cfg site) skipFence
      [(.attach, FailoverEngine.stepAttachDisk (cfg site)), (.mount, FailoverEngine.stepMountDisk),
        (.pgStart, FailoverEngine.stepStartPostgres (cfg site)),
        (.vip, FailoverEngine.stepAcquireVip (cfg site)),
        (.promote, FailoverEngine.stepPromote (cfg site))]) true (x.after site takeOver) := by
  have hname {name : StepName} (h : name ≠ .verify ∧ name ≠ .fence ∧ name ≠ .wait) :
      FailoverEngine.skipped skipFence name = false := by
    simp [FailoverEngine.skipped, h.1, h.2.1, h.2.2]
  have hattach : Leaves cfg site x (FailoverEngine.stepAttachDisk (cfg site))
      ((x.done site (.disk .attachDiskRw)).done site (.host (.setDiskState .attachedRw))) := by
    refine Prog.Returns.except serving_monotone ?_
    exact (attachDisk_leaves h').bind fun _ => (setDiskState_leaves _).bind fun _ => emit_leaves _ _
  refine runSteps_gives (hname (by decide)) hattach ?_
  refine runSteps_gives (hname (by decide)) (mountDisk_leaves ?_) ?_
  · simp [Pair.done, does, Call.done, Call.acquires, Call.releases]
  refine runSteps_gives (hname (by decide)) (startPostgres_leaves ?_ 2) ?_
  · simp [Pair.done, does, Call.done, Call.acquires]
  refine runSteps_gives (hname (by decide)) (acquireVip_leaves cfg site _) ?_
  exact runSteps_gives (hname (by decide)) (promote_leaves cfg site _) (gives_pure true)

/-- The operations of the steps before. -/
def takeAway (status : String) : List Call :=
  [.host (.setPeerInstanceStatus status), .disk .forceDetachFromPeer]

/-- Nothing answers on a machine that is down. -/
theorem unreachable_returns (hup : x.up site.other = false) :
    Gives cfg site x (FailoverEngine.isPeerPgReachable (cfg site)) false x := by
  intro s hs
  rw [FailoverEngine.isPeerPgReachable, Prog.bind_eq, Prog.wp_bind, Prog.wp_attempt,
    Prog.wp_perform]
  refine ⟨trivial, fun answer s' hstep => ?_⟩
  have hpair : s.state = x := hs
  have hquiet : Quiet (.host (.createConnection (cfg site).cluster.peerIp (cfg site).postgresql.port
      2000)) := trivial
  have hsame : Is x s' := same_of_step hquiet hs hstep
  have hanswer := hstep.answers.2
  rw [hpair] at hanswer
  simp only [Pair.PeerAnswers, hup, Bool.false_eq_true, if_false] at hanswer
  obtain ⟨exc, rfl, hexc⟩ := hanswer
  simp only [Prog.answered_error, Prog.captured_raised, Prog.andThen_returned, hexc, if_true]
  exact ⟨rfl, hsame⟩

/-- The machine of the peer is down, or hangs, and the API can tell. -/
theorem verify_leaves (hup : x.up site.other = false) (hstatus : x.status site.other ≠ "UNKNOWN") :
    Leaves cfg site x (FailoverEngine.stepVerifyPeerState (cfg site))
      (x.done site (.host (.setPeerInstanceStatus (x.status site.other)))) := by
  have hask : Gives cfg site x (Mgr.disk (.getInstanceStatus (cfg site).cluster.peerNode
      (cfg site).peerZone)) (x.status site.other) x :=
    gives_quiet trivial ⟨rfl, rfl⟩ fun _ h => h
  have hset : Leaves cfg site x (Mgr.host (.setPeerInstanceStatus (x.status site.other)))
      (x.done site (.host (.setPeerInstanceStatus (x.status site.other)))) :=
    set_leaves trivial fun _ _ h => ⟨_, h⟩
  refine hask.bind (hset.bind fun _ => ?_)
  rw [if_neg hstatus]
  split
  · exact leaves_pure ()
  · refine Prog.Returns.bind serving_monotone (unreachable_returns hup) fun reachable s hs => ?_
    obtain ⟨rfl, hs⟩ := hs
    exact hs

theorem failoverSteps_gives (hup : x.up site.other = false)
    (hstatus : x.status site.other ≠ "UNKNOWN") :
    Gives cfg site x
      (FailoverEngine.runSteps (cfg site) false (FailoverEngine.steps (cfg site))) true
      ((x.after site (takeAway (x.status site.other))).after site takeOver) := by
  have hread (x : Pair) : Leaves cfg site x (Mgr.host .peerInstanceStatus) x :=
    leaves_quiet trivial trivial fun _ h => ⟨_, h.1⟩
  have hfence (x : Pair) : Leaves cfg site x (FailoverEngine.stepFence (cfg site))
      (x.done site (.disk .forceDetachFromPeer)) := by
    have hdetach : Leaves cfg site x (Mgr.disk .forceDetachFromPeer)
        (x.done site (.disk .forceDetachFromPeer)) := disk_leaves trivial fun _ h => h
    exact (hread x).bind fun _ => hdetach.bind fun _ => emit_leaves _ _
  have hwait (x : Pair) : Leaves cfg site x (FailoverEngine.stepFenceWait (cfg site)) x :=
    leaves_quiet trivial trivial fun _ h => ⟨_, h.2⟩
  have hfree :
      ((x.after site (takeAway (x.status site.other))).node site.other).held .disk = false := by
    simp [Pair.node_after_other, takeAway, suffers, takes]
  refine runSteps_gives rfl (verify_leaves hup hstatus) ?_
  refine runSteps_gives rfl (hfence _) (runSteps_gives rfl (hwait _) ?_)
  exact promotionSteps_gives hfree

/-- A failover whose steps succeed: what the loop over them leaves behind, it leaves behind, but
for the count of its attempts. -/
theorem runFailover_returns {skipFence : Bool} {P : Pair → Prop}
    (h : ∀ attempts ts, ∃ x',
      Gives cfg site
          ((x.done site (.host (.setAttempts attempts))).done site (.host (.setLastAttemptTs ts)))
          (FailoverEngine.runSteps (cfg site) skipFence (FailoverEngine.steps (cfg site))) true x' ∧
        P (x'.done site (.host (.setAttempts 0)))) :
    Prog.Returns (serving cfg site) (Is x) (PgHaDaemon.runFailover (cfg site) skipFence)
      fun _ s => P s.state := by
  have hset (attempts : ℕ) (x : Pair) : Leaves cfg site x (Mgr.host (.setAttempts attempts))
      (x.done site (.host (.setAttempts attempts))) := set_leaves trivial fun _ _ h => ⟨_, h⟩
  have hread (x : Pair) : Leaves cfg site x (Mgr.host .attempts) x :=
    leaves_quiet trivial trivial fun _ h => ⟨_, h.1⟩
  have hclock (x : Pair) : Leaves cfg site x (Mgr.host .monotonic) x :=
    leaves_quiet trivial trivial fun _ h => h.1
  have hstamp (ts : Int) (x : Pair) : Leaves cfg site x (Mgr.host (.setLastAttemptTs ts))
      (x.done site (.host (.setLastAttemptTs ts))) := set_leaves trivial fun _ _ h => ⟨_, h⟩
  have hexecute : Prog.Returns (serving cfg site) (Is x)
      (FailoverEngine.execute (cfg site) skipFence) fun value s => value = true ∧ P s.state := by
    refine inSequence_returns (P := fun value y => value = true ∧ P y) ?_
    refine (hread x).bind fun attempts => (hset _ _).bind fun _ => (hclock _).bind fun now => ?_
    refine (hstamp _ _).bind fun _ => (hread _).bind fun _ => (emit_leaves _ _).bind fun _ => ?_
    -- the steps run after the attempt has been recorded
    obtain ⟨x', hsteps, hx'⟩ := h (attempts + 1) now
    refine hsteps.bind ((hset 0 x').bind fun _ => (emit_leaves _ _).bind fun _ => ?_)
    refine .pure fun s hs => ⟨rfl, ?_⟩
    rwa [show s.state = _ from hs]
  refine hexecute.bind serving_monotone fun value s hs => ?_
  obtain ⟨rfl, hs⟩ := hs
  exact keeps_of_leaves (fun _ => efmStart_leaves) s hs

end Standby

/-! ## Who serves -/

section Serves

variable {site : Site} {x : Pair}

/-- A node says of itself that it is well and that it has everything, or nothing, and so it is. -/
structure Stands (node : NodeWorld) (role : NodeRole) (pgState : PgState) (diskState : DiskState)
    (holds : Bool) : Prop where
  role : node.daemon.node.role = role
  health : node.daemon.node.health = .healthy
  pgState : node.daemon.node.pgState = pgState
  diskState : node.daemon.node.diskState = diskState
  held : ∀ r, node.held r = holds

abbrev IsPrimary (node : NodeWorld) : Prop := Stands node .primary .runningPrimary .attachedRw true

abbrev IsStandby (node : NodeWorld) : Prop := Stands node .standby .stopped .detached false

/-- The node has taken everything over. -/
theorem isPrimary_takeOver (node : NodeWorld) : IsPrimary (takeOver.foldl does node) := by
  refine ⟨rfl, rfl, rfl, rfl, fun r => ?_⟩
  cases r <;> simp [takeOver, does, Call.done, Call.acquires, Call.releases]

/-- The node has handed everything over. -/
theorem isStandby_handOver (cfg : Config) (node : NodeWorld) :
    IsStandby ((handOver cfg).foldl does node) := by
  refine ⟨rfl, rfl, rfl, rfl, fun r => ?_⟩
  cases r <;> simp [handOver, does, Call.done, Call.acquires, Call.releases]

/-- What a node says of itself, and what it holds. -/
def face (node : NodeWorld) : NodeState × (Resource → Bool) := (node.daemon.node, node.held)

theorem Stands.of_face {node node' : NodeWorld} {role : NodeRole} {pgState : PgState}
    {diskState : DiskState} {holds : Bool} (h : Stands node role pgState diskState holds)
    (hface : face node' = face node) : Stands node' role pgState diskState holds := by
  have hnode : node'.daemon.node = node.daemon.node := congrArg Prod.fst hface
  have hheld : node'.held = node.held := congrArg Prod.snd hface
  refine ⟨?_, ?_, ?_, ?_, ?_⟩
  · rw [hnode, h.role]
  · rw [hnode, h.health]
  · rw [hnode, h.pgState]
  · rw [hnode, h.diskState]
  · rw [hheld]
    exact h.held

/-- The operations that write down something that the node does not say. -/
def Bookkeeping : Call → Prop
  | .host (.setSwitchoverActive _) | .host (.setLastDemotionTs _) | .host (.setAttempts _)
  | .host (.setLastAttemptTs _) | .host (.setPeerInstanceStatus _) | .host (.sendRequest _) => True
  | _ => False

theorem face_done {op : Call} (h : Bookkeeping op) (i : Site) :
    face ((x.done site op).node i) = face (x.node i) := by
  cases op with
  | disk call => exact h.elim
  | net call => exact h.elim
  | host call =>
      have hpassive : (Call.host call).passive := by
        cases call <;> first | exact h.elim | trivial
      have hnode : (does (x.node i) (.host call)).daemon.node = (x.node i).daemon.node := by
        cases call <;> first | exact h.elim | rfl
      simp only [Pair.done]
      split
      · exact Prod.ext hnode (Call.done_of_passive hpassive _)
      · exact Prod.ext rfl (by simp [suffers, face, takes])

theorem forall_of_other {P : Site → Prop} (site : Site) (h : P site)
    (h' : P site.other) (i : Site) :
    P i := by
  cases site <;> cases i <;> assumption

/-- The nodes say and hold the same, and the machines are as they were. -/
structure Alike (x x' : Pair) : Prop where
  face : ∀ i, face (x'.node i) = face (x.node i)
  up : x'.up = x.up
  status : x'.status = x.status

theorem alike_done {op : Call} (h : Bookkeeping op) : Alike x (x.done site op) :=
  ⟨face_done h, rfl, rfl⟩

theorem Alike.held {x' : Pair} (h : Alike x x') (i : Site) : (x'.node i).held = (x.node i).held :=
  congrArg Prod.snd (h.face i)

/-- Nobody serves yet. -/
structure Empty (x : Pair) : Prop where
  up : ∀ i, x.up i = true
  free : ∀ i r, (x.node i).held r = false

/-- One node serves, and the other one stands by. -/
structure Serves (x : Pair) (site : Site) : Prop where
  up : ∀ i, x.up i = true
  serving : IsPrimary (x.node site)
  standby : IsStandby (x.node site.other)

/-- Both nodes stand by. -/
structure Vacant (x : Pair) : Prop where
  up : ∀ i, x.up i = true
  standby : ∀ i, IsStandby (x.node i)

/-- The node stands by, and the machine of its peer is down. -/
structure Bereft (x : Pair) (site : Site) : Prop where
  up : x.up site = true
  down : x.up site.other = false
  status : x.status site.other ≠ "UNKNOWN"
  standby : IsStandby (x.node site)
  filesystem : (x.node site.other).held .filesystem = false
  postgres : (x.node site.other).held .postgres = false

/-- The node serves on its own. -/
structure Survives (x : Pair) (site : Site) : Prop where
  up : x.up site = true
  serving : IsPrimary (x.node site)
  free : ∀ r, (x.node site.other).held r = false

/-- The database of the node that was serving has stopped. -/
structure Broken (x : Pair) (site : Site) : Prop where
  up : ∀ i, x.up i = true
  role : (x.node site).daemon.node.role = .primary
  standby : IsStandby (x.node site.other)

theorem Empty.of_alike {x' : Pair} (h : Empty x) (hsame : Alike x x') : Empty x' :=
  ⟨fun i => hsame.up ▸ h.up i, fun i r => hsame.held i ▸ h.free i r⟩

theorem Vacant.of_alike {x' : Pair} (h : Vacant x) (hsame : Alike x x') : Vacant x' :=
  ⟨fun i => hsame.up ▸ h.up i, fun i => (h.standby i).of_face (hsame.face i)⟩

theorem Serves.of_alike {x' : Pair} (h : Serves x site) (hsame : Alike x x') : Serves x' site :=
  ⟨fun i => hsame.up ▸ h.up i, h.serving.of_face (hsame.face _), h.standby.of_face (hsame.face _)⟩

theorem Survives.of_alike {x' : Pair} (h : Survives x site) (hsame : Alike x x') :
    Survives x' site :=
  ⟨hsame.up ▸ h.up, h.serving.of_face (hsame.face _), fun r => hsame.held _ ▸ h.free r⟩

theorem Bereft.of_alike {x' : Pair} (h : Bereft x site) (hsame : Alike x x') : Bereft x' site :=
  ⟨hsame.up ▸ h.up, hsame.up ▸ h.down, hsame.status ▸ h.status, h.standby.of_face (hsame.face _),
    hsame.held _ ▸ h.filesystem, hsame.held _ ▸ h.postgres⟩

theorem Broken.of_alike {x' : Pair} (h : Broken x site) (hsame : Alike x x') : Broken x' site := by
  have hnode : (x'.node site).daemon.node = (x.node site).daemon.node :=
    congrArg Prod.fst (hsame.face site)
  exact ⟨fun i => hsame.up ▸ h.up i, hnode ▸ h.role, h.standby.of_face (hsame.face _)⟩

theorem flag_leaves (active : Bool) (x : Pair) : Leaves cfg site x
    (Mgr.host (.setSwitchoverActive active)) (x.done site (.host (.setSwitchoverActive active))) :=
  set_leaves trivial fun _ _ h => ⟨_, h⟩

theorem stamp_leaves (ts : Int) (x : Pair) : Leaves cfg site x
    (Mgr.host (.setLastDemotionTs ts)) (x.done site (.host (.setLastDemotionTs ts))) :=
  set_leaves trivial fun _ _ h => ⟨_, h⟩

theorem watch_leaves (active : Bool) (x : Pair) :
    Leaves cfg site x (Mgr.host (.pgMonSetActive active)) x :=
  leaves_quiet trivial trivial fun _ h => ⟨_, h.1⟩

theorem time_leaves (x : Pair) : Leaves cfg site x (Mgr.host .time) x :=
  leaves_quiet trivial trivial fun _ h => h.1

/-- **The primary hands over.** -/
theorem runSwitchover_vacates (hbound : 0 < (cfg site).loopBound)
    (htoken : (cfg site.other).cluster.peerAuthToken = (cfg site).cluster.peerAuthToken)
    (h : Serves x site) :
    Prog.Returns (serving cfg site) (Is x) (PgHaDaemon.runSwitchover (cfg site))
      fun _ s => Vacant s.state := by
  have hflag : Serves (x.done site (.host (.setSwitchoverActive true))) site :=
    h.of_alike (alike_done trivial)
  have hexecute := executeAsPrimary_gives hbound (hflag.up site.other) htoken hflag.serving.role
  refine (flag_leaves true x).bind fun _ => (watch_leaves false _).bind fun _ => ?_
  refine efmStop_leaves.bind fun _ => ?_
  refine Prog.Returns.ensuring serving_monotone (hexecute.bind (leaves_pure ())) fun _ => ?_
  refine (time_leaves _).bind fun now => (stamp_leaves now _).bind fun _ => ?_
  refine (flag_leaves false _).returns ?_
  have hvacant : Vacant ((x.done site (.host (.setSwitchoverActive true))).after site
      (handOver (cfg site))) := by
    refine ⟨?_, forall_of_other site ?_ ?_⟩
    · rw [Pair.up_after]
      exact hflag.up
    · rw [Pair.node_after_self]
      exact isStandby_handOver _ _
    · rw [Pair.node_after_other]
      exact hflag.standby.of_face rfl
  have hstamp : Vacant (Pair.done _ site (.host (.setLastDemotionTs now))) :=
    hvacant.of_alike (alike_done trivial)
  exact hstamp.of_alike (alike_done trivial)

/-- A node that has nothing suffers nothing. -/
theorem isStandby_suffers {node : NodeWorld} (h : IsStandby node) (ops : List Call) :
    IsStandby (ops.foldl suffers node) := by
  induction ops generalizing node with
  | nil => exact h
  | cons op ops ih =>
      refine ih ⟨h.role, h.health, h.pgState, h.diskState, fun r => ?_⟩
      show (if takes op = some r then false else node.held r) = false
      rw [h.held r, ite_self]

theorem isStandby_after {ops : List Call} (h : IsStandby (x.node site.other)) :
    IsStandby ((x.after site ops).node site.other) := by
  rw [Pair.node_after_other]
  exact isStandby_suffers h ops

/-- A node that takes over serves. -/
theorem isPrimary_after : IsPrimary ((x.after site takeOver).node site) := by
  rw [Pair.node_after_self]
  exact isPrimary_takeOver _

theorem Vacant.takenOver (h : Vacant x) (site : Site) : Serves (x.after site takeOver) site where
  up i := by
    rw [Pair.up_after]
    exact h.up i
  serving := isPrimary_after
  standby := isStandby_after (h.standby _)

/-- **The standby takes over what has been handed to it.** -/
theorem runSwitchoverAsStandby_serves (h : Vacant x) :
    Prog.Returns (serving cfg site) (Is x) (PgHaDaemon.runSwitchoverAsStandby (cfg site))
      fun _ s => Serves s.state site := by
  have hexecute := @executeAsStandby_gives cfg site x (h.standby site).role
    ((h.standby site).held .disk) ((h.standby site.other).held .disk)
  refine Prog.Returns.ensuring serving_monotone (hexecute.bind efmStart_leaves) fun _ => ?_
  refine (flag_leaves false _).returns (P := (Serves · site)) ?_
  exact (h.takenOver site).of_alike (alike_done trivial)

/-- **After a crash of its peer the node takes over everything.** -/
theorem runFailover_survives (h : Bereft x site) :
    Prog.Returns (serving cfg site) (Is x) (PgHaDaemon.runFailover (cfg site) false)
      fun _ s => Survives s.state site := by
  refine runFailover_returns (P := (Survives · site)) fun attempts ts =>
    ⟨_, failoverSteps_gives h.down h.status, ?_⟩
  refine Survives.of_alike ⟨?_, isPrimary_after, fun r => ?_⟩ (alike_done trivial)
  · simp only [Pair.up_after]
    exact h.up
  · rw [Pair.node_after_other, Pair.node_after_other]
    cases r with
    | vip => simp [takeOver, takeAway, suffers, takes]
    | disk => simp [takeOver, takeAway, suffers, takes]
    | filesystem =>
        simpa [takeOver, takeAway, suffers, takes, Pair.done, Site.other_ne] using h.filesystem
    | postgres =>
        simpa [takeOver, takeAway, suffers, takes, Pair.done, Site.other_ne] using h.postgres

/-- The steps that a hand-off of the peer makes superfluous are left out. -/
theorem runSteps_skipped {name : StepName} {step : Mgr Unit} {rest : List (StepName × Mgr Unit)}
    (hname : FailoverEngine.skipped true name = true) :
    FailoverEngine.runSteps (cfg site) true ((name, step) :: rest) =
      FailoverEngine.runSteps (cfg site) true rest := by
  rw [FailoverEngine.runSteps, if_pos hname]

/-- **After a hand-off the node takes over without a fence.** -/
theorem runFailover_serves (h : Vacant x) :
    Prog.Returns (serving cfg site) (Is x) (PgHaDaemon.runFailover (cfg site) true)
      fun _ s => Serves s.state site := by
  refine runFailover_returns (P := (Serves · site)) fun attempts ts => ?_
  have hvacant : Vacant (x.done site (.host (.setAttempts attempts))) :=
    h.of_alike (alike_done trivial)
  have hstamp : Vacant ((x.done site (.host (.setAttempts attempts))).done site
      (.host (.setLastAttemptTs ts))) := hvacant.of_alike (alike_done trivial)
  refine ⟨_, ?_, (hstamp.takenOver site).of_alike (alike_done trivial)⟩
  rw [FailoverEngine.steps, runSteps_skipped rfl, runSteps_skipped rfl, runSteps_skipped rfl]
  exact promotionSteps_gives ((hstamp.standby site.other).held .disk)

/-! ### A database that stops -/

/-- The operations that a self-demotion leaves behind. -/
def demote (cfg : Config) : List Call :=
  [.net .releaseVip, .disk (.stopPostgres .immediate),
    .host (.killMountUsers cfg.gcp.diskMountPoint), .disk .unmountDisk, .disk .detachDisk,
    .host (.setRole .standby),
    .host (.setDiskState .detached), .host (.setPgState .stopped), .host (.setHealth .healthy)]

theorem isStandby_demote (cfg : Config) (node : NodeWorld) :
    IsStandby ((demote cfg).foldl does node) := by
  refine ⟨rfl, rfl, rfl, rfl, fun r => ?_⟩
  cases r <;> simp [demote, does, Call.done, Call.acquires, Call.releases]

theorem bestEffort_leaves {action : Mgr Unit} {rest : List (Mgr Unit)} {x' x'' : Pair}
    (hfirst : Leaves cfg site x action.attempt x')
    (hrest : Leaves cfg site x' (PgHaDaemon.bestEffort rest) x'') :
    Leaves cfg site x (PgHaDaemon.bestEffort (action :: rest)) x'' := hfirst.bind fun _ => hrest

/-- The message to the peer changes nothing, whatever comes of it. -/
theorem handoff_keeps : Prog.Returns (serving cfg site) (fun s => Vacant s.state)
    (PgHaDaemon.sendPgFailHandoff (cfg site)).attempt fun _ s => Vacant s.state := by
  refine attempt_keeps ?_ ?_
  · refine .bind ?_ fun resp => .bind (Prog.bounded_ofExcept _) fun _ => trivial
    exact .bind (Prog.bounded_perform _) fun _ => .bind (Prog.bounded_perform _) fun _ =>
      Prog.bounded_perform _
  · have hquiet {op : Call} (h : Quiet op) (hready : ∀ x, (service cfg site).ready x op) (x : Pair)
        (hx : Vacant x) : (service cfg site).ready x op ∧
          Vacant ((service cfg site).done x op) := by
      refine ⟨hready x, ?_⟩
      show Vacant (x.done site op)
      rwa [done_of_quiet h]
    refine .bind ?_ fun resp => .bind (Prog.calls_ofExcept _) fun _ => trivial
    refine .perform_bind (hquiet trivial fun _ => trivial) fun _ => ?_
    refine .perform_bind (fun x hx => ⟨trivial, hx.of_alike (alike_done trivial)⟩) fun _ => ?_
    exact .perform (hquiet trivial fun _ => trivial)

/-- **A node whose database has stopped hands everything over.** -/
theorem selfDemote_vacates (h : Broken x site) :
    Prog.Returns (serving cfg site) (Is x) (PgHaDaemon.selfDemoteAfterPgFailure (cfg site))
      fun _ s => Vacant s.state := by
  have hprimary : Gives cfg site x isPrimary true x := isPrimary_gives (by rw [h.role]; rfl)
  -- the five releases; none of them fails here
  have hactions : Leaves cfg site x
      (PgHaDaemon.bestEffort (PgHaDaemon.demotionActions (cfg site)))
      (x.after site ((demote (cfg site)).take 5)) := by
    refine bestEffort_leaves (attempt_leaves trivial)
      (bestEffort_leaves (attempt_leaves trivial) ?_)
    refine bestEffort_leaves (attempt_leaves trivial)
      (bestEffort_leaves (attempt_leaves trivial) ?_)
    exact bestEffort_leaves (attempt_leaves trivial) (leaves_pure ())
  refine hprimary.bind (inSequence_returns (P := fun _ y => Vacant y) ?_)
  refine efmStop_leaves.bind fun _ => hactions.bind fun _ => (setRole_leaves _).bind fun _ => ?_
  refine (setDiskState_leaves _).bind fun _ => (setPgState_leaves _).bind fun _ => ?_
  refine (setHealth_leaves _).bind fun _ => (watch_leaves false _).bind fun _ => ?_
  refine (time_leaves _).bind fun now => (stamp_leaves now _).bind fun _ => ?_
  have hvacant : Vacant (x.after site (demote (cfg site))) := by
    refine ⟨?_, forall_of_other site ?_ (isStandby_after h.standby)⟩
    · rw [Pair.up_after]
      exact h.up
    · rw [Pair.node_after_self]
      exact isStandby_demote _ _
  -- the signal changes nothing that matters, whatever the peer makes of it
  refine Prog.Returns.bind serving_monotone (R := fun _ s => Vacant s.state) ?_ fun _ =>
    .pure fun _ => id
  refine handoff_keeps.conseq serving_monotone (fun s hs => ?_) fun _ _ => id
  rw [show s.state = _ from hs]
  exact hvacant.of_alike (alike_done trivial)

/-! ### A daemon that starts -/

/-- The operations of a node that becomes a standby. -/
def standBy : List Call :=
  [.host (.setRole .standby), .host (.setDiskState .detached), .host (.setPgState .stopped),
    .host (.setHealth .healthy)]

/-- The operations of a node that wins the disk. -/
def assume : List Call :=
  [.disk .attachDiskRw, .disk .mountDisk, .disk .startPostgres, .net .acquireVip,
    .host (.setRole .primary), .host (.setDiskState .attachedRw),
    .host (.setPgState .runningPrimary), .host (.setHealth .healthy)]

theorem isPrimary_assume (node : NodeWorld) : IsPrimary (assume.foldl does node) := by
  refine ⟨rfl, rfl, rfl, rfl, fun r => ?_⟩
  cases r <;> simp [assume, does, Call.done, Call.acquires, Call.releases]

theorem becomeStandby_gives : Gives cfg site x ElectionManager.becomeStandby .standby
    (x.after site standBy) :=
  (setRole_leaves _).bind fun _ => (setDiskState_leaves _).bind fun _ =>
    (setPgState_leaves _).bind fun _ => (setHealth_leaves _).bind fun _ => gives_pure _

/-- What follows on the election. -/
theorem settle_leaves {efm : Mgr Unit} (hefm : Leaves cfg site x efm x) (active : Bool) :
    Leaves cfg site x (efm.bind fun _ => (Mgr.host .pgMonReset).bind fun _ =>
      Mgr.host (.pgMonSetActive active)) x := by
  have hreset : Leaves cfg site x (Mgr.host .pgMonReset) x :=
    leaves_quiet trivial trivial fun _ h => ⟨_, h.1⟩
  exact hefm.bind fun _ => hreset.bind fun _ => watch_leaves active x

/-- **A node that starts beside one that serves stands by.** -/
theorem startup_serves (hnames : (cfg site.other).cluster.nodeName ≠ (cfg site).cluster.nodeName)
    (hup : ∀ i, x.up i = true) (h : Survives x site.other) :
    Prog.Returns (serving cfg site) (Is x) (PgHaDaemon.startup (cfg site))
      fun _ s => Serves s.state site.other := by
  have hback : site.other.other = site := site.other_other
  have hfree (r : Resource) : (x.node site).held r = false := by
    rw [← hback]
    exact h.free r
  have hholder : Gives cfg site x (Mgr.disk .currentRwHolder)
      (some (cfg site.other).cluster.nodeName) x := by
    refine gives_quiet trivial trivial fun answer hanswer => hanswer.trans ?_
    rw [holder_eq_some (h.serving.held .disk) (hback.symm ▸ hfree .disk)]
  have helect : Gives cfg site x (ElectionManager.elect (cfg site)) .standby
      (x.after site standBy) := by
    refine hholder.bind ?_
    rw [if_neg (by simpa using hnames), if_pos (by simp)]
    exact becomeStandby_gives
  refine helect.bind ?_
  refine (settle_leaves efmStop_leaves false).returns (P := (Serves · site.other)) ?_
  refine ⟨fun i => by rw [Pair.up_after, hup], ?_, ?_⟩
  · rw [Pair.node_after_other]
    exact h.serving
  · rw [hback, Pair.node_after_self]
    exact ⟨rfl, rfl, rfl, rfl, hfree⟩

/-- **A node that starts where nobody serves takes the disk.** -/
theorem startup_survives (h : Empty x) :
    Prog.Returns (serving cfg site) (Is x) (PgHaDaemon.startup (cfg site))
      fun _ s => Survives s.state site ∧ ∀ i, s.state.up i = true := by
  have hholder : Gives cfg site x (Mgr.disk .currentRwHolder) none x :=
    gives_quiet trivial trivial fun _ hanswer => by
      rw [hanswer, holder_eq_none (h.free site _) (h.free _ _)]
  have hhash : Leaves cfg site x (Mgr.host (.hash (cfg site).cluster.nodeName)) x :=
    leaves_quiet trivial trivial fun _ h => h.1
  have hsleep (time : Int) : Leaves cfg site x (Mgr.host (.sleep time)) x :=
    leaves_quiet trivial trivial fun _ h => ⟨_, h.2⟩
  -- from the attached disk on, each step finds what the one before has left
  have hprimary : Gives cfg site (x.done site (.disk .attachDiskRw))
      (ElectionManager.becomePrimary false) .primary (x.after site assume) := by
    refine Prog.Returns.except serving_monotone ?_
    refine (mountDisk_leaves ?_).bind fun _ => ?_
    · simp [Pair.done, does, Call.done, Call.acquires]
    have hstart : Leaves cfg site ((x.done site (.disk .attachDiskRw)).done site (.disk .mountDisk))
        (Mgr.disk .startPostgres) (x.after site (assume.take 3)) := by
      refine disk_leaves ?_ fun _ h => h
      simp [Pair.Ready, Pair.done, does, Call.done, Call.acquires]
    refine hstart.bind fun _ => (net_leaves .acquireVip).bind fun _ => ?_
    refine (setRole_leaves _).bind fun _ => (setDiskState_leaves _).bind fun _ => ?_
    exact (setPgState_leaves _).bind fun _ => (setHealth_leaves _).bind fun _ => gives_pure _
  have helect : Gives cfg site x (ElectionManager.elect (cfg site)) .primary
      (x.after site assume) := by
    refine hholder.bind ?_
    -- nobody holds the disk, so the node competes for it, alone
    rw [if_neg (by simp), if_neg (by simp)]
    refine hhash.bind fun _ => (hsleep _).bind fun _ => Prog.Returns.except serving_monotone ?_
    exact (attachDisk_leaves (h.free _ _)).bind fun _ => hprimary
  refine helect.bind ?_
  refine (settle_leaves efmStart_leaves true).returns
    (P := fun y => Survives y site ∧ ∀ i, y.up i = true) ?_
  have hup (i : Site) : (x.after site assume).up i = true := by rw [Pair.up_after, h.up]
  refine ⟨⟨hup site, ?_, fun r => ?_⟩, hup⟩
  · rw [Pair.node_after_self]
    exact isPrimary_assume _
  · rw [Pair.node_after_other]
    cases r <;> simp [assume, suffers, takes, h.free]

end Serves

end PgHa.Service
