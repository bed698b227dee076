import PgHa.Daemon
import PgHa.Ha.Release

/-!
# When a reported release is a release

A node that reports STANDBY and DETACHED tells its peer that it has given
everything up; the peer then takes over without fencing it.  This file follows
one daemon through its startup and any sequence of transitions, whatever the
operations of the managers answer, and says when such a report is true.

The report can be wrong because every place that sets it trusts something that
it has not checked:

* the startup election falls back to STANDBY without detaching the disk, and
  also on a node that still holds something from before the start;
* a self-demotion goes on after a release that raised;
* a release returns normally although nothing has confirmed it: `pg_ctl stop` has
  failed, the lookup of the device name has, or an answer names no operation;
* the rollback of a promotion undoes the steps that have completed, and a step
  that has raised may have had its effect all the same, and so may an
  `attach_disk_rw` that has raised.

`Sound` is what the report promises.  `Allowed` excludes these branches one by
one, by what the operations answer and by what the node holds before them, and
`free_of_reported` shows that nothing else can go wrong.

The invariants follow what each phase keeps track of.  A node that does not say
STANDBY, or not DETACHED, promises nothing; a primary that gives up its role has
released a growing list of resources (`Handing`); and a promotion holds what its
completed steps have acquired (`Working`), which is what its rollback goes
through, last one first.
-/

namespace PgHa.ReportedRelease

open Effect NodeWorld Release

variable {cfg : Config}

/-- What a daemon runs, one after the other. -/
inductive Phase
  | startup
  | thread (task : Task)
  | selfDemotion
  deriving DecidableEq

def Phase.program (cfg : Config) : Phase → Mgr Unit
  | .startup => PgHaDaemon.startup cfg
  | .thread task => PgHaDaemon.taskBody cfg task
  | .selfDemotion => PgHaDaemon.selfDemoteAfterPgFailure cfg

/-- What a release does to what the node holds, by its single requests and commands.  About the
other operations nothing is said. -/
def PerformedBy (cfg : Config) (held : Resource → Bool) (event : Event Call.Ret Exc)
    (held' : Resource → Bool) (log : List (Event SysCall.Ret Exc)) : Prop :=
  match event with
  | ⟨.net .releaseVip, answer⟩ =>
      (NetworkManager.releaseVip cfg).Trace log (Prog.answered answer) ∧
        ∃ s s' : Fencing.Attachment, s.attached = held .vip ∧ s'.attached = held' .vip ∧
          History (vipStep cfg) s log s'
  | ⟨.disk (.stopPostgres mode), answer⟩ =>
      (DiskManager.stopPostgres cfg mode).Trace log (Prog.answered answer) ∧
        History postgresStep (held .postgres) log (held' .postgres)
  | ⟨.disk .detachDisk, answer⟩ =>
      (DiskManager.detachDisk cfg).Trace log (Prog.answered answer) ∧
        ∃ s s' : Fencing.Attachment, s.attached = held .disk ∧ s'.attached = held' .disk ∧
          History (Fencing.detachStep cfg cfg.cluster.nodeName cfg.myZone) s log s'
  | _ => True

/-- A release of something that the node holds returns only with answers that confirm it. -/
def NotSilent (cfg : Config) (s : NodeWorld) (event : Event Call.Ret Exc)
    (log : List (Event SysCall.Ret Exc)) : Prop :=
  ∀ r, event.op.releases = some r → s.held r = true → ∀ value, event.answer = .ok value →
    ¬ SilentRelease cfg r log

/-- A release of something that the node holds returns, with answers that confirm it. -/
def Confirmed (cfg : Config) (s : NodeWorld) (event : Event Call.Ret Exc)
    (log : List (Event SysCall.Ret Exc)) : Prop :=
  ∀ r, event.op.releases = some r → s.held r = true →
    (∃ value, event.answer = .ok value) ∧ ¬ SilentRelease cfg r log

/-- The node holds no more of what the operation is there to acquire. -/
def AcquiresNothing (s : NodeWorld) (op : Call) (s' : NodeWorld) : Prop :=
  ∀ r, op.acquires = some r → s'.held r = true → s.held r = true

/-- The branches that make a report true. -/
def Allowed (cfg : Config) (phase : Phase) (s : NodeWorld) (event : Event Call.Ret Exc)
    (log : List (Event SysCall.Ret Exc)) (s' : NodeWorld) : Prop :=
  match phase, event with
  -- the election is told that the disk is attached to the node if it is, and a node that it is not
  -- attached to has neither the address nor PostgreSQL left from before its start
  | .startup, ⟨.disk .currentRwHolder, answer⟩ =>
      (s.held .disk = true → answer = .ok (some cfg.cluster.nodeName)) ∧
        (answer ≠ .ok (some cfg.cluster.nodeName) →
          s.held .vip = false ∧ s.held .postgres = false)
  -- what the winner of the election does on its disk succeeds
  | .startup, ⟨.disk .mountDisk, answer⟩ => answer = .ok ()
  | .startup, ⟨.disk .startPostgres, answer⟩ => answer = .ok ()
  | .startup, ⟨.net .acquireVip, answer⟩ => answer = .ok ()
  -- an attach that raises has not attached the disk
  | .startup, ⟨.disk .attachDiskRw, .error _⟩ => AcquiresNothing s (.disk .attachDiskRw) s'
  | .thread (.runFailover _), ⟨.disk .attachDiskRw, .error _⟩ =>
      s.ReportsRelease → AcquiresNothing s (.disk .attachDiskRw) s'
  -- a promotion starts on a node that says DETACHED, and its steps that raise acquire nothing
  | .thread .runSwitchoverAsStandby, ⟨.host (.mark (.enter .asStandby)), _⟩ =>
      s.daemon.node.diskState = .detached
  | .thread .runSwitchoverAsStandby, ⟨.disk .attachDiskRw, .error _⟩ =>
      AcquiresNothing s (.disk .attachDiskRw) s'
  | .thread .runSwitchoverAsStandby, ⟨.disk .startPostgres, .error _⟩ =>
      AcquiresNothing s (.disk .startPostgres) s'
  | .thread .runSwitchoverAsStandby, ⟨.net .acquireVip, .error _⟩ =>
      AcquiresNothing s (.net .acquireVip) s'
  -- its rollback goes on after a release that raises, and detaches the disk in the end
  | .thread .runSwitchoverAsStandby, ⟨.net .releaseVip, _⟩
  | .thread .runSwitchoverAsStandby, ⟨.disk (.stopPostgres _), _⟩ => Confirmed cfg s event log
  | .thread .runSwitchoverAsStandby, ⟨.disk .detachDisk, _⟩ => NotSilent cfg s event log
  -- the primary side of a switchover ends with a release that raises
  | .thread .runSwitchover, ⟨.net .releaseVip, _⟩
  | .thread .runSwitchover, ⟨.disk (.stopPostgres _), _⟩
  | .thread .runSwitchover, ⟨.disk .detachDisk, _⟩ => NotSilent cfg s event log
  -- a self-demotion goes on, and kills a PostgreSQL that has not stopped
  | .selfDemotion, ⟨.net .releaseVip, _⟩
  | .selfDemotion, ⟨.disk .detachDisk, _⟩ => Confirmed cfg s event log
  | .selfDemotion, ⟨.host (.killMountUsers _), _⟩ => s'.held .postgres = false
  | _, _ => True

/-- What an operation of a phase has to satisfy. -/
abbrev Condition : Type :=
  Phase → NodeWorld → Event Call.Ret Exc → List (Event SysCall.Ret Exc) → NodeWorld → Prop

/-- An operation of a phase, on one of the branches that `allowed` admits. -/
def phaseStep (cfg : Config) (allowed : Condition) (phase : Phase) (s : NodeWorld)
    (event : Event Call.Ret Exc) (s' : NodeWorld) : Prop :=
  NodeStep s event s' ∧ ∃ log, PerformedBy cfg s.held event s'.held log ∧
    allowed phase s event log s'

/-- The states of a daemon in which no transition is in progress: before its
startup, and after any phases that have ended, while the node may lose what it
holds. -/
inductive Rests (cfg : Config) (allowed : Condition) : NodeWorld → Prop
  | start {s : NodeWorld} (hrole : s.daemon.node.role = .unknown) : Rests cfg allowed s
  | phase {s s' : NodeWorld} {phase : Phase} {trace : List (Event Call.Ret Exc)}
      {outcome : Outcome Exc Unit} (hrest : Rests cfg allowed s)
      (hphase : phase = .startup ↔ s.daemon.node.role = .unknown)
      (htrace : (phase.program cfg).Trace trace outcome) (hended : outcome ≠ .stuck)
      (hhistory : History (phaseStep cfg allowed phase) s trace s') : Rests cfg allowed s'
  | lose {s s' : NodeWorld} (hrest : Rests cfg allowed s) (hfewer : s'.Fewer s) :
      Rests cfg allowed s'

/-- What a node reports as released, it has released. -/
def Sound (s : NodeWorld) : Prop := s.ReportsRelease → s.Free

/-! ## What operations leave alone -/

/-- An assertion that survives a loss. -/
def Lasting (P : NodeWorld → Prop) : Prop := ∀ s s' : NodeWorld, s'.Fewer s → P s → P s'

theorem lasting_sound : Lasting Sound := by
  intro s s' hfewer hsound hreports
  apply hfewer.free (hsound ⟨?_, ?_⟩)
  · rw [← hfewer.role]
    exact hreports.1
  · rw [← hfewer.diskState]
    exact hreports.2

theorem sound_of_free {s : NodeWorld} (h : s.Free) : Sound s := fun _ => h

/-- The node has not decided for STANDBY. -/
def NotStandby (s : NodeWorld) : Prop := s.daemon.node.role ≠ .standby

/-- The node does not say that it has detached the disk. -/
def NotDetached (s : NodeWorld) : Prop := s.daemon.node.diskState ≠ .detached

theorem NotStandby.sound {s : NodeWorld} (h : NotStandby s) : Sound s :=
  fun hreports => absurd hreports.1 h

theorem NotDetached.sound {s : NodeWorld} (h : NotDetached s) : Sound s :=
  fun hreports => absurd hreports.2 h

/-- The transformer of a phase. -/
abbrev during (cfg : Config) (phase : Phase) : Transformer Call.Ret Exc NodeWorld :=
  demonic (phaseStep cfg (Allowed cfg) phase)

variable {phase : Phase}

theorem during_monotone : (during cfg phase).Monotone := demonic_monotone _

/-- However the program ends, the node is then sound. -/
abbrev EndsSound {α : Type} (cfg : Config) (phase : Phase) (P : NodeWorld → Prop)
    (program : Mgr α) : Prop :=
  Prog.Triple (during cfg phase) P program (fun _ => Sound) Sound

theorem endsSound_of_keeps {α : Type} {P : NodeWorld → Prop} {program : Mgr α}
    (h : Prog.Keeps (during cfg phase) P program) (hP : ∀ s, P s → Sound s) :
    EndsSound cfg phase P program :=
  h.conseq during_monotone (fun _ => id) (fun _ => hP) hP

theorem lasting_notStandby : Lasting NotStandby := by
  intro s s' hfewer hs
  rw [NotStandby, hfewer.role]
  exact hs

theorem lasting_notDetached : Lasting NotDetached := by
  intro s s' hfewer hs
  rw [NotDetached, hfewer.diskState]
  exact hs

/-- Programs that only perform idle operations keep whatever survives a loss. -/
theorem keeps_of_idle {α : Type} {program : Mgr α} (hcalls : program.Calls Call.idle)
    {P : NodeWorld → Prop} (hP : Lasting P) : Prog.Keeps (during cfg phase) P program := by
  apply Prog.Triple.of_calls during_monotone _ hcalls
  intro op hop s hs answer s' hstep
  exact hP s s' (hstep.1.fewer hop) hs

theorem perform_of_idle (op : Call) (hop : op.idle) {P : NodeWorld → Prop} (hP : Lasting P) :
    Prog.Keeps (during cfg phase) P (Prog.perform op) :=
  keeps_of_idle (Prog.Calls.perform hop) hP

theorem idle_of_minor {α : Type} {program : Mgr α} (hcalls : program.Calls Call.minor) :
    program.Calls Call.idle :=
  hcalls.mono fun _ => Call.idle_of_minor

/-- A program whose first operation is idle. -/
theorem endsSound_after {α : Type} {op : Call} {next : op.Ret → Mgr α} {P : NodeWorld → Prop}
    (hop : op.idle) (hP : Lasting P) (hsound : ∀ s, P s → Sound s)
    (rest : ∀ value, EndsSound cfg phase P (next value)) :
    EndsSound cfg phase P ((Prog.perform op).bind next) :=
  .after_keeps during_monotone (perform_of_idle op hop hP) rest hsound

/-- A node that holds nothing may say of itself what it likes. -/
theorem keeps_free {α : Type} {program : Mgr α}
    (hcalls : program.Calls fun op => op.acquires = none) :
    Prog.Keeps (during cfg phase) Free program := by
  apply Prog.Triple.of_calls during_monotone _ hcalls
  intro op hop s hs answer s' hstep
  exact free_of_held (hstep.1.held hop) hs

theorem keeps_notStandby {α : Type} {program : Mgr α}
    (hcalls : program.Calls (· ≠ .host (.setRole .standby))) :
    Prog.Keeps (during cfg phase) NotStandby program := by
  apply Prog.Triple.of_calls during_monotone _ hcalls
  intro op hop s hs answer s' hstep hrole
  rcases hstep.1.role with hset | hsame
  · rw [hrole] at hset
    exact hop hset
  · exact hs (hsame ▸ hrole)

theorem keeps_notDetached {α : Type} {program : Mgr α}
    (hcalls : program.Calls (· ≠ .host (.setDiskState .detached))) :
    Prog.Keeps (during cfg phase) NotDetached program := by
  apply Prog.Triple.of_calls during_monotone _ hcalls
  intro op hop s hs answer s' hstep hdetached
  rcases hstep.1.diskState with hset | hsame
  · rw [hdetached] at hset
    exact hop hset
  · exact hs (hsame ▸ hdetached)

/-! ## Releases that are confirmed -/

/-- A release that returns, with answers that confirm it, has released. -/
theorem PerformedBy.released {held held' : Resource → Bool} {op : Call}
    {answer : Except Exc op.Ret} {log : List (Event SysCall.Ret Exc)} {r : Resource}
    (h : PerformedBy cfg held ⟨op, answer⟩ held' log) (hanswer : ∃ value, answer = .ok value)
    (hop : op.releases = some r) (hr : r ≠ .filesystem)
    (hkill : ∀ path, op ≠ .host (.killMountUsers path))
    (hconfirmed : ¬ SilentRelease cfg r log) : held' r = false := by
  obtain ⟨value, rfl⟩ := hanswer
  rw [Bool.eq_false_iff]
  intro hheld
  -- the run of the operation itself shows a silent answer if the resource is still held
  cases op with
  | disk call =>
      cases call with
      | unmountDisk => exact hr (Option.some.inj hop).symm
      | stopPostgres mode =>
          obtain rfl : Resource.postgres = r := Option.some.inj hop
          obtain ⟨htrace, hhistory⟩ := h
          exact hconfirmed (stopPostgres_spec mode _ log _ _ htrace hhistory rfl hheld)
      | detachDisk =>
          obtain rfl : Resource.disk = r := Option.some.inj hop
          obtain ⟨htrace, s, s', -, hs', hhistory⟩ := h
          rw [← hs'] at hheld
          exact hconfirmed (detachDisk_confirms s log _ s' htrace hhistory rfl hheld)
      | _ => cases hop
  | net call =>
      cases call with
      | releaseVip =>
          obtain rfl : Resource.vip = r := Option.some.inj hop
          obtain ⟨htrace, s, s', -, hs', hhistory⟩ := h
          rw [← hs'] at hheld
          exact hconfirmed (releaseVip_spec s log _ s' htrace hhistory rfl hheld)
      | acquireVip => cases hop
  | host call =>
      cases call with
      | killMountUsers path => exact hkill path rfl
      | _ => cases hop

section Released

variable {s s' : NodeWorld} {op : Call} {log : List (Event SysCall.Ret Exc)} {r : Resource}

/-- What is not held need not be confirmed. -/
theorem released_of_notSilent {value : op.Ret} (hstep : NodeStep s ⟨op, .ok value⟩ s')
    (hperformed : PerformedBy cfg s.held ⟨op, .ok value⟩ s'.held log)
    (hsilent : NotSilent cfg s ⟨op, .ok value⟩ log) (hop : op.releases = some r)
    (hr : r ≠ .filesystem) (hkill : ∀ path, op ≠ .host (.killMountUsers path)) :
    s'.held r = false := by
  cases hheld : s.held r with
  | false => exact released_of_held (hstep.held (Call.acquires_of_releases hop)) hheld
  | true => exact hperformed.released ⟨value, rfl⟩ hop hr hkill (hsilent r hop hheld value rfl)

theorem released_of_confirmed {answer : Except Exc op.Ret} (hstep : NodeStep s ⟨op, answer⟩ s')
    (hperformed : PerformedBy cfg s.held ⟨op, answer⟩ s'.held log)
    (hconfirmed : Confirmed cfg s ⟨op, answer⟩ log) (hop : op.releases = some r)
    (hr : r ≠ .filesystem) (hkill : ∀ path, op ≠ .host (.killMountUsers path)) :
    s'.held r = false := by
  cases hheld : s.held r with
  | false => exact released_of_held (hstep.held (Call.acquires_of_releases hop)) hheld
  | true =>
      obtain ⟨hanswer, hsilent⟩ := hconfirmed r hop hheld
      exact hperformed.released hanswer hop hr hkill hsilent

end Released

/-! ## Startup -/

theorem becomeStandby_sound : EndsSound cfg .startup Free ElectionManager.becomeStandby := by
  apply endsSound_of_keeps (keeps_free _) fun _ => sound_of_free
  exact .perform_bind rfl fun _ => .perform_bind rfl fun _ => .perform_bind rfl fun _ =>
    .perform_bind rfl fun _ => trivial

/-- Started where `P` holds, the program returns, where `Q` holds. -/
abbrev Returns {α : Type} (cfg : Config) (phase : Phase) (P : NodeWorld → Prop) (program : Mgr α)
    (Q : α → NodeWorld → Prop) : Prop :=
  Prog.Triple (during cfg phase) P program Q fun _ => False

/-- A program that returns ends sound where it ends in `Q`. -/
theorem Returns.raising {α : Type} {P : NodeWorld → Prop} {program : Mgr α}
    {Q : α → NodeWorld → Prop} {E : NodeWorld → Prop} (h : Returns cfg phase P program Q) :
    Prog.Triple (during cfg phase) P program Q E :=
  h.conseq during_monotone (fun _ => id) (fun _ _ => id) fun _ => False.elim

/-- An operation that does not raise, and does not decide for STANDBY. -/
theorem perform_returns (op : Call) (hop : op ≠ .host (.setRole .standby))
    (hok : ∀ s s' answer, phaseStep cfg (Allowed cfg) phase s ⟨op, answer⟩ s' →
      ∃ value, answer = .ok value) :
    Returns cfg phase NotStandby (Prog.perform op) fun _ => NotStandby := by
  apply Prog.Triple.perform
  intro s hs answer s' hstep
  obtain ⟨value, rfl⟩ := hok s s' answer hstep
  exact keeps_notStandby (Prog.Calls.perform hop) s hs (.ok value) s' hstep

/-- What the winner does on its disk succeeds, and then it is not STANDBY. -/
theorem takeOver_returns : Returns cfg .startup NotStandby (ElectionManager.takeOver false)
    fun _ => NotStandby := by
  have htold {call : HostCall} {value : call.Ret} (hop : call ≠ .setRole .standby)
      (hok : ∀ (s : DaemonState) answer, s.Answers call answer → answer = .ok value) :
      Returns cfg .startup NotStandby (Mgr.host call) fun _ => NotStandby := by
    apply perform_returns (.host call) (by simpa using hop)
    rintro s s' answer ⟨hstep, -⟩
    exact ⟨value, hok s.daemon answer hstep.daemon.1⟩
  have hmount : Returns cfg .startup NotStandby (Mgr.disk .mountDisk) fun _ => NotStandby :=
    perform_returns (.disk .mountDisk) (by simp) fun _ _ _ ⟨_, _, _, hok⟩ => ⟨(), hok⟩
  have hstart : Returns cfg .startup NotStandby (Mgr.disk .startPostgres) fun _ => NotStandby :=
    perform_returns (.disk .startPostgres) (by simp) fun _ _ _ ⟨_, _, _, hok⟩ => ⟨(), hok⟩
  have hvip : Returns cfg .startup NotStandby (Mgr.net .acquireVip) fun _ => NotStandby :=
    perform_returns (.net .acquireVip) (by simp) fun _ _ _ ⟨_, _, _, hok⟩ => ⟨(), hok⟩
  refine hmount.bind during_monotone fun _ => hstart.bind during_monotone fun _ =>
    hvip.bind during_monotone fun _ => ?_
  refine Prog.Triple.bind during_monotone (htold (by simp) fun _ _ h => h) fun _ => ?_
  refine Prog.Triple.bind during_monotone (htold (by simp) fun _ _ h => h) fun _ => ?_
  refine Prog.Triple.bind during_monotone (htold (by simp) fun _ _ h => h) fun _ => ?_
  refine Prog.Triple.bind during_monotone (htold (by simp) fun _ _ h => h) fun _ => ?_
  exact .pure fun _ => id

/-- The rollback would neither detach the disk nor release the address; it is not entered. -/
theorem becomePrimary_returns :
    Returns cfg .startup NotStandby (ElectionManager.becomePrimary false) fun _ => Sound := by
  apply Prog.Triple.except during_monotone (R := fun _ => False)
  · exact takeOver_returns.conseq during_monotone (fun _ => id) (fun _ _ => NotStandby.sound)
      fun _ => id
  · exact fun _ _ => False.elim

/-- A contender that has not attached the disk holds nothing. -/
theorem competeForPrimary_sound : EndsSound cfg .startup (fun s => NotStandby s ∧ s.Free)
    (ElectionManager.competeForPrimary cfg) := by
  have hlasting : Lasting fun s => NotStandby s ∧ s.Free :=
    fun s s' hfewer hs => ⟨lasting_notStandby s s' hfewer hs.1, hfewer.free hs.2⟩
  have hsound : ∀ s, NotStandby s ∧ s.Free → Sound s := fun _ hs => hs.1.sound
  have hattach : Prog.Triple (during cfg .startup) (fun s => NotStandby s ∧ s.Free)
      (Mgr.disk .attachDiskRw) (fun _ => NotStandby) Free := by
    apply Prog.Triple.perform
    intro s hs answer s' hstep
    cases answer with
    | ok _ =>
        have hkeeps : Prog.Keeps (during cfg .startup) NotStandby (Mgr.disk .attachDiskRw) :=
          keeps_notStandby (Prog.Calls.perform (by simp))
        exact hkeeps s hs.1 (.ok ()) s' hstep
    -- what the condition asks of an attach that raises: it has attached nothing
    | error exc =>
        obtain ⟨hnode, log, -, hnothing⟩ := hstep
        refine free_of_held (fun r hr => ?_) hs.2
        exact (hnode.acquired r hr).elim id fun hop => hnothing r hop hr
  refine endsSound_after (by trivial) hlasting hsound fun hash => ?_
  refine endsSound_after (by trivial) hlasting hsound fun _ => ?_
  -- both handlers end without the disk, as STANDBY or by raising
  apply Prog.Triple.except during_monotone (R := Free)
  · exact .bind during_monotone hattach fun _ => becomePrimary_returns.raising
  · intro exc
    apply Prog.Triple.ite
    · exact fun _ => becomeStandby_sound
    · exact fun _ => .raise fun _ => sound_of_free

/-- A node that is not told that the disk is attached to it holds nothing. -/
theorem currentRwHolder_sound : Prog.Triple (during cfg .startup) NotStandby
    (Mgr.disk .currentRwHolder)
    (fun holder s => NotStandby s ∧ (holder ≠ some cfg.cluster.nodeName → s.Free)) Sound := by
  apply Prog.Triple.perform
  intro s hs answer s' hstep
  have hfewer : s'.Fewer s := hstep.1.fewer trivial
  have hnot : NotStandby s' := lasting_notStandby s s' hfewer hs
  cases answer with
  | error exc => exact hnot.sound
  | ok holder =>
      refine ⟨hnot, fun hother => hfewer.free ?_⟩
      obtain ⟨-, log, -, hdisk, hleft⟩ := hstep
      have hanswer : (Except.ok holder : Except Exc (Option String)) ≠
          .ok (some cfg.cluster.nodeName) := fun h => hother (Except.ok.inj h)
      obtain ⟨hvip, hpostgres⟩ := hleft hanswer
      exact ⟨Bool.eq_false_iff.mpr fun h => hanswer (hdisk h), hvip, hpostgres⟩

theorem elect_sound : EndsSound cfg .startup NotStandby (ElectionManager.elect cfg) := by
  apply currentRwHolder_sound.bind during_monotone
  intro holder
  apply Prog.Triple.ite
  · intro _
    exact becomePrimary_returns.conseq during_monotone (fun _ h => h.1) (fun _ _ => id)
      fun _ => False.elim
  · intro hother
    apply Prog.Triple.ite
    · intro _
      exact becomeStandby_sound.conseq during_monotone (fun _ h => h.2 hother) (fun _ _ => id)
        fun _ => id
    · intro _
      exact competeForPrimary_sound.conseq during_monotone (fun _ h => ⟨h.1, h.2 hother⟩)
        (fun _ _ => id) fun _ => id

theorem startup_sound : EndsSound cfg .startup NotStandby (PgHaDaemon.startup cfg) := by
  apply elect_sound.bind during_monotone
  intro role
  apply keeps_of_idle _ lasting_sound
  have hmonitor : (do Mgr.host .pgMonReset; Mgr.host (.pgMonSetActive (role == .primary)) :
      Mgr Unit).Calls Call.idle :=
    .perform_bind trivial fun _ => Prog.Calls.perform trivial
  apply Prog.Calls.ite
  · exact .bind (idle_of_minor (PgHaDaemon.efmStart_minor cfg)) fun _ => hmonitor
  · exact .bind (idle_of_minor (PgHaDaemon.efmStop_minor cfg)) fun _ => hmonitor

/-! ## Failover -/

/-- An attach that raises has attached nothing to a node that reports its
release. -/
theorem attach_raised {s s' : NodeWorld} {exc : Exc}
    (hstep : NodeStep s ⟨.disk .attachDiskRw, .error exc⟩ s')
    (hallowed : s.ReportsRelease → AcquiresNothing s (.disk .attachDiskRw) s')
    (hs : Sound s) : Sound s' := by
  have hdaemon : s'.daemon = s.daemon := hstep.daemon
  intro hreports
  have hbefore : s.ReportsRelease := by
    rw [ReportsRelease, ← hdaemon]
    exact hreports
  apply free_of_held _ (hs hbefore)
  intro r hr
  exact (hstep.acquired r hr).elim id fun hop => hallowed hbefore r hop hr

/-- A disk that is attached is also said to be attached. -/
theorem setAttached_notDetached {P : NodeWorld → Prop} :
    Prog.Triple (during cfg phase) P (Mgr.host (.setDiskState .attachedRw)) (fun _ => NotDetached)
      NotDetached := by
  apply Prog.Triple.perform
  intro s _ answer s' hstep
  obtain ⟨hanswer, hafter⟩ := hstep.1.daemon
  have hset : NotDetached s' := by
    rw [NotDetached, hafter]
    simp
  cases answer <;> exact hset

section Attach

variable {skipFence : Bool}

theorem attachDiskRw_sound :
    Prog.Triple (during cfg (.thread (.runFailover skipFence))) Sound (Mgr.disk .attachDiskRw)
      (fun _ _ => True) Sound := by
  apply Prog.Triple.perform
  rintro s hs answer s' ⟨hnode, log, -, hallowed⟩
  cases answer with
  | ok _ => trivial
  | error exc => exact attach_raised hnode hallowed hs

/-- The retry loop, by induction on the attempts that are left. -/
theorem attachFrom_sound (backoff : Int) (left : ℕ) (hleft : left ≠ 0) :
    Prog.Triple (during cfg (.thread (.runFailover skipFence))) Sound
      (FailoverEngine.attachFrom cfg backoff left) (fun _ => NotDetached) Sound := by
  induction left generalizing backoff with
  | zero => exact absurd rfl hleft
  | succ left ih =>
      apply Prog.Triple.except during_monotone (R := Sound)
      · apply attachDiskRw_sound.bind during_monotone
        intro _
        -- from here on the node does not report DETACHED, and no step sets it back
        have hrecorded : Prog.Triple (during cfg (.thread (.runFailover skipFence))) (fun _ => True)
            (Mgr.host (.setDiskState .attachedRw)) (fun _ => NotDetached) Sound :=
          setAttached_notDetached.conseq during_monotone (fun _ => id) (fun _ _ => id)
            fun _ => NotDetached.sound
        apply hrecorded.bind during_monotone
        intro _
        apply (keeps_notDetached _).conseq during_monotone (fun _ => id) (fun _ _ => id)
          fun _ => NotDetached.sound
        exact emit_calls (by simp) _ _
      · intro exc
        apply Prog.Triple.ite
        -- the last attempt raises, so there is one left here
        · intro hretry
          exact .after_keeps during_monotone (perform_of_idle _ (by trivial) lasting_sound)
            (fun _ => ih _ hretry.2.1) fun _ => id
        · intro _
          exact .raise fun _ => id

end Attach

section Steps

variable {P P' : NodeWorld → Prop} {skipFence : Bool} {name : StepName} {step : Mgr Unit}
  {rest : List (StepName × Mgr Unit)}

/-- One pass of the loop of `execute`: what its step reaches is there for the
rest of the loop. -/
theorem runSteps_cons (hP : Lasting P) (hsound : ∀ s, P s → Sound s)
    (hskipped : FailoverEngine.skipped skipFence name = true → ∀ s, P s → P' s)
    (hstep : Prog.Triple (during cfg phase) P step (fun _ => P') Sound)
    (hrest : EndsSound cfg phase P' (FailoverEngine.runSteps cfg skipFence rest)) :
    EndsSound cfg phase P (FailoverEngine.runSteps cfg skipFence ((name, step) :: rest)) := by
  apply Prog.Triple.ite
  · intro hskip
    exact hrest.conseq during_monotone (hskipped hskip) (fun _ _ => id) fun _ => id
  · intro _
    refine endsSound_after (by trivial) hP hsound fun _ => ?_
    apply (hstep.attempt during_monotone).bind during_monotone
    intro result
    cases result with
    | ok _ => exact hrest
    | error exc =>
        apply keeps_of_idle _ lasting_sound
        exact .perform_bind trivial fun _ =>
          .bind (idle_of_minor (emit_minor _ _ _)) fun _ => trivial

theorem emit_sound (eventType : HaEventType) (message : String) :
    Prog.Keeps (during cfg phase) Sound (emit cfg eventType message) :=
  keeps_of_idle (idle_of_minor (emit_minor cfg eventType message)) lasting_sound

/-- A sequence between its marks. -/
theorem inSequence_sound {α : Type} {sequence : Sequence} {body : Mgr α} (hP : Lasting P)
    (hsound : ∀ s, P s → Sound s) (hbody : EndsSound cfg phase P body) :
    EndsSound cfg phase P (inSequence sequence body) := by
  refine endsSound_after (by trivial) hP hsound fun _ => ?_
  exact hbody.ensuring during_monotone (perform_of_idle _ (by trivial) lasting_sound)

end Steps

/-- The operations that do not take back that the disk is attached. -/
def KeepsAttached (op : Call) : Prop := op ≠ .host (.setDiskState .detached)

theorem keepsAttached_of_minor {op : Call} (h : op.minor) : KeepsAttached op := by
  rintro rfl
  exact h

theorem startPostgresFrom_keepsAttached (left : ℕ) :
    (startPostgresFrom cfg left).Calls KeepsAttached := by
  apply (startPostgresFrom_minor cfg left).mono
  intro op hop
  rcases hop with hminor | rfl
  · exact keepsAttached_of_minor hminor
  · simp [KeepsAttached]

theorem acquireVip_keepsAttached (eventType : HaEventType) (message : String) :
    (do Mgr.net .acquireVip; emit cfg eventType message : Mgr Unit).Calls KeepsAttached := by
  refine .perform_bind (by simp [KeepsAttached]) fun _ => ?_
  exact (emit_minor cfg _ _).mono fun _ => keepsAttached_of_minor

theorem promote_keepsAttached (eventType : HaEventType) (message : String) :
    (do Mgr.host (.setRole .primary); Mgr.host (.setHealth .healthy);
        emit cfg eventType message : Mgr Unit).Calls KeepsAttached := by
  refine .perform_bind (by simp [KeepsAttached]) fun _ => .perform_bind (by simp [KeepsAttached])
    fun _ => ?_
  exact (emit_minor cfg _ _).mono fun _ => keepsAttached_of_minor

theorem mountDisk_keepsAttached : (Mgr.disk .mountDisk).Calls KeepsAttached :=
  Prog.Calls.perform (by simp [KeepsAttached])

/-- The steps after the attach, of a failover and of a switchover. -/
theorem laterSteps_keepAttached (vipType roleType : HaEventType) (vipMessage roleMessage : String) :
    ∀ step ∈ [(StepName.mount, Mgr.disk .mountDisk), (.pgStart, startPostgresFrom cfg 3),
      (.vip, do Mgr.net .acquireVip; emit cfg vipType vipMessage),
      (.promote, do
        Mgr.host (.setRole .primary)
        Mgr.host (.setHealth .healthy)
        emit cfg roleType roleMessage)], step.2.Calls KeepsAttached := by
  intro step hstep
  simp only [List.mem_cons, List.not_mem_nil, or_false] at hstep
  rcases hstep with rfl | rfl | rfl | rfl
  · exact mountDisk_keepsAttached
  · exact startPostgresFrom_keepsAttached 3
  · exact acquireVip_keepsAttached _ _
  · exact promote_keepsAttached _ _

/-- The steps of a failover before the attach. -/
theorem verify_idle : (FailoverEngine.stepVerifyPeerState cfg).Calls Call.idle := by
  refine .perform_bind trivial fun status => .perform_bind trivial fun _ => .ite trivial ?_
  refine .ite trivial (.bind ?_ fun reachable => .ite trivial trivial)
  refine .bind (.attempt (Prog.Calls.perform trivial)) fun result => ?_
  cases result with
  | ok _ => trivial
  | error exc => exact .ite trivial trivial

theorem fence_idle : (FailoverEngine.stepFence cfg).Calls Call.idle :=
  .perform_bind trivial fun _ => .perform_bind trivial fun _ => idle_of_minor (emit_minor _ _ _)

theorem steps_sound (skipFence : Bool) : EndsSound cfg (.thread (.runFailover skipFence)) Sound
    (FailoverEngine.runSteps cfg skipFence (FailoverEngine.steps cfg)) := by
  refine runSteps_cons lasting_sound (fun _ => id) (fun _ _ => id)
    (keeps_of_idle verify_idle lasting_sound) ?_
  refine runSteps_cons lasting_sound (fun _ => id) (fun _ _ => id)
    (keeps_of_idle fence_idle lasting_sound) ?_
  refine runSteps_cons lasting_sound (fun _ => id) (fun _ _ => id)
    (perform_of_idle _ (by trivial) lasting_sound) ?_
  have hattach : Prog.Triple (during cfg (.thread (.runFailover skipFence))) Sound
      (FailoverEngine.stepAttachDisk cfg) (fun _ => NotDetached) Sound :=
    attachFrom_sound 3000 5 (by simp)
  apply runSteps_cons lasting_sound (fun _ => id) (by simp [FailoverEngine.skipped]) hattach
  apply endsSound_of_keeps _ fun _ => NotDetached.sound
  apply keeps_notDetached
  apply FailoverEngine.runSteps_calls cfg (fun _ => keepsAttached_of_minor trivial)
    (fun _ => keepsAttached_of_minor trivial) (by simp [KeepsAttached])
  exact laterSteps_keepAttached _ _ _ _

theorem runFailover_sound (skipFence : Bool) :
    EndsSound cfg (.thread (.runFailover skipFence)) Sound
      (PgHaDaemon.runFailover cfg skipFence) := by
  have hexecute : EndsSound cfg (.thread (.runFailover skipFence)) Sound
      (FailoverEngine.execute cfg skipFence) := by
    apply inSequence_sound lasting_sound fun _ => id
    refine endsSound_after (by trivial) lasting_sound (fun _ => id) fun attempts => ?_
    refine endsSound_after (by trivial) lasting_sound (fun _ => id) fun _ => ?_
    refine endsSound_after (by trivial) lasting_sound (fun _ => id) fun now => ?_
    refine endsSound_after (by trivial) lasting_sound (fun _ => id) fun _ => ?_
    refine endsSound_after (by trivial) lasting_sound (fun _ => id) fun current => ?_
    apply (emit_sound _ _).bind during_monotone
    intro _
    -- the bookkeeping before the steps leaves the node as it is
    apply (steps_sound skipFence).bind during_monotone
    intro succeeded
    apply keeps_of_idle _ lasting_sound
    exact .ite (.perform_bind trivial fun _ => .bind (idle_of_minor (emit_minor _ _ _))
      fun _ => trivial) trivial
  apply hexecute.bind during_monotone
  intro promoted
  apply keeps_of_idle _ lasting_sound
  exact .ite (idle_of_minor (PgHaDaemon.efmStart_minor cfg)) trivial

/-! ## The standby side of a switchover -/

/-- The step of a promotion that acquires a resource. -/
def acquiredBy : Resource → StepName
  | .vip => .vip
  | .postgres => .pgStart
  | .filesystem => .mount
  | .disk => .attach

/-- The node holds nothing but what these steps have acquired.  A filesystem that is mounted
keeps nobody from taking over. -/
def Covered (completed : List StepName) (s : NodeWorld) : Prop :=
  ∀ r, r ≠ .filesystem → s.held r = true → acquiredBy r ∈ completed

/-- A promotion has the disk, and holds what its completed steps have acquired. -/
def Working (completed : List StepName) (s : NodeWorld) : Prop :=
  NotDetached s ∧ Covered completed s

section AsStandby

variable {completed rest : List StepName} {name : StepName} {s s' : NodeWorld}

theorem free_of_covered (h : Covered [] s) : s.Free := by
  have hnone (r : Resource) (hr : r ≠ .filesystem) : s.held r = false := by
    rw [Bool.eq_false_iff]
    exact fun hheld => absurd (h r hr hheld) (by simp)
  exact ⟨hnone .disk (by simp), hnone .vip (by simp), hnone .postgres (by simp)⟩

theorem covered_of_free (h : s.Free) : Covered completed s := by
  intro r hr hheld
  obtain ⟨hdisk, hvip, hpostgres⟩ := h
  cases r <;> simp_all

theorem Covered.cons (h : Covered completed s) : Covered (name :: completed) s :=
  fun r hr hheld => List.mem_cons_of_mem _ (h r hr hheld)

theorem Working.cons (h : Working completed s) : Working (name :: completed) s :=
  ⟨h.1, h.2.cons⟩

/-- A step is undone when what it has acquired is not held any more. -/
theorem Covered.drop (h : Covered (name :: rest) s)
    (hreleased : ∀ r, r ≠ .filesystem → acquiredBy r = name → s.held r = false) :
    Covered rest s := by
  intro r hr hheld
  rcases List.mem_cons.mp (h r hr hheld) with hname | hrest
  · rw [hreleased r hr hname] at hheld
    cases hheld
  · exact hrest

theorem lasting_covered (completed : List StepName) : Lasting (Covered completed) :=
  fun _ _ hfewer hs r hr hheld => hs r hr (hfewer.held r hheld)

theorem lasting_working (completed : List StepName) : Lasting (Working completed) :=
  fun s s' hfewer hs => ⟨lasting_notDetached s s' hfewer hs.1,
    lasting_covered completed s s' hfewer hs.2⟩

theorem Working.sound (h : Working completed s) : Sound s := h.1.sound

/-- What an operation acquires is covered by its step, or it has acquired nothing. -/
theorem Covered.step {event : Event Call.Ret Exc} (hs : Covered completed s)
    (hstep : NodeStep s event s')
    (hnew : ∀ r, r ≠ .filesystem → event.op.acquires = some r → s'.held r = true →
      acquiredBy r ∈ completed) : Covered completed s' := by
  intro r hr hheld
  exact (hstep.acquired r hheld).elim (hs r hr) fun hop => hnew r hr hop hheld

theorem NotDetached.step {event : Event Call.Ret Exc} (hs : NotDetached s)
    (hstep : NodeStep s event s') (hop : KeepsAttached event.op) : NotDetached s' := by
  intro hdetached
  rcases hstep.diskState with hset | hsame
  · rw [hdetached] at hset
    exact hop hset
  · exact hs (hsame ▸ hdetached)

/-- The operations of a promotion that acquire at most the filesystem. -/
def Light (op : Call) : Prop := (∀ r, op.acquires = some r → r = .filesystem) ∧ KeepsAttached op

theorem light_of_minor {op : Call} (h : op.minor) : Light op := by
  refine ⟨fun r hr => ?_, keepsAttached_of_minor h⟩
  rw [Call.acquires_of_idle (Call.idle_of_minor h)] at hr
  cases hr

theorem keeps_working {α : Type} {program : Mgr α} (hcalls : program.Calls Light) :
    Prog.Keeps (during cfg phase) (Working completed) program := by
  apply Prog.Triple.of_calls during_monotone _ hcalls
  intro op hop s hs answer s' hstep
  exact ⟨hs.1.step hstep.1 hop.2, hs.2.step hstep.1 fun r hr hr' _ => absurd (hop.1 r hr') hr⟩

/-! ### The steps of a promotion -/

/-- A step that succeeds covers what it has acquired, and one that fails has acquired nothing. -/
def Works (cfg : Config) (name : StepName) (step : Mgr Unit) : Prop :=
  ∀ completed, Prog.Triple (during cfg (.thread .runSwitchoverAsStandby)) (Working completed) step
    (fun _ => Working (name :: completed)) (Working completed)

theorem works_of_light {step : Mgr Unit} (hcalls : step.Calls Light) : Works cfg name step :=
  fun _ => (keeps_working hcalls).conseq during_monotone (fun _ => id) (fun _ _ => Working.cons)
    fun _ => id

theorem acquire_works (op : Call) {r : Resource} (hop : op.acquires = some r)
    (hkeeps : KeepsAttached op)
    (hraised : ∀ s exc log s', Allowed cfg (.thread .runSwitchoverAsStandby) s
      ⟨op, .error exc⟩ log s' → AcquiresNothing s op s') :
    Prog.Triple (during cfg (.thread .runSwitchoverAsStandby)) (Working completed)
      (Prog.perform op) (fun _ => Working (acquiredBy r :: completed)) (Working completed) := by
  apply Prog.Triple.perform
  rintro s ⟨hattached, hcovered⟩ answer s' ⟨hnode, log, -, hallowed⟩
  have hattached' : NotDetached s' := hattached.step hnode hkeeps
  cases answer with
  | ok value =>
      refine ⟨hattached', hcovered.cons.step hnode fun r' _ hop' _ => ?_⟩
      obtain rfl : r = r' := Option.some.inj (hop.symm.trans hop')
      exact List.mem_cons_self
  | error exc =>
      refine ⟨hattached', hcovered.step hnode fun r' hr' hop' hheld => ?_⟩
      exact hcovered r' hr' (hraised s exc log s' hallowed r' hop' hheld)

/-- An event that is dropped is no failure. -/
theorem emit_returns {P : NodeWorld → Prop} (hP : Lasting P) (eventType : HaEventType)
    (message : String) : Returns cfg phase P (emit cfg eventType message) fun _ => P := by
  intro s hs
  rw [emit, Prog.wp_except, Prog.wp_perform]
  intro answer s' hstep
  have hs' : P s' := hP s s' (hstep.1.fewer trivial) hs
  cases answer with
  | ok _ => exact hs'
  | error exc =>
      have hfull : exc.cls = .queueFull := hstep.1.daemon.1 exc rfl
      rw [Prog.answered_error, Prog.handled_raised, if_pos hfull]
      exact hs'

theorem setter_returns {P : NodeWorld → Prop} (hP : Lasting P) (state : PgState) :
    Returns cfg phase P (Mgr.host (.setPgState state)) fun _ => P := by
  apply Prog.Triple.perform
  intro s hs answer s' hstep
  have hs' : P s' := hP s s' (hstep.1.fewer trivial) hs
  obtain rfl : answer = .ok () := hstep.1.daemon.1
  exact hs'

/-- The retry loop of `_step_start_postgres`, by induction on the attempts that are left. -/
theorem startPostgresFrom_works (left : ℕ) : Works cfg .pgStart (startPostgresFrom cfg left) := by
  intro completed
  induction left with
  | zero => exact .pure fun _ => Working.cons
  | succ left ih =>
      apply Prog.Triple.except during_monotone (R := Working completed)
      · have hstart : Prog.Triple (during cfg (.thread .runSwitchoverAsStandby)) (Working completed)
            (Mgr.disk .startPostgres) (fun _ => Working (.pgStart :: completed))
            (Working completed) :=
          acquire_works (.disk .startPostgres) rfl (by simp [KeepsAttached]) fun _ _ _ _ h => h
        apply hstart.bind during_monotone
        exact fun _ => (setter_returns (lasting_working _) _).raising
      · intro exc
        apply Prog.Triple.ite
        · intro _
          -- cleaning up the PID file and sleeping acquire nothing
          refine .after_keeps during_monotone (keeps_working ?_) (fun _ => ?_) fun _ => id
          · exact removeStalePidFile_calls (fun _ => light_of_minor trivial)
              fun _ => light_of_minor trivial
          · exact .after_keeps during_monotone
              (perform_of_idle (.host (.sleep 3000)) (by trivial) (lasting_working _))
              (fun _ => ih) fun _ => id
        · intro _
          exact .raise fun _ => id

theorem acquireVip_works (eventType : HaEventType) (message : String) :
    Works cfg .vip (do Mgr.net .acquireVip; emit cfg eventType message) := by
  intro completed
  have hvip : Prog.Triple (during cfg (.thread .runSwitchoverAsStandby)) (Working completed)
      (Mgr.net .acquireVip) (fun _ => Working (.vip :: completed)) (Working completed) :=
    acquire_works (.net .acquireVip) rfl (by simp [KeepsAttached]) fun _ _ _ _ h => h
  apply hvip.bind during_monotone
  exact fun _ => (emit_returns (lasting_working _) _ _).raising

theorem laterSteps_work : ∀ step ∈ (SwitchoverEngine.standbySteps cfg).tail,
    step.1 ≠ .attach ∧ Works cfg step.1 step.2 := by
  intro step hstep
  simp only [SwitchoverEngine.standbySteps, List.tail_cons, List.mem_cons, List.not_mem_nil,
    or_false] at hstep
  rcases hstep with rfl | rfl | rfl | rfl
  · refine ⟨by simp, works_of_light (Prog.Calls.perform ⟨?_, by simp [KeepsAttached]⟩)⟩
    exact fun r hr => (Option.some.inj hr).symm
  · exact ⟨by simp, startPostgresFrom_works 3⟩
  · exact ⟨by simp, acquireVip_works _ _⟩
  · refine ⟨by simp, works_of_light ?_⟩
    refine .perform_bind ⟨by simp [Call.acquires], by simp [KeepsAttached]⟩ fun _ => ?_
    refine .perform_bind ⟨by simp [Call.acquires], by simp [KeepsAttached]⟩ fun _ => ?_
    exact (emit_minor cfg _ _).mono fun _ => light_of_minor

/-! ### The rollback -/

/-- To undo a step is to release what it has acquired. -/
theorem release_works (op : Call) {r : Resource} (hop : op.releases = some r)
    (hr : r ≠ .filesystem) (hkill : ∀ path, op ≠ .host (.killMountUsers path))
    (hkeeps : KeepsAttached op)
    (hconfirmed : ∀ s answer log s', Allowed cfg (.thread .runSwitchoverAsStandby) s
      ⟨op, answer⟩ log s' → Confirmed cfg s ⟨op, answer⟩ log) :
    Prog.Triple (during cfg (.thread .runSwitchoverAsStandby)) (Working (acquiredBy r :: rest))
      (Prog.perform op) (fun _ => Working rest) (Working rest) := by
  apply Prog.Triple.perform
  rintro s ⟨hattached, hcovered⟩ answer s' ⟨hnode, log, hperformed, hallowed⟩
  have hacquires : op.acquires = none := Call.acquires_of_releases hop
  have hcovered' : Covered (acquiredBy r :: rest) s' :=
    hcovered.step hnode fun r' _ hop' _ => by simp [hacquires] at hop'
  have hworking : Working rest s' := by
    refine ⟨hattached.step hnode hkeeps, hcovered'.drop fun r' _ hname => ?_⟩
    obtain rfl : r' = r := by
      revert hname
      cases r <;> cases r' <;> simp [acquiredBy]
    exact released_of_confirmed hnode hperformed (hconfirmed s answer log s' hallowed) hop hr hkill
  cases answer <;> exact hworking

theorem undo_works (hname : name ≠ .attach) :
    Prog.Triple (during cfg (.thread .runSwitchoverAsStandby)) (Working (name :: rest))
      (SwitchoverEngine.undo name) (fun _ => Working rest) (Working rest) := by
  -- a step that has acquired nothing that counts
  have hdrop (h : ∀ r, r ≠ .filesystem → acquiredBy r ≠ name) {s : NodeWorld}
      (hs : Working (name :: rest) s) : Working rest s :=
    ⟨hs.1, hs.2.drop fun r hr hacquired => absurd hacquired (h r hr)⟩
  cases name with
  | attach => exact absurd rfl hname
  | pgStart =>
      have hstop : Prog.Triple (during cfg (.thread .runSwitchoverAsStandby))
          (Working (.pgStart :: rest)) (Mgr.disk (.stopPostgres .immediate))
          (fun _ => Working rest) (Working rest) :=
        release_works (.disk (.stopPostgres .immediate)) rfl (by simp) (by simp)
          (by simp [KeepsAttached]) fun _ _ _ _ h => h
      apply hstop.bind during_monotone
      exact fun _ => perform_of_idle (.host (.setPgState .stopped)) trivial (lasting_working _)
  | vip =>
      exact release_works (.net .releaseVip) rfl (by simp) (by simp) (by simp [KeepsAttached])
        fun _ _ _ _ h => h
  | mount =>
      have hlight : (Mgr.disk .unmountDisk).Calls Light :=
        Prog.Calls.perform ⟨by simp [Call.acquires], by simp [KeepsAttached]⟩
      have hother : ∀ r, r ≠ .filesystem → acquiredBy r ≠ .mount := by
        intro r hr
        cases r <;> simp_all [acquiredBy]
      exact (keeps_working hlight).conseq during_monotone (fun _ => id)
        (fun _ _ => hdrop hother) fun _ => hdrop hother
  | _ =>
      refine .pure fun s hs => hdrop (fun r _ => ?_) hs
      cases r <;> simp [acquiredBy]

/-- The attach was the first step, and when it is undone last, nothing is held any more. -/
theorem undo_attach : EndsSound cfg (.thread .runSwitchoverAsStandby) (Working [.attach])
    (SwitchoverEngine.undo .attach) := by
  have hdetach : Prog.Triple (during cfg (.thread .runSwitchoverAsStandby)) (Working [.attach])
      (Mgr.disk .detachDisk) (fun _ => Free) Sound := by
    apply Prog.Triple.perform
    rintro s ⟨hattached, hcovered⟩ answer s' ⟨hnode, log, hperformed, hsilent⟩
    cases answer with
    | ok value =>
        have hcovered' : Covered [.attach] s' :=
          hcovered.step hnode fun r _ hop _ => by simp [Call.acquires] at hop
        refine free_of_covered (hcovered'.drop fun r _ hr => ?_)
        obtain rfl : r = .disk := by
          revert hr
          cases r <;> simp [acquiredBy]
        exact released_of_notSilent hnode hperformed hsilent rfl (by simp) (by simp)
    | error exc =>
        have hattached' : NotDetached s' := hattached.step hnode (by simp [KeepsAttached])
        exact hattached'.sound
  apply hdetach.bind during_monotone
  intro _
  exact endsSound_of_keeps (keeps_free (Prog.Calls.perform rfl)) fun _ => sound_of_free

/-- The rollback, by induction on the steps that have completed since the attach. -/
theorem rollbackPromotion_sound {later : List StepName} (hlater : .attach ∉ later) :
    EndsSound cfg (.thread .runSwitchoverAsStandby) (Working (later ++ [.attach]))
      (SwitchoverEngine.rollbackPromotion (later ++ [.attach])) := by
  induction later with
  | nil =>
      refine Prog.Triple.bind during_monotone (undo_attach.attempted during_monotone) fun _ => ?_
      exact .pure fun _ => id
  | cons name later ih =>
      rw [List.mem_cons, not_or] at hlater
      have hundo : Prog.Triple (during cfg (.thread .runSwitchoverAsStandby))
          (Working (name :: (later ++ [.attach]))) (SwitchoverEngine.undo name)
          (fun _ => Working (later ++ [.attach])) (Working (later ++ [.attach])) :=
        undo_works (Ne.symm hlater.1)
      exact Prog.Triple.bind during_monotone (hundo.attempted during_monotone) fun _ => ih hlater.2

/-- The loop of `execute_as_standby` on a disk that is attached, by induction on
the steps that are left. -/
theorem runStandbySteps_sound {later : List StepName} (hlater : .attach ∉ later)
    {rest : List (StepName × Mgr Unit)}
    (hsteps : ∀ step ∈ rest, step.1 ≠ .attach ∧ Works cfg step.1 step.2) :
    EndsSound cfg (.thread .runSwitchoverAsStandby) (Working (later ++ [.attach]))
      (SwitchoverEngine.runStandbySteps cfg (later ++ [.attach]) rest) := by
  induction rest generalizing later with
  | nil => exact .pure fun _ => Working.sound
  | cons step rest ih =>
      obtain ⟨hname, hworks⟩ := hsteps step List.mem_cons_self
      refine endsSound_after (by trivial) (lasting_working _) (fun _ => Working.sound) fun _ => ?_
      have hstep := hworks (later ++ [StepName.attach])
      apply (hstep.attempt during_monotone).bind during_monotone
      intro result
      cases result with
      -- the step is on the list of what a rollback undoes
      | ok _ =>
          have hlater' : .attach ∉ step.1 :: later := by simp [hname.symm, hlater]
          exact ih hlater' fun step hstep => hsteps step (List.mem_cons_of_mem _ hstep)
      -- everything on the list is undone, the disk last
      | error exc =>
          apply (emit_returns (lasting_working _) _ _).raising.bind during_monotone
          intro _
          apply (rollbackPromotion_sound hlater).bind during_monotone
          exact fun _ => .pure fun _ => id

/-- A promotion that cannot attach the disk holds nothing. -/
theorem stepAttachDisk_works : Prog.Triple (during cfg (.thread .runSwitchoverAsStandby)) Free
    (SwitchoverEngine.stepAttachDisk cfg) (fun _ => Working [.attach]) Free := by
  have hattach : Prog.Triple (during cfg (.thread .runSwitchoverAsStandby)) Free
      (Mgr.disk .attachDiskRw) (fun _ => Covered [.attach]) Free := by
    apply Prog.Triple.perform
    rintro s hs answer s' ⟨hnode, log, -, hallowed⟩
    cases answer with
    | ok value =>
        refine (covered_of_free hs).step hnode fun r _ hop _ => ?_
        obtain rfl : Resource.disk = r := Option.some.inj hop
        exact List.mem_cons_self
    | error exc =>
        exact free_of_held
          (fun r hr => (hnode.acquired r hr).elim id fun hop => hallowed r hop hr) hs
  -- recorded as attached before anything else can fail
  have hrecord : Returns cfg (.thread .runSwitchoverAsStandby) (Covered [.attach])
      (Mgr.host (.setDiskState .attachedRw)) fun _ => Working [.attach] := by
    apply Prog.Triple.perform
    rintro s hs answer s' ⟨hnode, -⟩
    obtain ⟨hanswer, hafter⟩ := hnode.daemon
    obtain rfl : answer = .ok () := hanswer
    refine ⟨?_, hs.step hnode fun r _ hop _ => by simp [Call.acquires] at hop⟩
    rw [NotDetached, hafter]
    simp
  have hlook : Prog.Keeps (during cfg (.thread .runSwitchoverAsStandby)) Free
      (Mgr.disk .currentRwHolder) := keeps_free (Prog.Calls.perform rfl)
  apply hlook.bind during_monotone
  intro holder
  apply Prog.Triple.ite
  · exact fun _ => .raise fun _ => id
  · exact fun _ => hattach.bind during_monotone fun _ => hrecord.raising

theorem standbySteps_sound : EndsSound cfg (.thread .runSwitchoverAsStandby) Free
    (SwitchoverEngine.runStandbySteps cfg [] (SwitchoverEngine.standbySteps cfg)) := by
  have hlasting : Lasting Free := fun _ _ hfewer hs => hfewer.free hs
  refine endsSound_after (by trivial) hlasting (fun _ => sound_of_free) fun _ => ?_
  apply (stepAttachDisk_works.attempt during_monotone).bind during_monotone
  intro result
  cases result with
  | ok _ =>
      have hnone : StepName.attach ∉ [] := by simp
      exact runStandbySteps_sound hnone laterSteps_work
  | error exc =>
      -- nothing has completed, and nothing is rolled back
      apply (emit_returns hlasting _ _).raising.bind during_monotone
      exact fun _ => .pure fun _ => sound_of_free

/-- A node that says STANDBY and DETACHED is free when its promotion starts. -/
theorem enter_free : Prog.Triple (during cfg (.thread .runSwitchoverAsStandby))
    (fun s => Sound s ∧ s.daemon.node.role = .standby)
    (Mgr.host (.mark (.enter .asStandby))) (fun _ => Free) Sound := by
  apply Prog.Triple.perform
  rintro s ⟨hs, hrole⟩ answer s' ⟨hnode, log, -, hdetached⟩
  have hfree : s'.Free := (hnode.fewer trivial).free (hs ⟨hrole, hdetached⟩)
  cases answer with
  | ok _ => exact hfree
  | error _ => exact sound_of_free hfree

theorem isStandby_sound : Prog.Triple (during cfg phase) Sound LocalNode.isStandby
    (fun standby s => Sound s ∧ (standby = true → s.daemon.node.role = .standby)) Sound := by
  have hrole : Prog.Triple (during cfg phase) Sound (Mgr.host .role)
      (fun role s => Sound s ∧ s.daemon.node.role = role) Sound := by
    apply Prog.Triple.perform
    rintro s hs answer s' ⟨hnode, -⟩
    obtain ⟨rfl, hafter⟩ := hnode.daemon
    refine ⟨lasting_sound s s' (hnode.fewer trivial) hs, ?_⟩
    rw [hafter]
    rfl
  apply hrole.bind during_monotone
  intro role
  apply Prog.Triple.pure
  rintro s ⟨hs, rfl⟩
  exact ⟨hs, fun hstandby => by simpa using hstandby⟩

end AsStandby

theorem runSwitchoverAsStandby_sound : EndsSound cfg (.thread .runSwitchoverAsStandby) Sound
    (PgHaDaemon.runSwitchoverAsStandby cfg) := by
  have hexecute : EndsSound cfg (.thread .runSwitchoverAsStandby) Sound
      (SwitchoverEngine.executeAsStandby cfg) := by
    apply isStandby_sound.bind during_monotone
    intro standby
    apply Prog.Triple.ite
    -- a node that is not STANDBY has nothing to report
    · exact fun _ => .pure fun _ h => h.1
    · intro hstandby
      have hsequence : EndsSound cfg (.thread .runSwitchoverAsStandby)
          (fun s => Sound s ∧ s.daemon.node.role = .standby) (inSequence .asStandby do
            if ← SwitchoverEngine.runStandbySteps cfg [] (SwitchoverEngine.standbySteps cfg) then
              emit cfg .switchoverCompleted s!"{cfg.cluster.nodeName} promoted to PRIMARY"
              pure true
            else
              pure false) := by
        -- the sequence starts on a free node, and records its end however it ends
        refine .bind during_monotone enter_free fun _ => Prog.Triple.ensuring during_monotone ?_
          (perform_of_idle (.host (.mark (.leave .asStandby))) trivial lasting_sound)
        apply standbySteps_sound.bind during_monotone
        intro succeeded
        apply keeps_of_idle _ lasting_sound
        exact .ite (.bind (idle_of_minor (emit_minor _ _ _)) fun _ => trivial) trivial
      exact hsequence.conseq during_monotone (fun _ h => ⟨h.1, h.2 (by simpa using hstandby)⟩)
        (fun _ _ => id) fun _ => id
  have hclear : Prog.Keeps (during cfg (.thread .runSwitchoverAsStandby)) Sound
      (Mgr.host (.setSwitchoverActive false)) :=
    perform_of_idle (.host (.setSwitchoverActive false)) trivial lasting_sound
  refine Prog.Triple.ensuring during_monotone ?_ hclear
  apply hexecute.bind during_monotone
  intro promoted
  apply keeps_of_idle _ lasting_sound
  exact .ite (idle_of_minor (PgHaDaemon.efmStart_minor cfg)) trivial

/-! ## Giving up the role -/

/-- The node has not given up its role, and it has released these resources. -/
def Handing (done : List Resource) (s : NodeWorld) : Prop :=
  NotStandby s ∧ ∀ r ∈ done, s.held r = false

theorem Handing.sound {done : List Resource} {s : NodeWorld} (h : Handing done s) : Sound s :=
  h.1.sound

theorem lasting_handing (done : List Resource) : Lasting (Handing done) := by
  intro s s' hfewer hs
  exact ⟨lasting_notStandby s s' hfewer hs.1, fun r hr => released_of_held hfewer.held (hs.2 r hr)⟩

/-- A release that releases. -/
theorem release_handing {done : List Resource} {op : Call} {r : Resource} (hop : op.idle)
    {s s' : NodeWorld} {answer : Except Exc op.Ret} (hstep : NodeStep s ⟨op, answer⟩ s')
    (hreleased : s'.held r = false) (hs : Handing done s) : Handing (r :: done) s' := by
  obtain ⟨hrole, hdone⟩ := lasting_handing done s s' (hstep.fewer hop) hs
  refine ⟨hrole, fun r' hr' => ?_⟩
  rcases List.mem_cons.mp hr' with rfl | hr'
  · exact hreleased
  · exact hdone r' hr'

/-- Once everything is released, the node may be STANDBY. -/
theorem demoted_free {done : List Resource} (hdisk : .disk ∈ done) (hvip : .vip ∈ done)
    (hpostgres : .postgres ∈ done) :
    Prog.Triple (during cfg phase) (Handing done) (Mgr.host (.setRole .standby)) (fun _ => Free)
      Sound := by
  apply Prog.Triple.perform
  intro s hs answer s' hstep
  obtain rfl : answer = .ok () := hstep.1.daemon.1
  exact free_of_held (hstep.1.held rfl) ⟨hs.2 _ hdisk, hs.2 _ hvip, hs.2 _ hpostgres⟩

/-- Only a primary goes past the role guard. -/
theorem isPrimary_handing : Prog.Triple (during cfg phase) Sound LocalNode.isPrimary
    (fun primary s => Sound s ∧ (primary = true → Handing [] s)) Sound := by
  have hrole : Prog.Triple (during cfg phase) Sound (Mgr.host .role)
      (fun role s => Sound s ∧ s.daemon.node.role = role) Sound := by
    apply Prog.Triple.perform
    intro s hs answer s' hstep
    obtain ⟨rfl, hafter⟩ := hstep.1.daemon
    refine ⟨lasting_sound s s' (hstep.1.fewer trivial) hs, ?_⟩
    rw [hafter]
    rfl
  apply hrole.bind during_monotone
  intro role
  apply Prog.Triple.pure
  rintro s ⟨hs, hsame⟩
  refine ⟨hs, fun hprimary => ⟨?_, by simp⟩⟩
  rw [NotStandby, hsame, beq_iff_eq.mp hprimary]
  simp

/-! ### The primary side of a switchover -/

section AsPrimary

variable {done done' : List Resource} {name : StepName} {step : Mgr Unit}
  {rest : List (StepName × Mgr Unit)}

/-- One pass of the loop of `execute_as_primary`. -/
theorem runPrimarySteps_cons
    (hstep : Prog.Triple (during cfg phase) (Handing done) step (fun _ => Handing done') Sound)
    (hrest : EndsSound cfg phase (Handing done') (SwitchoverEngine.runPrimarySteps cfg rest)) :
    EndsSound cfg phase (Handing done)
      (SwitchoverEngine.runPrimarySteps cfg ((name, step) :: rest)) := by
  refine endsSound_after (by trivial) (lasting_handing done) (fun _ => Handing.sound) fun _ => ?_
  apply (hstep.attempt during_monotone).bind during_monotone
  intro result
  cases result with
  | ok _ => exact hrest
  | error exc =>
      apply (emit_sound _ _).bind during_monotone
      exact fun _ => .pure fun _ => id

/-- A step that performs a release, and then nothing that matters. -/
theorem release_step {op : Call} {r : Resource} {next : op.Ret → Mgr Unit} (hop : op.idle)
    (hreleased : ∀ s s' value, phaseStep cfg (Allowed cfg) phase s ⟨op, .ok value⟩ s' →
      s'.held r = false)
    (hnext : ∀ value, Prog.Keeps (during cfg phase) (Handing (r :: done)) (next value)) :
    Prog.Triple (during cfg phase) (Handing done) ((Prog.perform op).bind next)
      (fun _ => Handing (r :: done)) Sound := by
  have hperform : Prog.Triple (during cfg phase) (Handing done) (Prog.perform op)
      (fun _ => Handing (r :: done)) Sound := by
    apply Prog.Triple.perform
    intro s hs answer s' hstep
    cases answer with
    | ok value => exact release_handing hop hstep.1 (hreleased s s' value hstep) hs
    | error exc => exact (lasting_handing done s s' (hstep.1.fewer hop) hs).sound
  apply hperform.bind during_monotone
  intro value
  exact (hnext value).conseq during_monotone (fun _ => id) (fun _ _ => id) fun _ => Handing.sound

theorem emit_handing (eventType : HaEventType) (message : String) :
    Prog.Keeps (during cfg phase) (Handing done) (emit cfg eventType message) :=
  keeps_of_idle (idle_of_minor (emit_minor cfg eventType message)) (lasting_handing done)

/-- The disk may be said to be detached while the node has its role. -/
theorem setDetached_handing :
    Prog.Keeps (during cfg phase) (Handing done) (Mgr.host (.setDiskState .detached)) := by
  apply Prog.Triple.perform
  intro s hs answer s' hstep
  have hafter : s'.daemon = s.daemon.after (.setDiskState .detached) := hstep.1.daemon.2
  have hhanding : Handing done s' := by
    refine ⟨?_, fun r hr => released_of_held (hstep.1.held rfl) (hs.2 r hr)⟩
    rw [NotStandby, hafter]
    exact hs.1
  cases answer <;> exact hhanding

theorem handing_of_idle {α : Type} {program : Mgr α} (hcalls : program.Calls Call.idle) :
    Prog.Triple (during cfg phase) (Handing done) program (fun _ => Handing done) Sound :=
  (keeps_of_idle hcalls (lasting_handing done)).conseq during_monotone (fun _ => id)
    (fun _ _ => id) fun _ => Handing.sound

theorem stepSignalPeer_idle : (SwitchoverEngine.stepSignalPeer cfg).Calls Call.idle :=
  .perform_bind trivial fun _ => .perform_bind trivial fun _ => .perform_bind trivial fun _ =>
    .bind (Prog.calls_ofExcept _) fun _ => .ite trivial trivial

theorem primarySteps_sound : EndsSound cfg (.thread .runSwitchover) (Handing [])
    (SwitchoverEngine.runPrimarySteps cfg (SwitchoverEngine.primarySteps cfg)) := by
  have hpreCheck : (SwitchoverEngine.stepPreCheck cfg).Calls Call.idle :=
    .perform_bind trivial fun now => idle_of_minor (SwitchoverEngine.pollPeer_minor cfg _ _)
  have hvip : Prog.Triple (during cfg (.thread .runSwitchover)) (Handing [])
      (SwitchoverEngine.stepReleaseVip cfg) (fun _ => Handing [.vip]) Sound :=
    release_step trivial (fun _ _ _ ⟨hnode, _, hperformed, hsilent⟩ =>
      released_of_notSilent hnode hperformed hsilent rfl (by simp) (by simp)) fun _ =>
        emit_handing _ _
  have hpostgres : Prog.Triple (during cfg (.thread .runSwitchover)) (Handing [.vip])
      SwitchoverEngine.stepStopPostgres (fun _ => Handing [.postgres, .vip]) Sound :=
    release_step trivial (fun _ _ _ ⟨hnode, _, hperformed, hsilent⟩ =>
      released_of_notSilent hnode hperformed hsilent rfl (by simp) (by simp)) fun _ =>
        perform_of_idle (.host (.setPgState .stopped)) trivial (lasting_handing _)
  have humount : (SwitchoverEngine.stepUmount).Calls Call.idle :=
    Prog.Calls.perform trivial
  have hdetach : Prog.Triple (during cfg (.thread .runSwitchover)) (Handing [.postgres, .vip])
      (SwitchoverEngine.stepDetachDisk cfg) (fun _ => Handing [.disk, .postgres, .vip]) Sound :=
    release_step trivial (fun _ _ _ ⟨hnode, _, hperformed, hsilent⟩ =>
      released_of_notSilent hnode hperformed hsilent rfl (by simp) (by simp)) fun _ =>
        setDetached_handing.after_keeps during_monotone (fun _ => emit_handing _ _) fun _ => id
  have hdemote : Prog.Triple (during cfg (.thread .runSwitchover))
      (Handing [.disk, .postgres, .vip]) (SwitchoverEngine.stepDemote cfg) (fun _ => Free)
      Sound := by
    apply (demoted_free (by simp) (by simp) (by simp)).bind during_monotone
    intro _
    apply (keeps_free _).conseq during_monotone (fun _ => id) (fun _ _ => id) fun _ => sound_of_free
    exact .perform_bind rfl fun _ => emit_calls (fun _ => rfl) _ _
  -- each step that succeeds adds to what has been released
  apply runPrimarySteps_cons (handing_of_idle hpreCheck)
  apply runPrimarySteps_cons hvip
  apply runPrimarySteps_cons hpostgres
  apply runPrimarySteps_cons (handing_of_idle humount)
  apply runPrimarySteps_cons hdetach
  apply runPrimarySteps_cons (handing_of_idle stepSignalPeer_idle)
  refine endsSound_after (by trivial) (lasting_handing _) (fun _ => Handing.sound) fun _ => ?_
  apply (hdemote.attempt during_monotone).bind during_monotone
  intro result
  cases result with
  | ok _ => exact .pure fun _ => sound_of_free
  | error exc => exact (emit_sound _ _).bind during_monotone fun _ => .pure fun _ => id

end AsPrimary

theorem runSwitchover_sound : EndsSound cfg (.thread .runSwitchover) Sound
    (PgHaDaemon.runSwitchover cfg) := by
  have hexecute : EndsSound cfg (.thread .runSwitchover) Sound
      (SwitchoverEngine.executeAsPrimary cfg) := by
    apply isPrimary_handing.bind during_monotone
    intro primary
    apply Prog.Triple.ite
    · intro _
      exact .pure fun _ h => h.1
    · intro hprimary
      have hbody : EndsSound cfg (.thread .runSwitchover) (Handing []) (inSequence .asPrimary do
          emit cfg .switchoverStarted "Planned switchover initiated on primary"
          if ← SwitchoverEngine.runPrimarySteps cfg (SwitchoverEngine.primarySteps cfg) then
            emit cfg .switchoverCompleted s!"{cfg.cluster.nodeName} demoted to STANDBY"
            pure true
          else
            pure false) := by
        -- a node that has not given up its role does not report STANDBY
        apply inSequence_sound (lasting_handing _) fun _ => Handing.sound
        apply (emit_handing _ _).after_keeps during_monotone _ fun _ => Handing.sound
        intro _
        apply primarySteps_sound.bind during_monotone
        intro succeeded
        apply keeps_of_idle _ lasting_sound
        exact .ite (.bind (idle_of_minor (emit_minor _ _ _)) fun _ => trivial) trivial
      exact hbody.conseq during_monotone (fun _ h => h.2 (by simpa using hprimary)) (fun _ _ => id)
        fun _ => id
  refine endsSound_after (by trivial) lasting_sound (fun _ => id) fun _ => ?_
  refine endsSound_after (by trivial) lasting_sound (fun _ => id) fun _ => ?_
  apply (keeps_of_idle (idle_of_minor (PgHaDaemon.efmStop_minor cfg)) lasting_sound).bind
    during_monotone
  intro _
  apply Prog.Triple.ensuring during_monotone
  · exact hexecute.bind during_monotone fun _ => .pure fun _ => id
  · refine endsSound_after (by trivial) lasting_sound (fun _ => id) fun now => ?_
    refine endsSound_after (by trivial) lasting_sound (fun _ => id) fun _ => ?_
    exact perform_of_idle _ (by trivial) lasting_sound

/-! ### Self-demotion -/

section SelfDemotion

variable {done done' : List Resource}

/-- An action of a self-demotion that releases its resource, however it ends. -/
theorem action_handing (op : Call) {r : Resource} (hop : op.idle)
    (hreleased : ∀ s s' answer, phaseStep cfg (Allowed cfg) phase s ⟨op, answer⟩ s' →
      s'.held r = false) :
    Prog.Triple (during cfg phase) (Handing done) (Prog.perform op)
      (fun _ => Handing (r :: done)) (Handing (r :: done)) := by
  apply Prog.Triple.perform
  intro s hs answer s' hstep
  have hhanding := release_handing hop hstep.1 (hreleased s s' answer hstep) hs
  cases answer <;> exact hhanding

theorem bestEffort_cons {action : Mgr Unit} {actions : List (Mgr Unit)}
    {P P' : NodeWorld → Prop} {Q : Unit → NodeWorld → Prop} {E : NodeWorld → Prop}
    (haction : Prog.Triple (during cfg phase) P action (fun _ => P') P')
    (hrest : Prog.Triple (during cfg phase) P' (PgHaDaemon.bestEffort actions) Q E)
    (hE : ∀ s, P' s → E s) :
    Prog.Triple (during cfg phase) P (PgHaDaemon.bestEffort (action :: actions)) Q E := by
  have hattempt : Prog.Triple (during cfg phase) P action.attempt (fun _ => P') E := by
    apply (haction.attempt during_monotone).conseq during_monotone (fun _ => id) _ hE
    intro result s h
    cases result <;> exact h
  exact hattempt.bind during_monotone fun _ => hrest

theorem bestEffort_handing : Prog.Triple (during cfg .selfDemotion) (Handing [])
    (PgHaDaemon.bestEffort (PgHaDaemon.demotionActions cfg))
    (fun _ => Handing [.disk, .postgres, .vip]) Sound := by
  have hvip : Prog.Triple (during cfg .selfDemotion) (Handing []) (Mgr.net .releaseVip)
      (fun _ => Handing [.vip]) (Handing [.vip]) :=
    action_handing _ trivial fun _ _ _ ⟨hnode, _, hperformed, hconfirmed⟩ =>
      released_of_confirmed hnode hperformed hconfirmed rfl (by simp) (by simp)
  -- `pg_ctl stop` may leave PostgreSQL running; then it is killed as a user of the mount
  have hstop : Prog.Keeps (during cfg .selfDemotion) (Handing [.vip])
      (Mgr.disk (.stopPostgres .immediate)) :=
    perform_of_idle (.disk (.stopPostgres .immediate)) trivial (lasting_handing _)
  have hkill : Prog.Triple (during cfg .selfDemotion) (Handing [.vip])
      (Mgr.host (.killMountUsers cfg.gcp.diskMountPoint)) (fun _ => Handing [.postgres, .vip])
      (Handing [.postgres, .vip]) :=
    action_handing _ trivial fun _ _ _ ⟨_, _, _, hkilled⟩ => hkilled
  have humount : Prog.Keeps (during cfg .selfDemotion) (Handing [.postgres, .vip])
      (Mgr.disk .unmountDisk) := perform_of_idle (.disk .unmountDisk) trivial (lasting_handing _)
  have hdetach : Prog.Triple (during cfg .selfDemotion) (Handing [.postgres, .vip])
      (Mgr.disk .detachDisk) (fun _ => Handing [.disk, .postgres, .vip])
      (Handing [.disk, .postgres, .vip]) :=
    action_handing _ trivial fun _ _ _ ⟨hnode, _, hperformed, hconfirmed⟩ =>
      released_of_confirmed hnode hperformed hconfirmed rfl (by simp) (by simp)
  apply bestEffort_cons hvip _ fun _ => Handing.sound
  apply bestEffort_cons hstop _ fun _ => Handing.sound
  apply bestEffort_cons hkill _ fun _ => Handing.sound
  apply bestEffort_cons humount _ fun _ => Handing.sound
  apply bestEffort_cons hdetach _ fun _ => Handing.sound
  exact .pure fun _ => id

end SelfDemotion

theorem selfDemotion_sound : EndsSound cfg .selfDemotion Sound
    (PgHaDaemon.selfDemoteAfterPgFailure cfg) := by
  apply isPrimary_handing.bind during_monotone
  intro primary
  apply Prog.Triple.ite
  · intro _
    exact .pure fun _ h => h.1
  · intro hprimary
    have hbody : EndsSound cfg .selfDemotion (Handing []) (inSequence .selfDemotion do
        PgHaDaemon.efmStop cfg
        PgHaDaemon.bestEffort (PgHaDaemon.demotionActions cfg)
        Mgr.host (.setRole .standby)
        Mgr.host (.setDiskState .detached)
        Mgr.host (.setPgState .stopped)
        Mgr.host (.setHealth .healthy)
        Mgr.host (.pgMonSetActive false)
        let now ← Mgr.host .time
        Mgr.host (.setLastDemotionTs now)
        let _ ← (PgHaDaemon.sendPgFailHandoff cfg).attempt
        pure ()) := by
      apply inSequence_sound (lasting_handing _) fun _ => Handing.sound
      apply (handing_of_idle (idle_of_minor (PgHaDaemon.efmStop_minor cfg))).bind during_monotone
      intro _
      apply bestEffort_handing.bind during_monotone
      intro _
      -- the actions are best effort, and the role is given up after them in any case
      apply (demoted_free (by simp) (by simp) (by simp)).bind during_monotone
      intro _
      apply endsSound_of_keeps (keeps_free _) fun _ => sound_of_free
      refine .perform_bind rfl fun _ => .perform_bind rfl fun _ => .perform_bind rfl fun _ =>
        .perform_bind rfl fun _ => .perform_bind rfl fun now => .perform_bind rfl fun _ =>
        .bind (.attempt ?_) fun _ => trivial
      refine .bind ?_ fun resp => .bind (Prog.calls_ofExcept _) fun _ => trivial
      exact .perform_bind rfl fun _ => .perform_bind rfl fun _ => Prog.Calls.perform rfl
    exact hbody.conseq during_monotone (fun _ h => h.2 (by simpa using hprimary)) (fun _ _ => id)
      fun _ => id

/-! ## Any sequence of phases -/

theorem phase_sound (phase : Phase) (hphase : phase ≠ .startup) :
    EndsSound cfg phase Sound (phase.program cfg) := by
  cases phase with
  | startup => exact absurd rfl hphase
  | thread task =>
      cases task with
      | runFailover skipFence => exact runFailover_sound skipFence
      | runSwitchover => exact runSwitchover_sound
      | runSwitchoverAsStandby => exact runSwitchoverAsStandby_sound
  | selfDemotion => exact selfDemotion_sound

theorem sound_of_ending {α : Type} {outcome : Outcome Exc α} {s : NodeWorld}
    (h : Prog.ending (fun _ => Sound) Sound outcome s) (hended : outcome ≠ .stuck) : Sound s := by
  cases outcome with
  | returned value => exact h
  | raised exc => exact h
  | stuck => exact absurd rfl hended

/-- What a daemon at rest reports as released, it has released, by induction on
the phases that it has gone through. -/
theorem sound_of_rests {s : NodeWorld} (h : Rests cfg (Allowed cfg) s) : Sound s := by
  induction h with
  | @start s hrole =>
      have hnot : NotStandby s := by
        rw [NotStandby, hrole]
        simp
      exact hnot.sound
  | @phase s s' phase trace outcome hrest hphase htrace hended hhistory ih =>
      by_cases hstart : phase = .startup
      · subst hstart
        have hnot : NotStandby s := by
          rw [NotStandby, hphase.mp rfl]
          simp
        exact sound_of_ending (Prog.trace_wp (startup_sound s hnot) htrace hhistory) hended
      · have hphase : EndsSound cfg phase Sound (phase.program cfg) := phase_sound phase hstart
        exact sound_of_ending (Prog.trace_wp (hphase s ih) htrace hhistory) hended
  | lose _ hfewer ih => exact lasting_sound _ _ hfewer ih

/-- **When a reported release is a release.**  After its startup and any
sequence of transitions, whatever the operations have answered, a node that
says that it is STANDBY and has detached the disk holds neither the disk nor
the address nor a running PostgreSQL, unless one of the branches that `Allowed`
excludes has been taken. -/
theorem free_of_reported {s : NodeWorld} (hrest : Rests cfg (Allowed cfg) s)
    (hreports : s.ReportsRelease) : s.Free :=
  sound_of_rests hrest hreports

/-! ## Sample runs -/

section Runs

/-- A cloud that names its operations and confirms them, and a `pg_ctl stop` that stops. -/
def confirming : (op : SysCall) → Holdings → Except Exc op.Ret × Holdings
  | .host (.run (.pgCtlStop ..)), s => (.ok ⟨0, "", ""⟩, { s with postgres := false })
  | op, s => stopTimesOut op s

theorem vipStep_confirming (s : Holdings) (op : SysCall) :
    vipStep .samplePrimary s.vip ⟨op, (confirming op s).1⟩ (confirming op s).2.vip := by
  unfold confirming
  split
  · exact ⟨id, rfl⟩
  · exact vipStep_stopTimesOut s op

theorem detachStep_confirming (s : Holdings) (op : SysCall) :
    Fencing.detachStep .samplePrimary "pg-primary" "us-central1-a" s.disk
      ⟨op, (confirming op s).1⟩ (confirming op s).2.disk := by
  unfold confirming
  split
  · exact ⟨id, rfl⟩
  · exact detachStep_stopTimesOut s op

theorem postgresStep_confirming (s : Holdings) (op : SysCall) :
    postgresStep s.postgres ⟨op, (confirming op s).1⟩ (confirming op s).2.postgres := by
  unfold confirming
  split
  · exact ⟨by simp, fun _ _ _ => rfl⟩
  · exact postgresStep_stopTimesOut s op

/-- An answer to the release of a resource that is not silent. -/
def loud (r : Resource) : Event SysCall.Ret Exc → Bool
  | ⟨.gcp (.getInstance ..), answer⟩ =>
      r != .disk || (Fencing.deviceIn .samplePrimary answer).isSome
  | ⟨.gcp (.updateNetworkInterface ..), .ok resp⟩ | ⟨.gcp (.detachDisk ..), .ok resp⟩ =>
      match resp.json with
      | .ok op => (nonempty? op.name).isSome
      | .error _ => false
  | ⟨.host (.run (.pgCtlStop ..)), .ok result⟩ => result.returncode == 0
  | _ => true

theorem not_silentRelease_of_loud {r : Resource} {log : List (Event SysCall.Ret Exc)}
    (h : log.all (loud r) = true) : ¬ SilentRelease .samplePrimary r log := by
  rintro ⟨event, hmem, hsilent⟩
  have hloud : loud r event = true := List.all_eq_true.mp h event hmem
  have hnamed {answer : Except Exc (Response Operation)}
      (hanswer : Fencing.detachedSilently answer) :
      ∃ resp op, answer = .ok resp ∧ resp.json = .ok op ∧ nonempty? op.name = none := by
    cases answer with
    | error exc => exact hanswer.elim
    | ok resp =>
        obtain ⟨-, op, hjson, hname⟩ := hanswer
        exact ⟨resp, op, rfl, hjson, hname⟩
  obtain ⟨op, answer⟩ := event
  unfold silentRelease at hsilent
  -- one case for each answer that can be silent
  split at hsilent
  next heq =>
    obtain ⟨rfl, hanswer⟩ := Event.mk.inj heq
    obtain rfl := eq_of_heq hanswer
    obtain ⟨resp, op, rfl, hjson, hname⟩ := hnamed hsilent
    simp [loud, hjson, hname] at hloud
  next heq =>
    obtain ⟨rfl, hanswer⟩ := Event.mk.inj heq
    obtain rfl := eq_of_heq hanswer
    obtain ⟨result, rfl, hcode⟩ := hsilent
    simp [loud, hcode] at hloud
  next =>
    unfold Fencing.silentEvent at hsilent
    split at hsilent
    next heq =>
      obtain ⟨rfl, hanswer⟩ := Event.mk.inj heq
      obtain rfl := eq_of_heq hanswer
      simp [loud, show Fencing.deviceIn .samplePrimary _ = none from hsilent.2.2] at hloud
    next heq =>
      obtain ⟨rfl, hanswer⟩ := Event.mk.inj heq
      obtain rfl := eq_of_heq hanswer
      obtain ⟨resp, op, rfl, hjson, hname⟩ := hnamed (by simpa using hsilent.2.2)
      simp [loud, hjson, hname] at hloud
    next => exact absurd hsilent.1 (by simp)
    next => exact hsilent
  next => exact hsilent

/-- What a node holds, for the single requests of an operation. -/
def holdings (held : Resource → Bool) : Holdings :=
  ⟨⟨held .vip, none⟩, held .postgres, [], ⟨held .disk, none⟩⟩

/-- The single requests and commands of an operation. -/
def requests (op : Call) (s : Holdings) : Run SysCall.Ret Exc op.Ret Holdings :=
  (managers .samplePrimary op).run confirming s

theorem history_requests (op : Call) (s : Holdings) :
    History (fun s event s' => vipStep .samplePrimary s.vip event s'.vip ∧
        postgresStep s.postgres event s'.postgres ∧
        Fencing.detachStep .samplePrimary "pg-primary" "us-central1-a" s.disk event s'.disk)
      s (requests op s).log (requests op s).final :=
  history_run (fun s op => ⟨vipStep_confirming s op, postgresStep_confirming s op,
    detachStep_confirming s op⟩) _ _

/-- What a node holds after an operation that has done its work. -/
def heldAfter (op : Call) (held : Resource → Bool) (r : Resource) : Bool :=
  decide (op.acquires = some r) || (held r && decide (op.releases ≠ some r))

theorem heldAfter_of_releases {op : Call} {r : Resource} (h : op.releases = some r)
    (held : Resource → Bool) : heldAfter op held r = false := by
  simp [heldAfter, h, Call.acquires_of_releases h]

theorem requests_releaseVip : ∀ vip postgres disk : Bool,
    let run := requests (.net .releaseVip) ⟨⟨vip, none⟩, postgres, [], ⟨disk, none⟩⟩
    run.outcome = .returned () ∧ run.final.vip.attached = false ∧
      (vip = true → run.log.all (loud .vip) = true) := by
  decide

theorem requests_detachDisk : ∀ vip postgres disk : Bool,
    let run := requests (.disk .detachDisk) ⟨⟨vip, none⟩, postgres, [], ⟨disk, none⟩⟩
    run.outcome = .returned () ∧ run.final.disk.attached = false ∧
      (disk = true → run.log.all (loud .disk) = true) := by
  decide

/-- A release of that node returns, and releases what the node holds. -/
theorem performedBy_requests (op : Call) (answer : Except Exc op.Ret) (held : Resource → Bool)
    (hanswer : op.releases ≠ none → ∃ value, answer = .ok value) :
    ∃ log, PerformedBy .samplePrimary held ⟨op, answer⟩ (heldAfter op held) log ∧
      ∀ r, op.releases = some r → held r = true → log.all (loud r) = true := by
  have hfinal {r : Resource} (hop : op.releases = some r) : heldAfter op held r = false :=
    heldAfter_of_releases hop held
  have htrace : (managers .samplePrimary op).Trace (requests op (holdings held)).log
      (requests op (holdings held)).outcome := trace_run _ _ _
  have hhistory := history_requests op (holdings held)
  -- only three operations release something by requests of their own
  cases op with
  | net call =>
      cases call with
      | releaseVip =>
          obtain ⟨value, rfl⟩ := hanswer (by simp [Call.releases])
          obtain ⟨houtcome, hvip, hloud⟩ :=
            requests_releaseVip (held .vip) (held .postgres) (held .disk)
          have houtcome : (requests (.net .releaseVip) (holdings held)).outcome =
              .returned () := houtcome
          rw [houtcome] at htrace
          refine ⟨_, ⟨htrace, _, _, rfl, hvip.trans (hfinal rfl).symm,
            hhistory.map (·.vip) fun _ _ _ _ h => h.1⟩, fun r hop hheld => ?_⟩
          obtain rfl : Resource.vip = r := Option.some.inj hop
          exact hloud hheld
      | acquireVip => exact ⟨[], trivial, fun _ _ _ => rfl⟩
  | disk call =>
      cases call with
      | detachDisk =>
          obtain ⟨value, rfl⟩ := hanswer (by simp [Call.releases])
          obtain ⟨houtcome, hdisk, hloud⟩ :=
            requests_detachDisk (held .vip) (held .postgres) (held .disk)
          have houtcome : (requests (.disk .detachDisk) (holdings held)).outcome =
              .returned () := houtcome
          rw [houtcome] at htrace
          refine ⟨_, ⟨htrace, _, _, rfl, hdisk.trans (hfinal rfl).symm,
            hhistory.map (·.disk) fun _ _ _ _ h => h.2.2⟩, fun r hop hheld => ?_⟩
          obtain rfl : Resource.disk = r := Option.some.inj hop
          exact hloud hheld
      | stopPostgres mode =>
          obtain ⟨value, rfl⟩ := hanswer (by simp [Call.releases])
          refine ⟨_, ⟨htrace, ?_⟩, fun r hop _ => rfl⟩
          rw [hfinal rfl]
          exact hhistory.map (·.postgres) fun _ _ _ _ h => h.2.1
      | _ => exact ⟨[], trivial, fun _ _ _ => rfl⟩
  | host call => exact ⟨[], trivial, fun _ _ _ => rfl⟩

/-- The disk is attached to the node itself, and every operation succeeds. -/
def diskReply : (call : DiskCall) → Except Exc call.Ret
  | .currentRwHolder => .ok (some "pg-primary")
  | .getInstanceStatus .. => .ok "RUNNING"
  | .forceDetachFromPeer | .attachDiskRw | .detachDisk | .mountDisk | .unmountDisk
  | .startPostgres | .stopPostgres _ => .ok ()

/-- A node on which operations do their work, except perhaps for the mount. -/
def obey (mounts : Bool) : (op : Call) → NodeWorld → Except Exc op.Ret × NodeWorld
  | .host call, s => (s.daemon.reply call, ⟨s.daemon.after call, heldAfter (.host call) s.held⟩)
  | .disk .mountDisk, s =>
      (if mounts then .ok () else .error (.runtimeError ""),
        ⟨s.daemon, heldAfter (.disk .mountDisk) s.held⟩)
  | .disk call, s => (diskReply call, ⟨s.daemon, heldAfter (.disk call) s.held⟩)
  | .net call, s => (.ok (), ⟨s.daemon, heldAfter (.net call) s.held⟩)

/-- Taking the failover lock is no part of any phase. -/
def takesLock : Call → Bool
  | .host (.acquireFailoverLock _) => true
  | _ => false

variable {mounts : Bool}

/-- A step of that node; its releases return, and are confirmed. -/
structure ObeyStep (s : NodeWorld) (event : Event Call.Ret Exc) (s' : NodeWorld) : Prop where
  node : NodeStep s event s'
  performed : ∃ log, PerformedBy .samplePrimary s.held event s'.held log ∧
    Confirmed .samplePrimary s event log
  released : ∀ r, event.op.releases = some r → s'.held r = false

theorem nodeStep_obey (s : NodeWorld) (op : Call) (hlock : takesLock op = false) :
    NodeStep s ⟨op, (obey mounts op s).1⟩ (obey mounts op s).2 := by
  have hacquired (r : Resource) (hr : heldAfter op s.held r = true) :
      s.held r = true ∨ op.acquires = some r := by
    simp only [heldAfter, Bool.or_eq_true, Bool.and_eq_true, decide_eq_true_eq] at hr
    exact hr.symm.imp_left fun h => h.1
  cases op with
  | host call =>
      refine ⟨⟨DaemonState.answers_reply _ _ ?_, rfl⟩, hacquired⟩
      rintro blocking rfl
      cases hlock
  | disk call => cases call <;> exact ⟨rfl, hacquired⟩
  | net call => exact ⟨rfl, hacquired⟩

theorem obeyStep_obey (s : NodeWorld) (op : Call) (hlock : takesLock op = false) :
    ObeyStep s ⟨op, (obey mounts op s).1⟩ (obey mounts op s).2 := by
  have hheld : (obey mounts op s).2.held = heldAfter op s.held := by
    rcases op with (_ | _ | _ | _ | _ | _ | _ | _ | _) | (_ | _) | call <;> rfl
  have hanswer (hop : op.releases ≠ none) : ∃ value, (obey mounts op s).1 = .ok value := by
    rcases op with (_ | _ | _ | _ | _ | _ | _ | _ | _) | (_ | _) | call
    case host =>
      cases call
      case killMountUsers => exact ⟨_, rfl⟩
      all_goals exact absurd rfl hop
    all_goals first | exact ⟨_, rfl⟩ | exact absurd rfl hop
  obtain ⟨log, hperformed, hloud⟩ := performedBy_requests op _ s.held hanswer
  refine ⟨nodeStep_obey s op hlock, ⟨log, hheld ▸ hperformed, fun r hop hr => ⟨?_, ?_⟩⟩, ?_⟩
  · exact hanswer (by simp [show op.releases = some r from hop])
  · exact not_silentRelease_of_loud (hloud r hop hr)
  · intro r hop
    rw [hheld]
    exact heldAfter_of_releases hop _

/-- A phase of that node's daemon, from a given state. -/
def phaseRun (mounts : Bool) (phase : Phase) (s : NodeWorld) :
    Run Call.Ret Exc Unit NodeWorld :=
  (phase.program .samplePrimary).run (obey mounts) s

theorem rests_phaseRun {allowed : Condition} {phase : Phase} {s : NodeWorld}
    (hrest : Rests .samplePrimary allowed s)
    (hphase : phase = .startup ↔ s.daemon.node.role = .unknown)
    (hended : (phaseRun mounts phase s).outcome ≠ .stuck)
    (hlock : (phaseRun mounts phase s).log.all (fun event => !takesLock event.op) = true)
    (hallowed : ∀ event ∈ (phaseRun mounts phase s).log, ∀ s log s',
      Confirmed .samplePrimary s event log → (∀ r, event.op.releases = some r → s'.held r = false) →
        allowed phase s event log s') :
    Rests .samplePrimary allowed (phaseRun mounts phase s).final := by
  apply Rests.phase hrest hphase (trace_run _ _ _) hended
  have hobeys (s : NodeWorld) (op : Call) (hop : (!takesLock op) = true) :
      ObeyStep s ⟨op, (obey mounts op s).1⟩ (obey mounts op s).2 :=
    obeyStep_obey s op (by simpa using hop)
  have hhistory : History ObeyStep s (phaseRun mounts phase s).log
      (phaseRun mounts phase s).final := history_run_of_log hobeys _ _ hlock
  apply hhistory.map id
  intro event hmem s₁ s₂ hstep
  obtain ⟨log, hperformed, hconfirmed⟩ := hstep.performed
  exact ⟨hstep.node, log, hperformed, hallowed event hmem s₁ log s₂ hconfirmed hstep.released⟩

/-- An answer of a startup whose node is told that it has the disk, and takes over. -/
def smooth : Event Call.Ret Exc → Bool
  | ⟨.disk .currentRwHolder, .ok holder⟩ => holder == some "pg-primary"
  | ⟨.disk .attachDiskRw, .ok _⟩ | ⟨.disk .mountDisk, .ok _⟩ | ⟨.disk .startPostgres, .ok _⟩
  | ⟨.net .acquireVip, .ok _⟩ | ⟨.host _, _⟩ => true
  | _ => false

theorem allowed_startup {s s' : NodeWorld} {event : Event Call.Ret Exc}
    {log : List (Event SysCall.Ret Exc)} (h : smooth event = true) :
    Allowed .samplePrimary .startup s event log s' := by
  unfold smooth at h
  split at h
  · obtain rfl := beq_iff_eq.mp h
    exact ⟨fun _ => rfl, fun hnot => absurd rfl hnot⟩
  all_goals first | exact trivial | exact rfl | cases h

theorem allowed_selfDemotion {s s' : NodeWorld} {event : Event Call.Ret Exc}
    {log : List (Event SysCall.Ret Exc)} (hconfirmed : Confirmed .samplePrimary s event log)
    (hreleased : ∀ r, event.op.releases = some r → s'.held r = false) :
    Allowed .samplePrimary .selfDemotion s event log s' := by
  unfold Allowed
  split <;> first | trivial | exact hconfirmed | exact hreleased _ rfl

/-- Before its startup, the node has the disk and nothing else. -/
def beforeStartup : NodeWorld where
  daemon := ⟨{ name := "pg-primary" }, 0, 0, "UNKNOWN", false, false, 0⟩
  held := fun r => r == .disk

end Runs

/-- A startup as PRIMARY, and a self-demotion, in which everything works. -/
def selfDemoted : NodeWorld :=
  (phaseRun true .selfDemotion (phaseRun true .startup beforeStartup).final).final

theorem rests_selfDemoted : Rests .samplePrimary (Allowed .samplePrimary) selfDemoted := by
  have hstarted : Rests .samplePrimary (Allowed .samplePrimary)
      (phaseRun true .startup beforeStartup).final := by
    apply rests_phaseRun (.start rfl) (by decide) (by decide) (by decide)
    intro event hmem s log s' _ _
    have hsmooth : (phaseRun true .startup beforeStartup).log.all smooth = true := by decide
    exact allowed_startup (List.all_eq_true.mp hsmooth event hmem)
  apply rests_phaseRun hstarted (by decide) (by decide) (by decide)
  exact fun event _ s log s' => allowed_selfDemotion

theorem free_of_reported_selfDemoted : selfDemoted.Free :=
  free_of_reported rests_selfDemoted ⟨by decide, by decide⟩

/-- The startup of a node that holds the disk and cannot mount it. -/
def fellBack : NodeWorld := (phaseRun false .startup beforeStartup).final

/-- The election falls back to STANDBY and DETACHED with the disk attached. -/
theorem not_free_of_reported : ¬ ∀ cfg s, Rests cfg (fun _ _ _ _ _ => True) s →
    s.ReportsRelease → s.Free := by
  intro h
  have hrests : Rests .samplePrimary (fun _ _ _ _ _ => True) fellBack := by
    apply rests_phaseRun (.start rfl) (by decide) (by decide) (by decide)
    exact fun _ _ _ _ _ _ _ => trivial
  have hfree := h .samplePrimary fellBack hrests ⟨by decide, by decide⟩
  exact absurd hfree.1 (by decide)

end PgHa.ReportedRelease
