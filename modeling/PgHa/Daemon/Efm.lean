import PgHa.Cluster.ReportedRelease

/-!
# Where EFM runs

EFM is to run where PostgreSQL runs, on the PRIMARY.  The daemon starts and
stops the service in five places: after the startup election, after a failover
or a promotion that has succeeded, and before a switchover or a self-demotion.
This file follows one daemon through its startup and any sequence of these,
whatever the operations answer, while every `systemctl` command takes effect.

`_run_switchover` stops the service before anything else.  When the switchover
then fails, the node is still PRIMARY and nothing starts the service again.
`HandsOver` is what a switchover needs so as not to fail: `handsOver_iff` says
that a switchover of a PRIMARY restores the rule exactly then, and
`running_iff_primary` that nothing else breaks it.
-/

namespace PgHa.EfmService

open Effect ReportedRelease

variable {cfg : Config}

/-- The daemon, and whether the service runs on its node. -/
structure EfmWorld where
  daemon : DaemonState
  running : Bool

/-- A `systemctl` command for the service. -/
def systemctl (cfg : Config) (verb : List String) : Call :=
  .host (.run (.systemctl verb cfg.efm.serviceName))

/-- What becomes of the service: a command takes effect whatever it answers. -/
def efmAfter (cfg : Config) (op : Call) (running : Bool) : Bool :=
  if op = systemctl cfg ["start"] then true
  else if op = systemctl cfg ["stop"] ∨ op = systemctl cfg ["kill", "-s", "SIGKILL"] then false
  else running

/-- An operation of a thread that runs alone.  The service may be among the users of the
mount that are killed. -/
structure EfmStep (cfg : Config) (s : EfmWorld) (event : Event Call.Ret Exc) (s' : EfmWorld) :
    Prop where
  daemon : DaemonState.alone s.daemon event s'.daemon
  running : s'.running = efmAfter cfg event.op s.running ∨
    s'.running = false ∧ ∃ mountPt, event.op = .host (.killMountUsers mountPt)

/-! ## Runs of the daemon -/

/-- The states after startup in which no sequence is in progress: the startup has returned,
and any sequences have ended.  In between, the rest of the daemon leaves the role and the
service alone. -/
inductive Rests (cfg : Config)
    (meets : Phase → NodeRole → List (Event Call.Ret Exc) → Prop) : EfmWorld → Prop
  | startup {s s' : EfmWorld} {trace : List (Event Call.Ret Exc)}
      (htrace : (PgHaDaemon.startup cfg).Trace trace (.returned ()))
      (hhistory : History (EfmStep cfg) s trace s') : Rests cfg meets s'
  | phase {s s' : EfmWorld} {phase : Phase} {trace : List (Event Call.Ret Exc)}
      {outcome : Outcome Exc Unit} (hrest : Rests cfg meets s) (hphase : phase ≠ .startup)
      (htrace : (phase.program cfg).Trace trace outcome) (hended : outcome ≠ .stuck)
      (hmeets : meets phase s.daemon.node.role trace)
      (hhistory : History (EfmStep cfg) s trace s') : Rests cfg meets s'
  | between {s s' : EfmWorld} (hrest : Rests cfg meets s)
      (hrole : s'.daemon.node.role = s.daemon.node.role) (hrunning : s'.running = s.running) :
      Rests cfg meets s'

/-- The peer accepts the connection of the pre-check. -/
def reaches : Event Call.Ret Exc → Bool
  | ⟨.host (.createConnection _ _ timeout), answer⟩ => timeout == 3000 && answer.isOk
  | _ => false

/-- The peer's reply is the acceptance. -/
def accepts : Except Exc PeerReply → Bool
  | .ok resp =>
      match SwitchoverEngine.jsonGet resp.value "cmd" with
      | .ok cmd => SwitchoverEngine.isText cmd SwitchoverEngine.cmdSwitchoverAccept
      | .error _ => false
  | .error _ => false

/-- A release that raises, or a peer that does not take the request. -/
def refuses : Event Call.Ret Exc → Bool
  | ⟨.net .releaseVip, answer⟩ => !answer.isOk
  | ⟨.disk (.stopPostgres _), answer⟩ => !answer.isOk
  | ⟨.disk .unmountDisk, answer⟩ => !answer.isOk
  | ⟨.disk .detachDisk, answer⟩ => !answer.isOk
  | ⟨.host (.createConnection _ _ timeout), answer⟩ =>
      timeout == SwitchoverEngine.mgmtTimeoutMillis && !answer.isOk
  | ⟨.host (.sendRequest _), answer⟩ => !answer.isOk
  | ⟨.host .recvReply, answer⟩ => !accepts answer
  | _ => false

/-- What a switchover is answered when it goes through: the peer is reached before the
deadline of the pre-check, the releases return, and the peer then takes the request. -/
def HandsOver (trace : List (Event Call.Ret Exc)) : Prop :=
  trace.any reaches = true ∧ trace.any refuses = false

/-- A switchover of a PRIMARY goes through; nothing is asked of the other sequences. -/
def Completes : Phase → NodeRole → List (Event Call.Ret Exc) → Prop
  | .thread .runSwitchover, .primary, trace => HandsOver trace
  | _, _, _ => True

/-! ## What operations leave alone -/

/-- The state that the triples speak of, with the events so far. -/
abbrev Logged := EfmWorld × List (Event Call.Ret Exc)

abbrev during (cfg : Config) : Transformer Call.Ret Exc Logged := demonic (logged (EfmStep cfg))

theorem during_monotone : (during cfg).Monotone := demonic_monotone _

/-- The operations that change neither the role nor the service. -/
def Leaves : Call → Prop
  | .host (.setRole _) | .host (.run _) | .host (.killMountUsers _) => False
  | _ => True

/-- The operations, among these, of which a hand-over says nothing. -/
def Still : Call → Prop
  | .host (.setRole _) | .host (.run _) | .host (.killMountUsers _) => False
  | .host (.createConnection ..) | .host (.sendRequest _) | .host .recvReply => False
  | .host _ => True
  | _ => False

theorem leaves_of_still {op : Call} (h : Still op) : Leaves op := by
  unfold Leaves
  split <;> trivial

section Steps

variable {s s' : EfmWorld} {event : Event Call.Ret Exc}

/-- Only its setter changes the role. -/
theorem EfmStep.role (h : EfmStep cfg s event s')
    (hop : ∀ role, event.op ≠ .host (.setRole role)) :
    s'.daemon.node.role = s.daemon.node.role := by
  obtain ⟨op, answer⟩ := event
  cases op with
  | disk call => exact congrArg (·.node.role) (show s'.daemon = s.daemon from h.daemon)
  | net call => exact congrArg (·.node.role) (show s'.daemon = s.daemon from h.daemon)
  | host call =>
      have hafter : s'.daemon = s.daemon.after call := h.daemon.2
      rw [hafter]
      apply DaemonState.after_role
      rintro role rfl
      exact hop role rfl

theorem EfmStep.role_of_leaves (h : EfmStep cfg s event s') (hop : Leaves event.op) :
    s'.daemon.node.role = s.daemon.node.role := by
  apply h.role
  intro role hset
  rw [hset] at hop
  exact hop

theorem EfmStep.running_of_leaves (h : EfmStep cfg s event s') (hop : Leaves event.op) :
    s'.running = s.running := by
  rcases h.running with hsame | ⟨-, mountPt, hkill⟩
  · rw [hsame, efmAfter, if_neg, if_neg]
    · rintro (hstop | hkill)
      · rw [hstop] at hop
        exact hop
      · rw [hkill] at hop
        exact hop
    · intro hstart
      rw [hstart] at hop
      exact hop
  · rw [hkill] at hop
    exact hop.elim

/-- Nothing but the start of the service makes it run. -/
theorem EfmStep.down (h : EfmStep cfg s event s') (hop : ∀ command, event.op ≠ .host (.run command))
    (hdown : s.running = false) : s'.running = false := by
  rcases h.running with hsame | ⟨hkilled, -⟩
  · simp only [hsame, efmAfter, systemctl, hop, or_self, if_false]
    exact hdown
  · exact hkilled

end Steps

/-- An assertion about the role and the service. -/
def OfNode (P : Logged → Prop) : Prop :=
  ∀ s s' : Logged, s'.1.daemon.node.role = s.1.daemon.node.role → s'.1.running = s.1.running →
    P s → P s'

/-- An assertion about the role, the service and the hand-over. -/
def OfRun (P : Logged → Prop) : Prop :=
  ∀ s s' : Logged, s'.1.daemon.node.role = s.1.daemon.node.role → s'.1.running = s.1.running →
    s'.2.any reaches = s.2.any reaches → s'.2.any refuses = s.2.any refuses → P s → P s'

/-- An assertion that an operation keeps. -/
def Survives (cfg : Config) (P : Logged → Prop) (op : Call) : Prop :=
  ∀ s answer s', logged (EfmStep cfg) s ⟨op, answer⟩ s' → P s → P s'

section Assertions

variable {P Q E : Logged → Prop} {α : Type} {program : Mgr α}

theorem OfNode.survives (hP : OfNode P) {op : Call} (hop : Leaves op) : Survives cfg P op :=
  fun s _ s' hstep => hP s s' (hstep.1.role_of_leaves hop) (hstep.1.running_of_leaves hop)

theorem any_append_of_false {test : Event Call.Ret Exc → Bool} {log : List (Event Call.Ret Exc)}
    {event : Event Call.Ret Exc} (h : test event = false) :
    (log ++ [event]).any test = log.any test := by
  simp [h]

theorem still_silent {op : Call} (hop : Still op) (answer : Except Exc op.Ret) :
    reaches ⟨op, answer⟩ = false ∧ refuses ⟨op, answer⟩ = false := by
  cases op with
  | disk call => exact hop.elim
  | net call => exact hop.elim
  | host call => cases call <;> first | exact ⟨rfl, rfl⟩ | exact hop.elim

theorem OfRun.survives (hP : OfRun P) {op : Call} (hop : Still op) : Survives cfg P op := by
  intro s answer s' hstep
  have hleaves := leaves_of_still hop
  apply hP s s' (hstep.1.role_of_leaves hleaves) (hstep.1.running_of_leaves hleaves)
  · rw [hstep.2]
    exact any_append_of_false (still_silent hop answer).1
  · rw [hstep.2]
    exact any_append_of_false (still_silent hop answer).2

theorem keeps_of_survives {allowed : Call → Prop} (hkeep : ∀ op, allowed op → Survives cfg P op)
    (hcalls : program.Calls allowed) : Prog.Keeps (during cfg) P program :=
  .of_calls during_monotone (fun op hop s hs answer s' hstep => hkeep op hop s answer s' hstep hs)
    hcalls

theorem OfNode.keeps (hP : OfNode P) (hcalls : program.Calls Leaves) :
    Prog.Keeps (during cfg) P program :=
  keeps_of_survives (fun _ => hP.survives) hcalls

theorem OfRun.keeps (hP : OfRun P) (hcalls : program.Calls Still) :
    Prog.Keeps (during cfg) P program :=
  keeps_of_survives (fun _ => hP.survives) hcalls

/-- An operation of the host that does not raise. -/
theorem sure_triple {call : HostCall} (hkeep : Survives cfg P (.host call))
    (hsure : ∀ (s : DaemonState) answer, s.Answers call answer → ∃ value, answer = .ok value) :
    Prog.Triple (during cfg) P (Mgr.host call) (fun _ => P) E := by
  apply Prog.Triple.perform
  intro s hs answer s' hstep
  obtain ⟨value, rfl⟩ := hsure s.1.daemon answer hstep.1.daemon.1
  exact hkeep s _ s' hstep hs

/-- An event is put, or dropped. -/
theorem emit_triple (hkeep : ∀ event, Survives cfg P (.host (.putEvent event)))
    (eventType : HaEventType) (message : String) :
    Prog.Triple (during cfg) P (emit cfg eventType message) (fun _ => P) E := by
  intro s hs
  rw [emit, Prog.wp_except, Prog.wp_perform]
  intro answer s' hstep
  have hP := hkeep _ s answer s' hstep hs
  cases answer with
  | ok _ => exact hP
  | error exc =>
      have hfull : exc.cls = .queueFull := hstep.1.daemon.1 exc rfl
      rw [Prog.answered_error, Prog.handled_raised, if_pos hfull]
      exact hP

/-- A sequence between its marks. -/
theorem inSequence_triple {sequence : Sequence} {Q : α → Logged → Prop}
    (hP : ∀ mark, Survives cfg P (.host (.mark mark)))
    (hQ : ∀ value mark, Survives cfg (Q value) (.host (.mark mark)))
    (hE : ∀ mark, Survives cfg E (.host (.mark mark)))
    (hbody : Prog.Triple (during cfg) P program Q E) :
    Prog.Triple (during cfg) P (inSequence sequence program) Q E := by
  apply (sure_triple (hP _) (by simp)).bind during_monotone
  intro _
  apply hbody.ensuring_each during_monotone
  · exact fun value => sure_triple (hQ value _) (by simp)
  · exact sure_triple (hE _) (by simp)

end Assertions

/-! ## The service -/

/-- An assertion that does not speak of the service. -/
def Aside (P : Logged → Prop) : Prop :=
  ∀ s s' : Logged, s'.1.daemon.node.role = s.1.daemon.node.role →
    s'.2.any reaches = s.2.any reaches → s'.2.any refuses = s.2.any refuses → P s → P s'

/-- A command is run, whatever it answers. -/
theorem run_step {s s' : Logged} {command : Command}
    {answer : Except Exc (HostCall.run command).Ret}
    (hstep : logged (EfmStep cfg) s ⟨.host (.run command), answer⟩ s') {P : Logged → Prop}
    (hP : Aside P) (hs : P s) :
    P s' ∧ s'.1.running = efmAfter cfg (.host (.run command)) s.1.running := by
  refine ⟨hP s s' (hstep.1.role (by simp)) ?_ ?_ hs, ?_⟩
  · rw [hstep.2]
    exact any_append_of_false rfl
  · rw [hstep.2]
    exact any_append_of_false rfl
  · rcases hstep.1.running with hsame | ⟨-, mountPt, hkill⟩
    · exact hsame
    · cases hkill

/-- What holds after a command, whether it raises or not. -/
theorem command_triple {command : Command} {P Q R : Logged → Prop} (hP : Aside P)
    (hQ : ∀ s, Q s → P s)
    (hR : ∀ s s', Q s → P s' →
      s'.1.running = efmAfter cfg (.host (.run command)) s.1.running → R s') :
    Prog.Triple (during cfg) Q (Mgr.host (.run command)) (fun _ => R) R := by
  apply Prog.Triple.perform
  intro s hs answer s' hstep
  obtain ⟨hP', hrunning⟩ := run_step hstep hP (hQ s hs)
  have hend : R s' := hR s s' hs hP' hrunning
  cases answer <;> exact hend

section Service

variable (hefm : cfg.efm.enabled = true) {P : Logged → Prop} (hP : Aside P) {E : Logged → Prop}
include hefm hP

theorem efmStart_triple : Prog.Triple (during cfg) P (PgHaDaemon.efmStart cfg)
    (fun _ s => P s ∧ s.1.running = true) E := by
  rw [PgHaDaemon.efmStart, if_pos hefm]
  have hstart : Prog.Triple (during cfg) P
      (Mgr.host (.run (.systemctl ["start"] cfg.efm.serviceName)))
      (fun _ s => P s ∧ s.1.running = true) fun s => P s ∧ s.1.running = true := by
    apply command_triple hP fun _ => id
    intro s s' _ hP' hrunning
    exact ⟨hP', by simp [hrunning, efmAfter, systemctl]⟩
  exact (hstart.attempted during_monotone).bind during_monotone fun _ => .pure fun _ => id

theorem efmStop_triple : Prog.Triple (during cfg) P (PgHaDaemon.efmStop cfg)
    (fun _ s => P s ∧ s.1.running = false) E := by
  rw [PgHaDaemon.efmStop, if_pos hefm]
  let Stopped (s : Logged) : Prop := P s ∧ s.1.running = false
  have hstop : Prog.Triple (during cfg) P
      (Mgr.host (.run (.systemctl ["stop"] cfg.efm.serviceName))) (fun _ => Stopped) Stopped := by
    apply command_triple hP fun _ => id
    intro s s' _ hP' hrunning
    exact ⟨hP', by simp [hrunning, efmAfter, systemctl]⟩
  -- neither the check nor the signal starts the service again
  have hlater (verb : List String) (hverb : verb ≠ ["start"]) : Prog.Keeps (during cfg) Stopped
      (Mgr.host (.run (.systemctl verb cfg.efm.serviceName))) := by
    apply command_triple hP fun _ => And.left
    intro s s' hs hP' hrunning
    exact ⟨hP', by simp [hrunning, efmAfter, systemctl, hverb, hs.2]⟩
  apply (hstop.attempted during_monotone).bind during_monotone
  intro _
  have hcheck : Prog.Keeps (during cfg) Stopped (do
      let result ← Mgr.host (.run (.systemctl ["is-active"] cfg.efm.serviceName))
      if strip result.stdout = "active" then
        let _ ← Mgr.host (.run (.systemctl ["kill", "-s", "SIGKILL"] cfg.efm.serviceName))
        pure ()) := by
    apply (hlater ["is-active"] (by decide)).bind during_monotone
    intro result
    apply Prog.Triple.ite
    · intro _
      apply (hlater ["kill", "-s", "SIGKILL"] (by decide)).bind during_monotone
      exact fun _ => .pure fun _ => id
    · exact fun _ => .pure fun _ => id
  exact (hcheck.attempted during_monotone).bind during_monotone fun _ => .pure fun _ => id

end Service

/-! ## Startup -/

/-- The service runs exactly on a PRIMARY. -/
def Tidy (s : Logged) : Prop := s.1.running = true ↔ s.1.daemon.node.role = .primary

def HasRole (role : NodeRole) (s : Logged) : Prop := s.1.daemon.node.role = role

/-- The service does not run, on a node that is not PRIMARY. -/
structure Retired (s : Logged) : Prop where
  role : s.1.daemon.node.role ≠ .primary
  down : s.1.running = false

theorem Retired.tidy {s : Logged} (h : Retired s) : Tidy s :=
  iff_of_false (by simp [h.down]) h.role

theorem ofNode_tidy : OfNode Tidy := by
  intro s s' hrole hrunning hs
  rw [Tidy, hrole, hrunning]
  exact hs

theorem ofNode_retired : OfNode Retired := by
  intro s s' hrole hrunning hs
  exact ⟨hrole ▸ hs.role, hrunning ▸ hs.down⟩

theorem ofNode_hasRole (role : NodeRole) : OfNode (HasRole role) := by
  intro s s' hrole _ hs
  exact hrole.trans hs

theorem aside_hasRole (role : NodeRole) : Aside (HasRole role) := by
  intro s s' hrole _ _ hs
  exact hrole.trans hs

theorem aside_other (role : NodeRole) : Aside fun s => ¬ HasRole role s := by
  intro s s' hrole _ _ hs
  rw [HasRole, hrole]
  exact hs

/-- Its setter does not raise. -/
theorem setRole_step {s s' : Logged} {role : NodeRole}
    {answer : Except Exc (HostCall.setRole role).Ret}
    (hstep : logged (EfmStep cfg) s ⟨.host (.setRole role), answer⟩ s') :
    answer = .ok () ∧ HasRole role s' := by
  obtain ⟨hanswer, hafter⟩ := hstep.1.daemon
  refine ⟨hanswer, ?_⟩
  rw [HasRole, hafter]
  rfl

theorem setRole_triple (role : NodeRole) {P E : Logged → Prop} :
    Prog.Triple (during cfg) P (Mgr.host (.setRole role)) (fun _ => HasRole role) E := by
  apply Prog.Triple.perform
  intro s _ answer s' hstep
  obtain ⟨rfl, hrole⟩ := setRole_step hstep
  exact hrole

section Startup

/-- Of a startup that raises nothing is said: the daemon ends. -/
abbrev Elects (cfg : Config) (program : Mgr NodeRole) : Prop :=
  Prog.Triple (during cfg) (fun _ => True) program HasRole fun _ => True

theorem OfNode.leaving {P Q : Logged → Prop} (hP : OfNode P) {α : Type} {program : Mgr α}
    (hcalls : program.Calls Leaves) (hQ : ∀ s, P s → Q s) :
    Prog.Triple (during cfg) P program (fun _ => Q) fun _ => True :=
  (hP.keeps hcalls).conseq during_monotone (fun _ => id) (fun _ => hQ) fun _ _ => trivial

theorem ofNode_true : OfNode fun _ => True := fun _ _ _ _ => id

/-- A program whose first operation changes neither the role nor the service. -/
theorem elects_after {α : Type} {first : Mgr α} {next : α → Mgr NodeRole}
    (hfirst : first.Calls Leaves) (rest : ∀ value, Elects cfg (next value)) :
    Elects cfg (first.bind next) :=
  (ofNode_true.leaving hfirst fun _ => id).bind during_monotone rest

/-- Once the role has been set, the election only returns it. -/
theorem settled_elects {role : NodeRole} {program : Mgr NodeRole} (hcalls : program.Calls Leaves)
    (hyields : program.Yields (· = role)) :
    Prog.Triple (during cfg) (HasRole role) program HasRole fun _ => True := by
  have hkeep : ∀ op, Leaves op → ∀ s, HasRole role s →
      during cfg op (fun _ s' => HasRole role s') s :=
    fun op hop s hs answer s' hstep => (ofNode_hasRole role).survives hop s answer s' hstep hs
  intro s hs
  apply Prog.wp_of_calls_of_yields during_monotone hkeep hcalls hyields hs
  intro outcome s' hend hvalue
  cases outcome with
  | returned value =>
      obtain rfl : value = role := hvalue value rfl
      exact hend
  | raised exc => trivial
  | stuck => trivial

theorem becomeStandby_elects : Elects cfg ElectionManager.becomeStandby := by
  apply (setRole_triple .standby).bind during_monotone
  intro _
  apply settled_elects
  · exact .perform_bind trivial fun _ => .perform_bind trivial fun _ =>
      .perform_bind trivial fun _ => trivial
  · exact .bind _ fun _ => .bind _ fun _ => .bind _ fun _ => rfl

theorem takeOver_elects : Elects cfg (ElectionManager.takeOver false) := by
  have hdisk (call : DiskCall) : (Mgr.disk call).Calls Leaves := Prog.Calls.perform trivial
  have hvip : (Mgr.net .acquireVip).Calls Leaves := Prog.Calls.perform trivial
  refine elects_after (hdisk .mountDisk) fun _ => elects_after (hdisk .startPostgres) fun _ => ?_
  apply elects_after hvip
  intro _
  apply (setRole_triple .primary).bind during_monotone
  intro _
  apply settled_elects
  · exact .perform_bind trivial fun _ => .perform_bind trivial fun _ =>
      .perform_bind trivial fun _ => trivial
  · exact .bind _ fun _ => .bind _ fun _ => .bind _ fun _ => rfl

theorem becomePrimary_elects : Elects cfg (ElectionManager.becomePrimary false) := by
  apply takeOver_elects.except during_monotone
  intro exc
  -- after the rollback the node is STANDBY, whatever the rollback could undo
  have hhealth : (Mgr.host (.setHealth .failed)).Calls Leaves :=
    Prog.Calls.perform trivial
  have hrollback : ElectionManager.rollbackPrimary.Calls Leaves :=
    .bind (.attempt (Prog.Calls.perform trivial)) fun _ =>
      .bind (.attempt (Prog.Calls.perform trivial)) fun _ => trivial
  exact elects_after hhealth fun _ => elects_after hrollback fun _ => becomeStandby_elects

theorem competeForPrimary_elects : Elects cfg (ElectionManager.competeForPrimary cfg) := by
  have hhost (call : HostCall) (hcall : Leaves (.host call)) : (Mgr.host call).Calls Leaves :=
    Prog.Calls.perform hcall
  apply elects_after (hhost (.hash cfg.cluster.nodeName) trivial)
  intro hash
  apply elects_after (hhost (.sleep _) trivial)
  intro _
  have hattach : (Mgr.disk .attachDiskRw).Calls Leaves := Prog.Calls.perform trivial
  apply (elects_after hattach fun _ => becomePrimary_elects).except during_monotone
  intro exc
  -- a lost race makes the node STANDBY, any other exception ends the daemon
  apply Prog.Triple.ite
  · exact fun _ => becomeStandby_elects
  · exact fun _ => .raise fun _ => id

theorem elect_elects : Elects cfg (ElectionManager.elect cfg) := by
  have hholder : (Mgr.disk .currentRwHolder).Calls Leaves := Prog.Calls.perform trivial
  apply elects_after hholder
  intro holder
  apply Prog.Triple.ite
  · exact fun _ => becomePrimary_elects
  · intro _
    apply Prog.Triple.ite
    · exact fun _ => becomeStandby_elects
    · exact fun _ => competeForPrimary_elects

theorem startup_tidy (hefm : cfg.efm.enabled = true) :
    Prog.Triple (during cfg) (fun _ => True) (PgHaDaemon.startup cfg) (fun _ => Tidy)
      fun _ => True := by
  apply elect_elects.bind during_monotone
  intro role
  have hmonitor : (do
      Mgr.host .pgMonReset
      Mgr.host (.pgMonSetActive (role == .primary)) : Mgr Unit).Calls Leaves :=
    .perform_bind trivial fun _ => Prog.Calls.perform trivial
  apply Prog.Triple.ite
  · rintro rfl
    apply (efmStart_triple hefm (aside_hasRole .primary)).bind during_monotone
    intro _
    apply (ofNode_tidy.leaving hmonitor fun _ => id).conseq during_monotone _ (fun _ _ => id)
      fun _ => id
    exact fun s hs => iff_of_true hs.2 hs.1
  · intro hrole
    apply (efmStop_triple hefm (aside_hasRole role)).bind during_monotone
    intro _
    apply (ofNode_tidy.leaving hmonitor fun _ => id).conseq during_monotone _ (fun _ _ => id)
      fun _ => id
    intro s hs
    have hretired : Retired s := ⟨fun hprimary => hrole (hs.1.symm.trans hprimary), hs.2⟩
    exact hretired.tidy

end Startup

/-! ## Failover -/

/-- What a sequence that ends with a promotion leaves: a PRIMARY whose service has still to
be started, or what there was. -/
def Turned (succeeded : Bool) (s : Logged) : Prop :=
  if succeeded then HasRole .primary s else Tidy s

theorem ofNode_turned (succeeded : Bool) : OfNode (Turned succeeded) := by
  cases succeeded with
  | false => exact ofNode_tidy
  | true => exact ofNode_hasRole .primary

/-- The service is started when the sequence has succeeded. -/
theorem started_tidy (hefm : cfg.efm.enabled = true) (succeeded : Bool) {E : Logged → Prop} :
    Prog.Triple (during cfg) (Turned succeeded)
      (if succeeded then PgHaDaemon.efmStart cfg else pure ()) (fun _ => Tidy) E := by
  cases succeeded with
  | false => exact .pure fun _ hs => hs
  | true =>
      apply (efmStart_triple hefm (aside_hasRole .primary)).conseq during_monotone (fun _ => id) _
        fun _ => id
      exact fun _ s hs => iff_of_true hs.2 hs.1

theorem emit_leaves (eventType : HaEventType) (message : String) :
    (emit cfg eventType message).Calls Leaves := emit_calls (fun _ => trivial) _ _

theorem emit_node {P E : Logged → Prop} (hP : OfNode P) (eventType : HaEventType)
    (message : String) :
    Prog.Triple (during cfg) P (emit cfg eventType message) (fun _ => P) E :=
  emit_triple (fun _ => hP.survives trivial) _ _

/-- An operation of the host that neither raises nor changes the role or the service. -/
theorem node_triple {P E : Logged → Prop} (hP : OfNode P) (call : HostCall)
    (hleaves : Leaves (.host call))
    (hsure : ∀ (s : DaemonState) answer, s.Answers call answer → ∃ value, answer = .ok value) :
    Prog.Triple (during cfg) P (Mgr.host call) (fun _ => P) E :=
  sure_triple (hP.survives hleaves) hsure

/-- The promotion itself always succeeds. -/
theorem promote_triple {P E : Logged → Prop} (message : String) :
    Prog.Triple (during cfg) P (do
      Mgr.host (.setRole .primary)
      Mgr.host (.setHealth .healthy)
      emit cfg .roleChanged message) (fun _ => HasRole .primary) E := by
  apply (setRole_triple .primary).bind during_monotone
  intro _
  apply (node_triple (ofNode_hasRole .primary) (.setHealth .healthy) trivial (by simp)).bind
    during_monotone
  exact fun _ => emit_node (ofNode_hasRole .primary) _ _

/-- The promotion never raises, so a loop whose last step it is ends with the new role. -/
theorem promoted_triple {message : String} {next : Except Exc Unit → Mgr Bool}
    (hnext : ∀ value, next (.ok value) = .pure true) :
    Prog.Triple (during cfg) Tidy ((Mgr.host (.mark (.step .promote))).bind fun _ =>
      (do
        Mgr.host (.setRole .primary)
        Mgr.host (.setHealth .healthy)
        emit cfg .roleChanged message : Mgr Unit).attempt.bind next) Turned fun _ => False := by
  apply (node_triple ofNode_tidy (.mark (.step .promote)) trivial (by simp)).bind during_monotone
  intro _
  have hstep : Prog.Triple (during cfg) Tidy (do
      Mgr.host (.setRole .primary)
      Mgr.host (.setHealth .healthy)
      emit cfg .roleChanged message) (fun _ => HasRole .primary) fun _ => False := promote_triple _
  apply (hstep.attempt during_monotone).bind during_monotone
  intro result
  cases result with
  | ok value =>
      rw [hnext]
      exact .pure fun _ hs => hs
  | error exc => exact fun _ hs => hs.elim

theorem earlySteps_leave : ∀ step ∈ (FailoverEngine.steps cfg).take 7, step.2.Calls Leaves := by
  intro step hstep
  simp only [FailoverEngine.steps, List.take_succ_cons, List.take_zero, List.mem_cons,
    List.not_mem_nil, or_false] at hstep
  rcases hstep with rfl | rfl | rfl | rfl | rfl | rfl | rfl
  · refine .perform_bind trivial fun status => .perform_bind trivial fun _ => .ite trivial ?_
    refine .ite trivial (.bind ?_ fun _ => .ite trivial trivial)
    refine .bind (.attempt (Prog.Calls.perform trivial)) fun result => ?_
    cases result with
    | ok _ => trivial
    | error exc => exact .ite trivial trivial
  · exact .perform_bind trivial fun _ => .perform_bind trivial fun _ => emit_leaves _ _
  · exact Prog.Calls.perform trivial
  · exact FailoverEngine.attachFrom_calls_of cfg trivial trivial (fun _ _ => trivial)
      (fun _ => trivial) 3000 5
  · exact Prog.Calls.perform trivial
  · exact startPostgresFrom_calls_of trivial trivial (fun _ => trivial) (fun _ => trivial)
      (fun _ => trivial) 3
  · exact .perform_bind trivial fun _ => emit_leaves _ _

/-- The loop over the steps, by induction on the ones before the promotion. -/
theorem runSteps_turned (skipFence : Bool) {before : List (StepName × Mgr Unit)}
    (hbefore : ∀ step ∈ before, step.2.Calls Leaves) :
    Prog.Triple (during cfg) Tidy
      (FailoverEngine.runSteps cfg skipFence
        (before ++ [(.promote, FailoverEngine.stepPromote cfg)])) Turned fun _ => False := by
  have hmark (name : StepName) : Prog.Triple (during cfg) Tidy (Mgr.host (.mark (.step name)))
      (fun _ => Tidy) fun _ => False := node_triple ofNode_tidy _ trivial (by simp)
  induction before with
  | nil =>
      -- the promotion is never skipped
      have hpromote : ¬ FailoverEngine.skipped skipFence .promote = true := by
        simp [FailoverEngine.skipped]
      exact .ite (fun h => absurd h hpromote) fun _ => promoted_triple fun _ => rfl
  | cons step before ih =>
      have hrest := ih fun other hother => hbefore other (List.mem_cons_of_mem _ hother)
      refine .ite (fun _ => hrest) fun _ => ?_
      apply (hmark step.1).bind during_monotone
      intro _
      have hstep : Prog.Keeps (during cfg) Tidy step.2 :=
        ofNode_tidy.keeps (hbefore step List.mem_cons_self)
      apply (hstep.attempted during_monotone).bind during_monotone
      intro result
      cases result with
      | ok _ => exact hrest
      | error exc =>
          -- the loop ends here, before the role has been touched
          apply (node_triple ofNode_tidy (.setHealth .failed) trivial (by simp)).bind
            during_monotone
          intro _
          apply (emit_node ofNode_tidy _ _).bind during_monotone
          exact fun _ => .pure fun _ hs => hs

theorem execute_turned (skipFence : Bool) :
    Prog.Triple (during cfg) Tidy (FailoverEngine.execute cfg skipFence) Turned
      fun _ => False := by
  apply inSequence_triple (fun _ => ofNode_tidy.survives trivial)
    (fun succeeded _ => (ofNode_turned succeeded).survives trivial) fun _ _ _ _ _ h => h
  apply (node_triple ofNode_tidy .attempts trivial (by simp)).bind during_monotone
  intro attempts
  apply (node_triple ofNode_tidy (.setAttempts (attempts + 1)) trivial (by simp)).bind
    during_monotone
  intro _
  apply (node_triple ofNode_tidy .monotonic trivial (by simp)).bind during_monotone
  intro now
  apply (node_triple ofNode_tidy (.setLastAttemptTs now) trivial (by simp)).bind during_monotone
  intro _
  apply (node_triple ofNode_tidy .attempts trivial (by simp)).bind during_monotone
  intro current
  apply (emit_node ofNode_tidy _ _).bind during_monotone
  intro _
  -- the bookkeeping before the steps leaves everything tidy
  have hsteps : Prog.Triple (during cfg) Tidy
      (FailoverEngine.runSteps cfg skipFence (FailoverEngine.steps cfg)) Turned
      fun _ => False := runSteps_turned skipFence earlySteps_leave
  apply hsteps.bind during_monotone
  intro succeeded
  cases succeeded with
  | false => exact .pure fun _ => id
  | true =>
      apply (node_triple (ofNode_hasRole .primary) (.setAttempts 0) trivial (by simp)).bind
        during_monotone
      intro _
      apply (emit_node (ofNode_hasRole .primary) _ _).bind during_monotone
      exact fun _ => .pure fun _ => id

theorem runFailover_tidy (hefm : cfg.efm.enabled = true) (skipFence : Bool) :
    Prog.Triple (during cfg) Tidy (PgHaDaemon.runFailover cfg skipFence) (fun _ => Tidy)
      fun _ => False :=
  (execute_turned skipFence).bind during_monotone fun succeeded => started_tidy hefm succeeded

/-! ## Promotion of the standby -/

theorem earlyStandbySteps_leave :
    ∀ step ∈ (SwitchoverEngine.standbySteps cfg).take 4, step.2.Calls Leaves := by
  intro step hstep
  simp only [SwitchoverEngine.standbySteps, List.take_succ_cons, List.take_zero, List.mem_cons,
    List.not_mem_nil, or_false] at hstep
  rcases hstep with rfl | rfl | rfl | rfl
  · refine .perform_bind trivial fun holder => .ite trivial ?_
    exact .perform_bind trivial fun _ => Prog.Calls.perform trivial
  · exact Prog.Calls.perform trivial
  · exact startPostgresFrom_calls_of trivial trivial (fun _ => trivial) (fun _ => trivial)
      (fun _ => trivial) 3
  · exact .perform_bind trivial fun _ => emit_leaves _ _

theorem undo_leaves (name : StepName) : (SwitchoverEngine.undo name).Calls Leaves :=
  SwitchoverEngine.undo_calls_of (fun _ => trivial) trivial (fun _ => trivial) (fun _ => trivial)
    name

theorem rollbackPromotion_tidy (completed : List StepName) {E : Logged → Prop} :
    Prog.Triple (during cfg) Tidy (SwitchoverEngine.rollbackPromotion completed) (fun _ => Tidy)
      E := by
  induction completed with
  | nil => exact .pure fun _ => id
  | cons name rest ih =>
      have hundo : Prog.Keeps (during cfg) Tidy (SwitchoverEngine.undo name) :=
        ofNode_tidy.keeps (undo_leaves name)
      exact (hundo.attempted during_monotone).bind during_monotone fun _ => ih

/-- The loop over the steps, by induction on the ones before the promotion. -/
theorem runStandbySteps_turned {before : List (StepName × Mgr Unit)}
    (hbefore : ∀ step ∈ before, step.2.Calls Leaves) (completed : List StepName) :
    Prog.Triple (during cfg) Tidy
      (SwitchoverEngine.runStandbySteps cfg completed
        (before ++ [(.promote, SwitchoverEngine.stepPromote cfg)])) Turned fun _ => False := by
  have hmark (name : StepName) : Prog.Triple (during cfg) Tidy (Mgr.host (.mark (.step name)))
      (fun _ => Tidy) fun _ => False := node_triple ofNode_tidy _ trivial (by simp)
  induction before generalizing completed with
  | nil => exact promoted_triple fun _ => rfl
  | cons step before ih =>
      apply (hmark step.1).bind during_monotone
      intro _
      have hstep : Prog.Keeps (during cfg) Tidy step.2 :=
        ofNode_tidy.keeps (hbefore step List.mem_cons_self)
      apply (hstep.attempted during_monotone).bind during_monotone
      intro result
      cases result with
      | ok _ =>
          exact ih (fun other hother => hbefore other (List.mem_cons_of_mem _ hother)) _
      | error exc =>
          -- what is rolled back are the disk, PostgreSQL and the address, not the role
          apply (emit_node ofNode_tidy _ _).bind during_monotone
          intro _
          apply (rollbackPromotion_tidy completed).bind during_monotone
          exact fun _ => .pure fun _ hs => hs

/-- The role that is read is the node's. -/
theorem role_triple {P E : Logged → Prop} (hP : Survives cfg P (.host .role)) :
    Prog.Triple (during cfg) P (Mgr.host .role) (fun role s => P s ∧ HasRole role s) E := by
  apply Prog.Triple.perform
  intro s hs answer s' hstep
  obtain ⟨hanswer, hafter⟩ := hstep.1.daemon
  obtain rfl : answer = .ok s.1.daemon.node.role := hanswer
  have hrole : HasRole s.1.daemon.node.role s' := by
    rw [HasRole, hafter]
    rfl
  have hend : P s' ∧ HasRole s.1.daemon.node.role s' := ⟨hP s _ s' hstep hs, hrole⟩
  exact hend

theorem isPrimary_triple {P E : Logged → Prop} (hP : Survives cfg P (.host .role)) :
    Prog.Triple (during cfg) P LocalNode.isPrimary
      (fun primary s => P s ∧ (primary = true ↔ HasRole .primary s)) E := by
  apply (role_triple hP).bind during_monotone
  intro role
  apply Prog.Triple.pure
  intro s hs
  refine ⟨hs.1, ?_⟩
  rw [HasRole, hs.2, beq_iff_eq]

theorem executeAsStandby_turned :
    Prog.Triple (during cfg) Tidy (SwitchoverEngine.executeAsStandby cfg) Turned
      fun _ => False := by
  have hrole : Prog.Triple (during cfg) Tidy LocalNode.isStandby (fun _ => Tidy)
      fun _ => False := by
    apply (role_triple (ofNode_tidy.survives trivial)).bind during_monotone
    exact fun role => .pure fun _ hs => hs.1
  apply hrole.bind during_monotone
  intro standby
  apply Prog.Triple.ite
  · exact fun _ => .pure fun _ hs => hs
  · intro _
    apply inSequence_triple (fun _ => ofNode_tidy.survives trivial)
      (fun succeeded _ => (ofNode_turned succeeded).survives trivial) fun _ _ _ _ _ h => h
    have hsteps : Prog.Triple (during cfg) Tidy
        (SwitchoverEngine.runStandbySteps cfg [] (SwitchoverEngine.standbySteps cfg)) Turned
        fun _ => False := runStandbySteps_turned earlyStandbySteps_leave []
    apply hsteps.bind during_monotone
    intro succeeded
    cases succeeded with
    | false => exact .pure fun _ => id
    | true =>
        apply (emit_node (ofNode_hasRole .primary) _ _).bind during_monotone
        exact fun _ => .pure fun _ => id

theorem runSwitchoverAsStandby_tidy (hefm : cfg.efm.enabled = true) :
    Prog.Triple (during cfg) Tidy (PgHaDaemon.runSwitchoverAsStandby cfg) (fun _ => Tidy)
      fun _ => False := by
  have hflag {P E : Logged → Prop} (hP : OfNode P) : Prog.Triple (during cfg) P
      (Mgr.host (.setSwitchoverActive false)) (fun _ => P) E :=
    node_triple hP _ trivial (by simp)
  refine Prog.Triple.ensuring_each during_monotone ?_ (fun _ => hflag ofNode_tidy)
    fun _ (h : False) => h.elim
  exact executeAsStandby_turned.bind during_monotone fun succeeded => started_tidy hefm succeeded

/-! ## Self-demotion -/

def Down (s : Logged) : Prop := s.1.running = false

/-- The users of the mount are killed at most. -/
def Killing (op : Call) : Prop := Leaves op ∨ ∃ mountPt, op = .host (.killMountUsers mountPt)

theorem down_survives {op : Call} (hop : Killing op) : Survives cfg Down op := by
  intro s answer s' hstep hs
  apply hstep.1.down _ hs
  rcases hop with hleaves | ⟨mountPt, rfl⟩
  · rintro command rfl
    exact hleaves
  · simp

theorem bestEffort_down {actions : List (Mgr Unit)}
    (hactions : ∀ action ∈ actions, action.Calls Killing) {E : Logged → Prop} :
    Prog.Triple (during cfg) Down (PgHaDaemon.bestEffort actions) (fun _ => Down) E := by
  induction actions with
  | nil => exact .pure fun _ => id
  | cons action rest ih =>
      have hfirst : Prog.Keeps (during cfg) Down action :=
        keeps_of_survives (fun _ => down_survives) (hactions action List.mem_cons_self)
      apply (hfirst.attempted during_monotone).bind during_monotone
      exact fun _ => ih fun other hother => hactions other (List.mem_cons_of_mem _ hother)

theorem demotionActions_killing :
    ∀ action ∈ PgHaDaemon.demotionActions cfg, action.Calls Killing := by
  intro action haction
  simp only [PgHaDaemon.demotionActions, List.mem_cons, List.not_mem_nil, or_false] at haction
  rcases haction with rfl | rfl | rfl | rfl | rfl
  · exact Prog.Calls.perform (.inl trivial)
  · exact Prog.Calls.perform (.inl trivial)
  · exact Prog.Calls.perform (.inr ⟨_, rfl⟩)
  · exact Prog.Calls.perform (.inl trivial)
  · exact Prog.Calls.perform (.inl trivial)

/-- The actions are best effort, and the role is given up after them in any case. -/
theorem demote_retired {E : Logged → Prop} : Prog.Triple (during cfg) Down
    (Mgr.host (.setRole .standby)) (fun _ => Retired) E := by
  apply Prog.Triple.perform
  intro s hs answer s' hstep
  obtain ⟨rfl, hrole⟩ := setRole_step hstep
  have hretired : Retired s' := by
    refine ⟨?_, hstep.1.down (by simp) hs⟩
    rw [hrole]
    simp
  exact hretired

theorem selfDemotion_tidy (hefm : cfg.efm.enabled = true) :
    Prog.Triple (during cfg) Tidy (PgHaDaemon.selfDemoteAfterPgFailure cfg) (fun _ => Tidy)
      Tidy := by
  have hrole : Prog.Triple (during cfg) Tidy LocalNode.isPrimary (fun _ => Tidy) Tidy :=
    (isPrimary_triple (ofNode_tidy.survives trivial)).conseq during_monotone (fun _ => id)
      (fun _ _ hs => hs.1) fun _ => id
  apply hrole.bind during_monotone
  intro primary
  apply Prog.Triple.ite
  · exact fun _ => .pure fun _ => id
  · intro _
    apply inSequence_triple (fun _ => ofNode_tidy.survives trivial)
      (fun _ _ => ofNode_tidy.survives trivial) fun _ => ofNode_tidy.survives trivial
    -- the service is down from here on, and the role is given up before anything can raise
    have hstop : Prog.Triple (during cfg) Tidy (PgHaDaemon.efmStop cfg) (fun _ => Down) Tidy :=
      (efmStop_triple hefm (P := fun _ => True) fun _ _ _ _ _ => id).conseq during_monotone
        (fun _ _ => trivial) (fun _ _ hs => hs.2) fun _ => id
    apply hstop.bind during_monotone
    intro _
    apply (bestEffort_down demotionActions_killing).bind during_monotone
    intro _
    apply demote_retired.bind during_monotone
    intro _
    have hsignal : (PgHaDaemon.sendPgFailHandoff cfg).Calls Leaves := by
      refine .bind ?_ fun resp => .bind (Prog.calls_ofExcept _) fun _ => trivial
      exact .perform_bind trivial fun _ => .perform_bind trivial fun _ =>
        Prog.Calls.perform trivial
    apply (ofNode_retired.keeps _).conseq during_monotone (fun _ => id)
      (fun _ _ => Retired.tidy) fun _ => Retired.tidy
    exact .perform_bind trivial fun _ => .perform_bind trivial fun _ =>
      .perform_bind trivial fun _ => .perform_bind trivial fun _ =>
      .perform_bind trivial fun now => .perform_bind trivial fun _ =>
      .bind (.attempt hsignal) fun _ => trivial

/-! ## Switchover -/

/-- A switchover of a PRIMARY on its way: the service has been stopped, and this is what the
peer and the releases have answered. -/
structure Giving (role : NodeRole) (reached refused : Bool) (s : Logged) : Prop where
  role : HasRole role s
  down : s.1.running = false
  reached : s.2.any reaches = reached
  refused : s.2.any refuses = refused

/-- How a switchover of a PRIMARY ends: it has given up the role if the hand-over went
through. -/
structure Settled (s : Logged) : Prop where
  down : s.1.running = false
  role : s.1.daemon.node.role = .primary ↔ ¬ HandsOver s.2

section Giving

variable {role : NodeRole} {reached refused : Bool}

theorem ofRun_giving : OfRun (Giving role reached refused) := by
  intro s s' hrole hrunning hreached hrefused hs
  exact ⟨hrole.trans hs.role, hrunning.trans hs.down, hreached.trans hs.reached,
    hrefused.trans hs.refused⟩

theorem ofRun_settled : OfRun Settled := by
  intro s s' hrole hrunning hreached hrefused hs
  refine ⟨hrunning.trans hs.down, ?_⟩
  rw [hrole, HandsOver, hreached, hrefused]
  exact hs.role

theorem Giving.settled {s : Logged} (h : Giving role reached refused s)
    (hrole : role = .primary ↔ ¬ (reached = true ∧ refused = false)) : Settled s := by
  refine ⟨h.down, ?_⟩
  rw [h.role, HandsOver, h.reached, h.refused]
  exact hrole

/-- What the answer of an operation adds. -/
theorem Giving.step {s s' : Logged} {op : Call} {answer : Except Exc op.Ret}
    (hs : Giving role reached refused s) (hstep : logged (EfmStep cfg) s ⟨op, answer⟩ s')
    (hop : Leaves op) :
    Giving role (reached || reaches ⟨op, answer⟩) (refused || refuses ⟨op, answer⟩) s' where
  role := (hstep.1.role_of_leaves hop).trans hs.role
  down := (hstep.1.running_of_leaves hop).trans hs.down
  reached := by simp [hstep.2, hs.reached]
  refused := by simp [hstep.2, hs.refused]

end Giving

/-- An operation that stops the hand-over when it raises. -/
theorem refusing_triple {op : Call} (hop : Leaves op)
    (hreaches : ∀ answer, reaches ⟨op, answer⟩ = false)
    (hok : ∀ value, refuses ⟨op, .ok value⟩ = false)
    (herror : ∀ exc, refuses ⟨op, .error exc⟩ = true) :
    Prog.Triple (during cfg) (Giving .primary true false) (Prog.perform op)
      (fun _ => Giving .primary true false) (Giving .primary true true) := by
  apply Prog.Triple.perform
  intro s hs answer s' hstep
  have hgiving := hs.step hstep hop
  rw [hreaches] at hgiving
  cases answer with
  | ok value =>
      rw [hok] at hgiving
      exact hgiving
  | error exc =>
      rw [herror] at hgiving
      exact hgiving

/-- The loop of the pre-check, by induction on its passes. -/
theorem pollPeer_giving (deadline : Int) (fuel : ℕ) :
    Prog.Triple (during cfg) (Giving .primary false false)
      (SwitchoverEngine.pollPeer cfg deadline fuel) (fun _ => Giving .primary true false)
      (Giving .primary false false) := by
  have hconnect : Prog.Triple (during cfg) (Giving .primary false false)
      (Mgr.host (.createConnection cfg.cluster.peerIp cfg.cluster.peerPort 3000))
      (fun _ => Giving .primary true false) (Giving .primary false false) := by
    apply Prog.Triple.perform
    intro s hs answer s' hstep
    have hgiving := hs.step hstep trivial
    cases answer with
    | ok _ => exact hgiving
    | error exc => exact hgiving
  induction fuel with
  | zero => exact fun _ _ => trivial
  | succ fuel ih =>
      have hclock : Survives cfg (Giving .primary false false) (.host .monotonic) :=
        ofRun_giving.survives trivial
      apply (sure_triple hclock (by simp)).bind during_monotone
      intro now
      apply Prog.Triple.ite
      · intro _
        apply (hconnect.attempt during_monotone).bind during_monotone
        intro result
        cases result with
        | ok _ => exact .pure fun _ => id
        | error exc =>
            -- no connection yet: the peer has still not been reached
            apply Prog.Triple.ite
            · intro _
              have hsleep : (Mgr.host (.sleep 2000)).Calls Still := Prog.Calls.perform trivial
              exact (ofRun_giving.keeps hsleep).bind during_monotone fun _ => ih
            · exact fun _ => .raise fun _ => id
      · exact fun _ => .raise fun _ => id

theorem accepts_of_ok {resp : PeerReply} {cmd : Option Json}
    (hget : SwitchoverEngine.jsonGet resp.value "cmd" = .ok cmd) :
    accepts (.ok resp) = SwitchoverEngine.isText cmd SwitchoverEngine.cmdSwitchoverAccept := by
  simp [accepts, hget]

theorem accepts_of_error {resp : PeerReply} {exc : Exc}
    (hget : SwitchoverEngine.jsonGet resp.value "cmd" = .error exc) :
    accepts (.ok resp) = false := by
  simp [accepts, hget]

/-- The peer takes the request, or the step raises. -/
theorem stepSignalPeer_giving :
    Prog.Triple (during cfg) (Giving .primary true false) (SwitchoverEngine.stepSignalPeer cfg)
      (fun _ => Giving .primary true false) (Giving .primary true true) := by
  have hconnect : Prog.Triple (during cfg) (Giving .primary true false)
      (Mgr.host (.createConnection cfg.cluster.peerIp cfg.cluster.peerPort
        SwitchoverEngine.mgmtTimeoutMillis)) (fun _ => Giving .primary true false)
      (Giving .primary true true) :=
    refusing_triple trivial (fun _ => rfl) (fun _ => rfl) fun _ => rfl
  have hsend : Prog.Triple (during cfg) (Giving .primary true false)
      (Mgr.host (.sendRequest (SwitchoverEngine.peerRequest cfg
        SwitchoverEngine.cmdSwitchoverRequest))) (fun _ => Giving .primary true false)
      (Giving .primary true true) :=
    refusing_triple trivial (fun _ => rfl) (fun _ => rfl) fun _ => rfl
  -- a reply that is no acceptance counts as refused
  have hreply : Prog.Triple (during cfg) (Giving .primary true false) (Mgr.host .recvReply)
      (fun resp => Giving .primary true (!accepts (.ok resp))) (Giving .primary true true) := by
    apply Prog.Triple.perform
    intro s hs answer s' hstep
    have hgiving := hs.step hstep trivial
    cases answer with
    | ok resp => exact hgiving
    | error exc => exact hgiving
  apply hconnect.bind during_monotone
  intro _
  apply hsend.bind during_monotone
  intro _
  apply hreply.bind during_monotone
  intro resp
  cases hget : SwitchoverEngine.jsonGet resp.value "cmd" with
  | error exc =>
      rw [accepts_of_error hget]
      exact .raise fun _ => id
  | ok cmd =>
      rw [accepts_of_ok hget]
      apply Prog.Triple.ite
      · intro haccept
        rw [haccept]
        exact .pure fun _ => id
      · intro hreject
        rw [eq_false_of_ne_true hreject]
        exact .raise fun _ => id

/-- One pass of the loop of `execute_as_primary`. -/
theorem runPrimarySteps_cons {P P' F : Logged → Prop} {name : StepName} {step : Mgr Unit}
    {rest : List (StepName × Mgr Unit)} (hP : OfRun P) (hF : OfRun F)
    (hfailed : ∀ s, F s → Settled s)
    (hstep : Prog.Triple (during cfg) P step (fun _ => P') F)
    (hrest : Prog.Triple (during cfg) P' (SwitchoverEngine.runPrimarySteps cfg rest)
      (fun _ => Settled) fun _ => False) :
    Prog.Triple (during cfg) P (SwitchoverEngine.runPrimarySteps cfg ((name, step) :: rest))
      (fun _ => Settled) fun _ => False := by
  have hmark : Survives cfg P (.host (.mark (.step name))) := hP.survives trivial
  apply (sure_triple hmark (by simp)).bind during_monotone
  intro _
  apply (hstep.attempt during_monotone).bind during_monotone
  intro result
  cases result with
  | ok _ => exact hrest
  | error exc =>
      apply (emit_triple (fun _ => hF.survives trivial) _ _).bind during_monotone
      exact fun _ => .pure hfailed

/-- An operation of the host that neither raises nor has to do with the hand-over. -/
theorem run_triple {P E : Logged → Prop} (hP : OfRun P) (call : HostCall)
    (hstill : Still (.host call))
    (hsure : ∀ (s : DaemonState) answer, s.Answers call answer → ∃ value, answer = .ok value) :
    Prog.Triple (during cfg) P (Mgr.host call) (fun _ => P) E :=
  sure_triple (hP.survives hstill) hsure

theorem emit_run {P E : Logged → Prop} (hP : OfRun P) (eventType : HaEventType)
    (message : String) :
    Prog.Triple (during cfg) P (emit cfg eventType message) (fun _ => P) E :=
  emit_triple (fun _ => hP.survives trivial) _ _

/-- The last step gives the role up; it does not raise. -/
theorem stepDemote_giving {E : Logged → Prop} :
    Prog.Triple (during cfg) (Giving .primary true false) (SwitchoverEngine.stepDemote cfg)
      (fun _ => Giving .standby true false) E := by
  have hset : Prog.Triple (during cfg) (Giving .primary true false)
      (Mgr.host (.setRole .standby)) (fun _ => Giving .standby true false) E := by
    apply Prog.Triple.perform
    intro s hs answer s' hstep
    obtain ⟨rfl, hrole⟩ := setRole_step hstep
    have hgiving : Giving .standby true false s' := by
      refine ⟨hrole, hstep.1.down (by simp) hs.down, ?_, ?_⟩
      · rw [hstep.2, any_append_of_false rfl]
        exact hs.reached
      · rw [hstep.2, any_append_of_false rfl]
        exact hs.refused
    exact hgiving
  apply hset.bind during_monotone
  intro _
  apply (run_triple ofRun_giving (.setHealth .healthy) trivial (by simp)).bind during_monotone
  exact fun _ => emit_run ofRun_giving _ _

theorem primarySteps_settled : Prog.Triple (during cfg) (Giving .primary false false)
    (SwitchoverEngine.runPrimarySteps cfg (SwitchoverEngine.primarySteps cfg)) (fun _ => Settled)
    fun _ => False := by
  have hunreached : ∀ s, Giving .primary false false s → Settled s :=
    fun _ hs => hs.settled (by simp)
  have hrefused : ∀ s, Giving .primary true true s → Settled s := fun _ hs => hs.settled (by simp)
  have hpreCheck : Prog.Triple (during cfg) (Giving .primary false false)
      (SwitchoverEngine.stepPreCheck cfg) (fun _ => Giving .primary true false)
      (Giving .primary false false) := by
    apply (run_triple ofRun_giving .monotonic trivial (by simp)).bind during_monotone
    exact fun now => pollPeer_giving _ _
  have hdisk (call : DiskCall) (hok : ∀ value, refuses ⟨.disk call, .ok value⟩ = false)
      (herror : ∀ exc, refuses ⟨.disk call, .error exc⟩ = true) :
      Prog.Triple (during cfg) (Giving .primary true false) (Mgr.disk call)
        (fun _ => Giving .primary true false) (Giving .primary true true) :=
    refusing_triple trivial (fun _ => rfl) hok herror
  have hvip : Prog.Triple (during cfg) (Giving .primary true false)
      (SwitchoverEngine.stepReleaseVip cfg) (fun _ => Giving .primary true false)
      (Giving .primary true true) := by
    have hrelease : Prog.Triple (during cfg) (Giving .primary true false) (Mgr.net .releaseVip)
        (fun _ => Giving .primary true false) (Giving .primary true true) :=
      refusing_triple trivial (fun _ => rfl) (fun _ => rfl) fun _ => rfl
    exact hrelease.bind during_monotone fun _ => emit_run ofRun_giving _ _
  have hpostgres : Prog.Triple (during cfg) (Giving .primary true false)
      SwitchoverEngine.stepStopPostgres (fun _ => Giving .primary true false)
      (Giving .primary true true) :=
    (hdisk (.stopPostgres .fast) (fun _ => rfl) fun _ => rfl).bind during_monotone
      fun _ => run_triple ofRun_giving _ trivial (by simp)
  have hdetach : Prog.Triple (during cfg) (Giving .primary true false)
      (SwitchoverEngine.stepDetachDisk cfg) (fun _ => Giving .primary true false)
      (Giving .primary true true) := by
    apply (hdisk .detachDisk (fun _ => rfl) fun _ => rfl).bind during_monotone
    intro _
    apply (run_triple ofRun_giving (.setDiskState .detached) trivial (by simp)).bind during_monotone
    exact fun _ => emit_run ofRun_giving _ _
  -- only the pre-check fails without a trace in the answers of the peer and the releases
  apply runPrimarySteps_cons ofRun_giving ofRun_giving hunreached hpreCheck
  apply runPrimarySteps_cons ofRun_giving ofRun_giving hrefused hvip
  apply runPrimarySteps_cons ofRun_giving ofRun_giving hrefused hpostgres
  apply runPrimarySteps_cons ofRun_giving ofRun_giving hrefused
    (hdisk .unmountDisk (fun _ => rfl) fun _ => rfl)
  apply runPrimarySteps_cons ofRun_giving ofRun_giving hrefused hdetach
  apply runPrimarySteps_cons ofRun_giving ofRun_giving hrefused stepSignalPeer_giving
  apply runPrimarySteps_cons ofRun_giving ofRun_giving hrefused stepDemote_giving
  exact .pure fun _ hs => hs.settled (by simp)

/-- On a PRIMARY, the engine ends as the answers say. -/
theorem executeAsPrimary_settled : Prog.Triple (during cfg) (Giving .primary false false)
    (SwitchoverEngine.executeAsPrimary cfg) (fun _ => Settled) fun _ => False := by
  apply (isPrimary_triple (ofRun_giving.survives trivial)).bind during_monotone
  intro primary
  apply Prog.Triple.ite
  -- a node that starts to give is PRIMARY
  · intro hnot s hs
    have hprimary : primary = true := hs.2.mpr hs.1.role
    simp [hprimary] at hnot
  · intro _
    have hbody : Prog.Triple (during cfg) (Giving .primary false false) (inSequence .asPrimary do
        emit cfg .switchoverStarted "Planned switchover initiated on primary"
        if ← SwitchoverEngine.runPrimarySteps cfg (SwitchoverEngine.primarySteps cfg) then
          emit cfg .switchoverCompleted s!"{cfg.cluster.nodeName} demoted to STANDBY"
          pure true
        else
          pure false) (fun _ => Settled) fun _ => False := by
      apply inSequence_triple (fun _ => ofRun_giving.survives trivial)
        (fun _ _ => ofRun_settled.survives trivial) fun _ _ _ _ _ h => h
      apply (emit_run ofRun_giving _ _).bind during_monotone
      intro _
      apply primarySteps_settled.bind during_monotone
      intro succeeded
      apply Prog.Triple.ite
      · intro _
        apply (emit_run ofRun_settled _ _).bind during_monotone
        exact fun _ => .pure fun _ => id
      · exact fun _ => .pure fun _ => id
    exact hbody.conseq during_monotone (fun _ hs => hs.1) (fun _ _ => id) fun _ => id

/-- On a node that is not PRIMARY, the engine does nothing. -/
theorem executeAsPrimary_retired : Prog.Triple (during cfg) Retired
    (SwitchoverEngine.executeAsPrimary cfg) (fun _ => Retired) fun _ => False := by
  apply (isPrimary_triple (ofNode_retired.survives trivial)).bind during_monotone
  intro primary
  apply Prog.Triple.ite
  · exact fun _ => .pure fun _ hs => hs.1
  · intro hprimary s hs
    have hrole : HasRole .primary s := hs.2.mp (by simpa using hprimary)
    exact absurd hrole hs.1.role

theorem Aside.ofRun {P : Logged → Prop} (hP : Aside P) : OfRun P :=
  fun s s' hrole _ => hP s s' hrole

theorem OfNode.ofRun {P : Logged → Prop} (hP : OfNode P) : OfRun P :=
  fun s s' hrole hrunning _ _ => hP s s' hrole hrunning

/-- The wrapper stops the service, and ends as the engine does. -/
theorem runSwitchover_triple (hefm : cfg.efm.enabled = true) {P R : Logged → Prop} (hP : Aside P)
    (hR : OfRun R) (hexecute : Prog.Triple (during cfg) (fun s => P s ∧ s.1.running = false)
      (SwitchoverEngine.executeAsPrimary cfg) (fun _ => R) fun _ => False) :
    Prog.Triple (during cfg) P (PgHaDaemon.runSwitchover cfg) (fun _ => R) fun _ => False := by
  apply (run_triple hP.ofRun (.setSwitchoverActive true) trivial (by simp)).bind during_monotone
  intro _
  apply (run_triple hP.ofRun (.pgMonSetActive false) trivial (by simp)).bind during_monotone
  intro _
  apply (efmStop_triple hefm hP).bind during_monotone
  intro _
  have hlast {E : Logged → Prop} : Prog.Triple (during cfg) R (do
      let now ← Mgr.host .time
      Mgr.host (.setLastDemotionTs now)
      Mgr.host (.setSwitchoverActive false)) (fun _ => R) E := by
    apply (run_triple hR .time trivial (by simp)).bind during_monotone
    intro now
    apply (run_triple hR (.setLastDemotionTs now) trivial (by simp)).bind during_monotone
    exact fun _ => run_triple hR _ trivial (by simp)
  refine Prog.Triple.ensuring_each during_monotone ?_ (fun _ => hlast) fun _ (h : False) => h.elim
  exact hexecute.bind during_monotone fun _ => .pure fun _ => id

/-- A PRIMARY that has answered nothing yet. -/
structure Starting (s : Logged) : Prop where
  role : HasRole .primary s
  reached : s.2.any reaches = false
  refused : s.2.any refuses = false

theorem runSwitchover_settled (hefm : cfg.efm.enabled = true) :
    Prog.Triple (during cfg) Starting (PgHaDaemon.runSwitchover cfg) (fun _ => Settled)
      fun _ => False := by
  have hstarting : Aside Starting := by
    intro s s' hrole hreached hrefused hs
    exact ⟨hrole.trans hs.role, hreached.trans hs.reached, hrefused.trans hs.refused⟩
  apply runSwitchover_triple hefm hstarting ofRun_settled
  apply executeAsPrimary_settled.conseq during_monotone _ (fun _ _ => id) fun _ => id
  exact fun s hs => ⟨hs.1.role, hs.2, hs.1.reached, hs.1.refused⟩

theorem runSwitchover_retired (hefm : cfg.efm.enabled = true) :
    Prog.Triple (during cfg) (fun s => ¬ HasRole .primary s) (PgHaDaemon.runSwitchover cfg)
      (fun _ => Retired) fun _ => False := by
  apply runSwitchover_triple hefm (aside_other .primary) ofNode_retired.ofRun
  apply executeAsPrimary_retired.conseq during_monotone _ (fun _ _ => id) fun _ => id
  exact fun s hs => ⟨hs.1, hs.2⟩

/-! ## Any sequence of phases -/

variable {s s' : EfmWorld} {trace : List (Event Call.Ret Exc)} {outcome : Outcome Exc Unit}

theorem holds_of_ending {P : Logged → Prop} {logged : Logged}
    (h : Prog.ending (fun _ => P) P outcome logged) (hended : outcome ≠ .stuck) : P logged := by
  cases outcome with
  | returned value => exact h
  | raised exc => exact h
  | stuck => exact absurd rfl hended

/-- What a triple says of a run from the beginning of its trace. -/
theorem holds_of_triple {P Q : Logged → Prop} {program : Mgr Unit}
    (h : Prog.Triple (during cfg) P program (fun _ => Q) Q) (hs : P (s, []))
    (htrace : program.Trace trace outcome) (hended : outcome ≠ .stuck)
    (hhistory : History (EfmStep cfg) s trace s') : Q (s', trace) :=
  holds_of_ending (Prog.trace_wp (h _ hs) htrace (hhistory.logged [])) hended

theorem settled_of_trace (hefm : cfg.efm.enabled = true) (hrole : s.daemon.node.role = .primary)
    (htrace : (PgHaDaemon.runSwitchover cfg).Trace trace outcome) (hended : outcome ≠ .stuck)
    (hhistory : History (EfmStep cfg) s trace s') : Settled (s', trace) := by
  apply holds_of_triple _ _ htrace hended hhistory (P := Starting)
  · exact (runSwitchover_settled hefm).conseq during_monotone (fun _ => id) (fun _ _ => id)
      fun _ h => h.elim
  · exact ⟨hrole, rfl, rfl⟩

/-- A switchover of a PRIMARY leaves the service where it belongs exactly when the hand-over
goes through. -/
theorem handsOver_iff (hefm : cfg.efm.enabled = true) (hrole : s.daemon.node.role = .primary)
    (htrace : (PgHaDaemon.runSwitchover cfg).Trace trace outcome) (hended : outcome ≠ .stuck)
    (hhistory : History (EfmStep cfg) s trace s') :
    (s'.running = true ↔ s'.daemon.node.role = .primary) ↔ HandsOver trace := by
  have hsettled := settled_of_trace hefm hrole htrace hended hhistory
  have hdown : s'.running = false := hsettled.down
  have hgiven : s'.daemon.node.role = .primary ↔ ¬ HandsOver trace := hsettled.role
  rw [hdown, hgiven]
  simp

theorem phase_tidy (hefm : cfg.efm.enabled = true) {phase : Phase} (hphase : phase ≠ .startup)
    (htidy : Tidy (s, [])) (htrace : (phase.program cfg).Trace trace outcome)
    (hended : outcome ≠ .stuck) (hmeets : Completes phase s.daemon.node.role trace)
    (hhistory : History (EfmStep cfg) s trace s') : Tidy (s', trace) := by
  have hfalse {P : Logged → Prop} : ∀ s, False → P s := fun _ h => h.elim
  cases phase with
  | startup => exact absurd rfl hphase
  | selfDemotion =>
      exact holds_of_triple (selfDemotion_tidy hefm) htidy htrace hended hhistory
  | thread task =>
      cases task with
      | runFailover skipFence =>
          exact holds_of_triple ((runFailover_tidy hefm skipFence).conseq during_monotone
            (fun _ => id) (fun _ _ => id) hfalse) htidy htrace hended hhistory
      | runSwitchoverAsStandby =>
          exact holds_of_triple ((runSwitchoverAsStandby_tidy hefm).conseq during_monotone
            (fun _ => id) (fun _ _ => id) hfalse) htidy htrace hended hhistory
      | runSwitchover =>
          by_cases hrole : s.daemon.node.role = .primary
          · -- on a PRIMARY the condition is what decides
            rw [hrole] at hmeets
            exact (handsOver_iff hefm hrole htrace hended hhistory).mpr hmeets
          · have hretired : Retired (s', trace) :=
              holds_of_triple ((runSwitchover_retired hefm).conseq during_monotone (fun _ => id)
                (fun _ _ => id) hfalse) hrole htrace hended hhistory
            exact hretired.tidy

/-- **EFM runs exactly on the PRIMARY.**  After its startup and any failovers, switchovers and
self-demotions, whatever they have been answered, the service runs on a node if and only if the
node is PRIMARY, when the switchovers that it started as PRIMARY went through. -/
theorem running_iff_primary (hefm : cfg.efm.enabled = true) (hrest : Rests cfg Completes s) :
    s.running = true ↔ s.daemon.node.role = .primary := by
  induction hrest with
  | @startup s s' trace htrace hhistory =>
      have hend := Prog.trace_wp (startup_tidy hefm (s, []) trivial) htrace (hhistory.logged [])
      exact hend
  | phase _ hphase htrace hended hmeets hhistory ih =>
      exact phase_tidy hefm hphase ih htrace hended hmeets hhistory
  | between _ hrole hrunning ih =>
      rw [hrole, hrunning]
      exact ih

/-! ## Sample runs -/

section Runs

def sampleConfig : Config :=
  { Config.samplePrimary with efm := { enabled := true, serviceName := "edb-efm-4.7" } }

/-- A node that has the disk and on which operations do their work, except for those that
raise. -/
def obey (raises : Call → Bool) : (op : Call) → EfmWorld → Except Exc op.Ret × EfmWorld
  | .host call, s =>
      (s.daemon.reply call, ⟨s.daemon.after call, efmAfter sampleConfig (.host call) s.running⟩)
  | .disk call, s => (if raises (.disk call) then .error (.runtimeError "") else diskReply call, s)
  | .net call, s => (if raises (.net call) then .error (.runtimeError "") else .ok (), s)

theorem efmStep_obey (raises : Call → Bool) (s : EfmWorld) (op : Call)
    (hlock : (!takesLock op) = true) :
    EfmStep sampleConfig s ⟨op, (obey raises op s).1⟩ (obey raises op s).2 := by
  cases op with
  | disk call => exact ⟨rfl, .inl (by simp [obey, efmAfter, systemctl])⟩
  | net call => exact ⟨rfl, .inl (by simp [obey, efmAfter, systemctl])⟩
  | host call =>
      refine ⟨⟨?_, rfl⟩, .inl rfl⟩
      apply DaemonState.answers_reply
      rintro blocking rfl
      simp [takesLock] at hlock

/-- A phase of that node's daemon, from a given state. -/
def phaseRun (raises : Call → Bool) (phase : Phase) (s : EfmWorld) :
    Run Call.Ret Exc Unit EfmWorld := (phase.program sampleConfig).run (obey raises) s

theorem history_phaseRun {raises : Call → Bool} {phase : Phase} {s : EfmWorld}
    (hlock : (phaseRun raises phase s).log.all (fun event => !takesLock event.op) = true) :
    History (EfmStep sampleConfig) s (phaseRun raises phase s).log
      (phaseRun raises phase s).final :=
  history_run_of_log (efmStep_obey raises) _ _ hlock

/-- Before its startup, the service has been left running. -/
def leftRunning : EfmWorld where
  daemon := ReportedRelease.beforeStartup.daemon
  running := true

end Runs

/-- The node after a startup as PRIMARY. -/
def started : EfmWorld := (phaseRun (fun _ => false) .startup leftRunning).final

theorem rests_started {meets : Phase → NodeRole → List (Event Call.Ret Exc) → Prop} :
    Rests sampleConfig meets started := by
  have hreturned : (phaseRun (fun _ => false) .startup leftRunning).outcome = .returned () := by
    decide
  have htrace := trace_run (obey fun _ => false) (PgHaDaemon.startup sampleConfig) leftRunning
  apply Rests.startup (hreturned ▸ htrace)
  have hlock : (phaseRun (fun _ => false) .startup leftRunning).log.all
      (fun event => !takesLock event.op) = true := by decide
  exact history_phaseRun hlock

/-- A switchover of that node. -/
def handedOver (raises : Call → Bool) : EfmWorld :=
  (phaseRun raises (.thread .runSwitchover) started).final

theorem running_iff_primary_handedOver :
    (handedOver fun _ => false).running = true ↔
      (handedOver fun _ => false).daemon.node.role = .primary := by
  have hefm : sampleConfig.efm.enabled = true := rfl
  have hrole : started.daemon.node.role = .primary := by decide
  have hmeets : Completes (.thread .runSwitchover) started.daemon.node.role
      (phaseRun (fun _ => false) (.thread .runSwitchover) started).log := by
    rw [hrole]
    exact ⟨by decide, by decide⟩
  apply running_iff_primary hefm
  exact .phase rests_started (by simp) (trace_run _ _ _) (by decide) hmeets
    (history_phaseRun (by decide))

/-- The address cannot be released: the switchover fails, the node is still PRIMARY, and the
service has been stopped. -/
theorem not_running_iff_primary : ¬ ∀ cfg s, cfg.efm.enabled = true →
    Rests cfg (fun _ _ _ => True) s → (s.running = true ↔ s.daemon.node.role = .primary) := by
  intro h
  have hrests : Rests sampleConfig (fun _ _ _ => True)
      (handedOver fun op => op == .net .releaseVip) :=
    .phase rests_started (by simp) (trace_run _ _ _) (by decide) trivial
      (history_phaseRun (by decide))
  have hrunning := (h sampleConfig _ (by decide) hrests).mpr (by decide)
  exact absurd hrunning (by decide)

end PgHa.EfmService
