import PgHa.Daemon
import PgHa.Effect.Triple
import PgHa.Model.Host

/-!
# Health between the monitors

`_main_loop` writes the health of the node from two monitors.  An OS snapshot
that is degraded makes it DEGRADED, and a passing check of PostgreSQL makes it
HEALTHY; an OS snapshot that is not degraded changes nothing.  So only the
other monitor takes DEGRADED back, and on a node that is not PRIMARY that
monitor is switched off.

`Overloaded` says of the snapshots that the passes have read, and of nothing
else, whether the node is DEGRADED, and `recovers_iff` when the health follows
the load.
-/

namespace PgHa.Health

open Effect

variable {cfg : Config}

/-! ## Runs of the main loop -/

/-- The check of PostgreSQL has been made, and has passed. -/
def pgPasses : Option PgHealthSnapshot → Bool
  | some snap => snap.ok
  | none => false

def osDegraded : Option OsHealthSnapshot → Bool
  | some snap => snap.degraded
  | none => false

/-- What happens to the health: a pass in which no transition runs, with the snapshots that it
reads, or a time in which transitions run, with the health that they leave. -/
inductive Iteration
  | pass (pgSnap : Option PgHealthSnapshot) (osSnap : Option OsHealthSnapshot)
  | transition (left : NodeHealth)

def pgSnapOf : Event Call.Ret Exc → Option (Option PgHealthSnapshot)
  | ⟨.host .pgMonSnapshot, .ok snap⟩ => some snap
  | _ => none

def osSnapOf : Event Call.Ret Exc → Option (Option OsHealthSnapshot)
  | ⟨.host .osMonSnapshot, .ok snap⟩ => some snap
  | _ => none

/-- The snapshots that a pass reads. -/
structure Reads (trace : List (Event Call.Ret Exc)) (pgSnap : Option PgHealthSnapshot)
    (osSnap : Option OsHealthSnapshot) : Prop where
  pg : trace.filterMap pgSnapOf = [pgSnap]
  os : trace.filterMap osSnapOf = [osSnap]

/-- The node begins to demote itself. -/
def demotes : Event Call.Ret Exc → Bool
  | ⟨.host (.mark (.enter .selfDemotion)), _⟩ => true
  | _ => false

/-- What has happened so far, newest first. -/
inductive Runs (cfg : Config) (start : DaemonState) : List Iteration → DaemonState → Prop
  | nil : Runs cfg start [] start
  | pass {history : List Iteration} {s s' : DaemonState} {trace : List (Event Call.Ret Exc)}
      {pgSnap : Option PgHealthSnapshot} {osSnap : Option OsHealthSnapshot}
      (hruns : Runs cfg start history s)
      (htrace : (PgHaDaemon.mainLoopPass cfg).Trace trace (.returned ()))
      (hhistory : History DaemonState.alone s trace s') (hquiet : trace.any demotes = false)
      (hreads : Reads trace pgSnap osSnap) (habsent : s.node.role ≠ .primary → pgSnap = none) :
      Runs cfg start (.pass pgSnap osSnap :: history) s'
  | transition {history : List Iteration} {s s' : DaemonState} (hruns : Runs cfg start history s) :
      Runs cfg start (.transition s'.node.health :: history) s'

/-- The node is DEGRADED, as far as the snapshots tell: the OS snapshot of some pass was
degraded, and no check of PostgreSQL has passed since. -/
def Overloaded (initial : NodeHealth) : List Iteration → Prop
  | [] => initial = .degraded
  | .pass pgSnap osSnap :: earlier =>
      osDegraded osSnap = true ∨ pgPasses pgSnap = false ∧ Overloaded initial earlier
  | .transition left :: _ => left = .degraded

theorem overloaded_pass {initial : NodeHealth} {pgSnap : Option PgHealthSnapshot}
    {osSnap : Option OsHealthSnapshot} {earlier : List Iteration} :
    Overloaded initial (.pass pgSnap osSnap :: earlier) ↔
      osDegraded osSnap = true ∨ pgPasses pgSnap = false ∧ Overloaded initial earlier := Iff.rfl

/-! ## One pass -/

/-- The health after a pass in which no transition runs. -/
def refreshed (health : NodeHealth) (pgSnap : Option PgHealthSnapshot)
    (osSnap : Option OsHealthSnapshot) : NodeHealth :=
  if osDegraded osSnap then .degraded else if pgPasses pgSnap then .healthy else health

theorem refreshed_of_degraded {health : NodeHealth} {pgSnap : Option PgHealthSnapshot}
    {osSnap : Option OsHealthSnapshot} (h : osDegraded osSnap = true) :
    refreshed health pgSnap osSnap = .degraded := if_pos h

theorem refreshed_of_recovered {health : NodeHealth} {pgSnap : Option PgHealthSnapshot}
    {osSnap : Option OsHealthSnapshot} (h : osDegraded osSnap = false) :
    refreshed health pgSnap osSnap = if pgPasses pgSnap then .healthy else health :=
  if_neg (by simp [h])

abbrev Logged := DaemonState × List (Event Call.Ret Exc)

abbrev during : Transformer Call.Ret Exc Logged := demonic (logged DaemonState.alone)

theorem during_monotone : during.Monotone := demonic_monotone _

/-- The snapshots that have been read, and the health, unless the node has begun to demote
itself. -/
structure Reading (pgSnaps : List (Option PgHealthSnapshot))
    (osSnaps : List (Option OsHealthSnapshot)) (health : NodeHealth) (s : Logged) : Prop where
  pg : s.2.filterMap pgSnapOf = pgSnaps
  os : s.2.filterMap osSnapOf = osSnaps
  health : s.2.any demotes = true ∨ s.1.node.health = health

/-- The node has begun to demote itself. -/
structure Demoting (pgSnaps : List (Option PgHealthSnapshot))
    (osSnaps : List (Option OsHealthSnapshot)) (s : Logged) : Prop where
  pg : s.2.filterMap pgSnapOf = pgSnaps
  os : s.2.filterMap osSnapOf = osSnaps
  begun : s.2.any demotes = true

/-- The operations that read no snapshot. -/
def Unread : Call → Prop
  | .host .pgMonSnapshot | .host .osMonSnapshot => False
  | _ => True

/-- The operations that do not change the health either. -/
def Plain : Call → Prop
  | .host .pgMonSnapshot | .host .osMonSnapshot | .host (.setHealth _) => False
  | _ => True

/-- The operations, among these, that leave the role. -/
def Still : Call → Prop
  | .host .pgMonSnapshot | .host .osMonSnapshot | .host (.setHealth _) | .host (.setRole _) => False
  | _ => True

theorem unread_of_plain {op : Call} (h : Plain op) : Unread op := by
  unfold Unread
  split <;> trivial

theorem plain_of_still {op : Call} (h : Still op) : Plain op := by
  unfold Plain
  split <;> trivial

section Pass

variable {pgSnaps : List (Option PgHealthSnapshot)} {osSnaps : List (Option OsHealthSnapshot)}
  {health : NodeHealth} {s s' : Logged} {op : Call} {answer : Except Exc op.Ret} {α : Type}
  {program : Mgr α}

theorem snaps_of_unread (hop : Unread op) (hstep : logged DaemonState.alone s ⟨op, answer⟩ s') :
    s'.2.filterMap pgSnapOf = s.2.filterMap pgSnapOf ∧
      s'.2.filterMap osSnapOf = s.2.filterMap osSnapOf := by
  have hnone : pgSnapOf ⟨op, answer⟩ = none ∧ osSnapOf ⟨op, answer⟩ = none := by
    cases op with
    | disk call => exact ⟨rfl, rfl⟩
    | net call => exact ⟨rfl, rfl⟩
    | host call => cases call <;> first | exact ⟨rfl, rfl⟩ | exact hop.elim
  rw [logged_filterMap pgSnapOf hstep, logged_filterMap osSnapOf hstep]
  simp [hnone.1, hnone.2]

theorem health_of_plain (hop : Plain op) (hstep : logged DaemonState.alone s ⟨op, answer⟩ s') :
    s'.1.node.health = s.1.node.health := by
  cases op with
  | disk call => exact congrArg (·.node.health) hstep.1
  | net call => exact congrArg (·.node.health) hstep.1
  | host call =>
      have hafter : s'.1 = s.1.after call := hstep.1.2
      rw [hafter]
      cases call <;> first | rfl | exact hop.elim

theorem role_of_still (hop : Still op) (hstep : logged DaemonState.alone s ⟨op, answer⟩ s') :
    s'.1.node.role = s.1.node.role := by
  cases op with
  | disk call => exact congrArg (·.node.role) hstep.1
  | net call => exact congrArg (·.node.role) hstep.1
  | host call =>
      have hafter : s'.1 = s.1.after call := hstep.1.2
      rw [hafter]
      apply DaemonState.after_role
      rintro role rfl
      exact hop

theorem demotes_append (hstep : logged DaemonState.alone s ⟨op, answer⟩ s')
    (h : s.2.any demotes = true) : s'.2.any demotes = true := by
  rw [hstep.2, List.any_append, h, Bool.true_or]

theorem Reading.of_plain (hs : Reading pgSnaps osSnaps health s) (hop : Plain op)
    (hstep : logged DaemonState.alone s ⟨op, answer⟩ s') : Reading pgSnaps osSnaps health s' := by
  obtain ⟨hpg, hos⟩ := snaps_of_unread (unread_of_plain hop) hstep
  refine ⟨hpg.trans hs.pg, hos.trans hs.os, ?_⟩
  rcases hs.health with hbegun | hhealth
  · exact .inl (demotes_append hstep hbegun)
  · exact .inr ((health_of_plain hop hstep).trans hhealth)

theorem Demoting.of_unread (hs : Demoting pgSnaps osSnaps s) (hop : Unread op)
    (hstep : logged DaemonState.alone s ⟨op, answer⟩ s') : Demoting pgSnaps osSnaps s' := by
  obtain ⟨hpg, hos⟩ := snaps_of_unread hop hstep
  exact ⟨hpg.trans hs.pg, hos.trans hs.os, demotes_append hstep hs.begun⟩

/-- Of a pass that raises nothing is said: the daemon ends. -/
abbrev Ends (P : Logged → Prop) (program : Mgr α) (Q : α → Logged → Prop) : Prop :=
  Prog.Triple during P program Q fun _ => True

theorem plain_ends (hcalls : program.Calls Plain) :
    Ends (Reading pgSnaps osSnaps health) program fun _ => Reading pgSnaps osSnaps health := by
  have hkeeps : Prog.Keeps during (Reading pgSnaps osSnaps health) program :=
    .of_calls during_monotone (fun _ hop _ hs _ _ hstep => hs.of_plain hop hstep) hcalls
  exact hkeeps.conseq during_monotone (fun _ => id) (fun _ _ => id) fun _ _ => trivial

theorem demoting_ends (hcalls : program.Calls Unread) :
    Ends (Demoting pgSnaps osSnaps) program fun _ => Demoting pgSnaps osSnaps := by
  have hkeeps : Prog.Keeps during (Demoting pgSnaps osSnaps) program :=
    .of_calls during_monotone (fun _ hop _ hs _ _ hstep => hs.of_unread hop hstep) hcalls
  exact hkeeps.conseq during_monotone (fun _ => id) (fun _ _ => id) fun _ _ => trivial

theorem Reading.setHealth {health' : NodeHealth} {answer : Except Exc Unit}
    (hs : Reading pgSnaps osSnaps health s)
    (hstep : logged DaemonState.alone s ⟨.host (.setHealth health'), answer⟩ s') :
    Reading pgSnaps osSnaps health' s' ∧ s'.1.node.role = s.1.node.role := by
  have hunread : Unread (.host (.setHealth health')) := trivial
  obtain ⟨hpg, hos⟩ := snaps_of_unread hunread hstep
  have hafter : s'.1 = s.1.after (.setHealth health') := hstep.1.2
  refine ⟨⟨hpg.trans hs.pg, hos.trans hs.os, .inr ?_⟩, ?_⟩
  · rw [hafter]
    rfl
  · rw [hafter]
    rfl

theorem setHealth_ends (health' : NodeHealth) : Ends (Reading pgSnaps osSnaps health)
    (Mgr.host (.setHealth health')) fun _ => Reading pgSnaps osSnaps health' := by
  apply Prog.Triple.perform
  intro s hs answer s' hstep
  have hreading := (hs.setHealth hstep).1
  cases answer with
  | ok _ => exact hreading
  | error exc => trivial

/-! ### The reaction to a failed check -/

/-- A PRIMARY that has not begun to demote itself. -/
def OnPrimary (pgSnaps : List (Option PgHealthSnapshot))
    (osSnaps : List (Option OsHealthSnapshot)) (health : NodeHealth) (s : Logged) : Prop :=
  Reading pgSnaps osSnaps health s ∧ s.1.node.role = .primary

theorem onPrimary_ends (hcalls : program.Calls Still) :
    Ends (OnPrimary pgSnaps osSnaps health) program fun _ => OnPrimary pgSnaps osSnaps health := by
  have hkeeps : Prog.Keeps during (OnPrimary pgSnaps osSnaps health) program := by
    apply Prog.Triple.of_calls during_monotone _ hcalls
    intro op hop s hs answer s' hstep
    exact ⟨hs.1.of_plain (plain_of_still hop) hstep, (role_of_still hop hstep).trans hs.2⟩
  exact hkeeps.conseq during_monotone (fun _ => id) (fun _ _ => id) fun _ _ => trivial

/-- The role that is read is the node's. -/
theorem isPrimary_ends {P : Logged → Prop}
    (hP : ∀ s answer s', P s → logged DaemonState.alone s ⟨.host .role, answer⟩ s' → P s') :
    Ends P LocalNode.isPrimary fun primary s =>
      P s ∧ (primary = true ↔ s.1.node.role = .primary) := by
  have hrole : Ends P (Mgr.host .role) fun role s => P s ∧ s.1.node.role = role := by
    apply Prog.Triple.perform
    intro s hs answer s' hstep
    obtain ⟨hanswer, hafter⟩ := hstep.1
    -- the operation returns what the state holds
    obtain rfl : answer = .ok s.1.node.role := hanswer
    have hend : P s' ∧ s'.1.node.role = s.1.node.role :=
      ⟨hP s _ s' hs hstep, congrArg (·.node.role) hafter⟩
    exact hend
  apply hrole.bind during_monotone
  intro role
  apply Prog.Triple.pure
  intro s hs
  refine ⟨hs.1, ?_⟩
  rw [hs.2, beq_iff_eq]

theorem unread_of_demoting {op : Call} (h : PgHaDaemon.Demoting op) : Unread op := by
  unfold Unread
  split <;> trivial

/-- A PRIMARY that is told to demote itself begins to. -/
theorem selfDemote_ends : Ends (OnPrimary pgSnaps osSnaps health)
    (PgHaDaemon.selfDemoteAfterPgFailure cfg) fun _ => Demoting pgSnaps osSnaps := by
  have hprimary : Ends (OnPrimary pgSnaps osSnaps health) LocalNode.isPrimary fun primary s =>
      OnPrimary pgSnaps osSnaps health s ∧ (primary = true ↔ s.1.node.role = .primary) := by
    apply isPrimary_ends
    intro s answer s' hs hstep
    have hstill : Still (.host .role) := trivial
    exact ⟨hs.1.of_plain (plain_of_still hstill) hstep, (role_of_still hstill hstep).trans hs.2⟩
  apply hprimary.bind during_monotone
  intro primary
  apply Prog.Triple.ite
  · intro hnot s hs
    have hrole : primary = true := hs.2.mpr hs.1.2
    simp [hrole] at hnot
  · intro _
    have henter : Ends (fun s => OnPrimary pgSnaps osSnaps health s ∧
        (primary = true ↔ s.1.node.role = .primary)) (Mgr.host (.mark (.enter .selfDemotion)))
        fun _ => Demoting pgSnaps osSnaps := by
      apply Prog.Triple.perform
      intro s hs answer s' hstep
      have hunread : Unread (.host (.mark (.enter .selfDemotion))) := trivial
      obtain ⟨hpg, hos⟩ := snaps_of_unread hunread hstep
      obtain rfl : answer = .ok () := hstep.1.1
      have hend : Demoting pgSnaps osSnaps s' := by
        refine ⟨hpg.trans hs.1.1.pg, hos.trans hs.1.1.os, ?_⟩
        rw [hstep.2, List.any_append]
        simp [demotes]
      exact hend
    -- nothing in the rest of the demotion reads a snapshot
    apply henter.bind during_monotone
    intro _
    have hsequence := PgHaDaemon.demotionSequence_demoting cfg
    exact demoting_ends ((hsequence.2 (.ok ())).mono fun _ => unread_of_demoting)

theorem Demoting.reading {s : Logged} (hs : Demoting pgSnaps osSnaps s) :
    Reading pgSnaps osSnaps health s :=
  ⟨hs.pg, hs.os, .inl hs.begun⟩

/-- The health changes only when the node goes on to demote itself. -/
theorem handlePgFailure_ends : Ends (Reading pgSnaps osSnaps health)
    (PgHaDaemon.handlePgFailure cfg) fun _ => Reading pgSnaps osSnaps health := by
  have hhost (call : HostCall) (hplain : Plain (.host call)) :
      (Mgr.host call).Calls Plain := Prog.Calls.perform hplain
  have hleft : Ends (OnPrimary pgSnaps osSnaps health) (.pure () : Mgr Unit)
      fun _ => Reading pgSnaps osSnaps health := .pure fun _ hs => hs.1
  apply (plain_ends (hhost .pgMonConsecutiveFailures trivial)).bind during_monotone
  intro failures
  refine Prog.Triple.ite (fun _ => ?_) fun _ => .pure fun _ hs => hs
  have hplain : Plain (.host .role) := trivial
  apply (isPrimary_ends fun s answer s' hs hstep => hs.of_plain hplain hstep).bind during_monotone
  intro primary
  refine Prog.Triple.ite (fun hprimary => ?_) fun _ => .pure fun _ hs => hs.1
  have hrest : Ends (OnPrimary pgSnaps osSnaps health) (do
      if !(← Mgr.host .switchoverActive) then
        if ← PgHaDaemon.isMaintenance cfg then
          pure ()
        else
          Mgr.host (.setHealth .failed)
          PgHaDaemon.selfDemoteAfterPgFailure cfg) fun _ => Reading pgSnaps osSnaps health := by
    have hread (call : HostCall) (hstill : Still (.host call)) :
        (Mgr.host call).Calls Still := Prog.Calls.perform hstill
    apply (onPrimary_ends (hread .switchoverActive trivial)).bind during_monotone
    intro active
    refine Prog.Triple.ite (fun _ => ?_) fun _ => hleft
    apply (onPrimary_ends (hread (.isfile cfg.cluster.maintenanceFile) trivial)).bind
      during_monotone
    intro maintenance
    refine Prog.Triple.ite (fun _ => hleft) fun _ => ?_
    -- a demotion that begins leaves FAILED, whatever the operating system says
    have hfailed : Ends (OnPrimary pgSnaps osSnaps health) (Mgr.host (.setHealth .failed))
        fun _ => OnPrimary pgSnaps osSnaps .failed := by
      apply Prog.Triple.perform
      intro s hs answer s' hstep
      obtain ⟨hreading, hrole⟩ := hs.1.setHealth hstep
      cases answer with
      | ok _ => exact ⟨hreading, hrole.trans hs.2⟩
      | error exc => trivial
    apply hfailed.bind during_monotone
    intro _
    exact selfDemote_ends.conseq during_monotone (fun _ => id) (fun _ _ => Demoting.reading)
      fun _ => id
  exact hrest.conseq during_monotone (fun _ hs => ⟨hs.1, hs.2.mp hprimary⟩) (fun _ _ => id)
    fun _ => id

/-! ### The pass -/

/-- What is read is added to what has been read. -/
theorem Reading.read (hs : Reading pgSnaps osSnaps health s)
    (hstep : logged DaemonState.alone s ⟨op, answer⟩ s')
    (hhealth : s'.1.node.health = s.1.node.health) :
    Reading (pgSnaps ++ (pgSnapOf ⟨op, answer⟩).toList) (osSnaps ++ (osSnapOf ⟨op, answer⟩).toList)
      health s' := by
  refine ⟨?_, ?_, ?_⟩
  · rw [logged_filterMap pgSnapOf hstep, hs.pg]
  · rw [logged_filterMap osSnapOf hstep, hs.os]
  · rcases hs.health with hbegun | hknown
    · exact .inl (demotes_append hstep hbegun)
    · exact .inr (hhealth.trans hknown)

theorem pgMonSnapshot_ends : Ends (Reading [] [] health) (Mgr.host .pgMonSnapshot)
    fun pgSnap => Reading [pgSnap] [] health := by
  apply Prog.Triple.perform
  intro s hs answer s' hstep
  obtain ⟨⟨pgSnap, rfl⟩, hafter⟩ := hstep.1
  exact hs.read hstep (congrArg (·.node.health) hafter)

theorem osMonSnapshot_ends {pgSnap : Option PgHealthSnapshot} :
    Ends (Reading [pgSnap] [] health) (Mgr.host .osMonSnapshot)
      fun osSnap => Reading [pgSnap] [osSnap] health := by
  apply Prog.Triple.perform
  intro s hs answer s' hstep
  obtain ⟨⟨osSnap, rfl⟩, hafter⟩ := hstep.1
  exact hs.read hstep (congrArg (·.node.health) hafter)

/-- The health that is read is the node's. -/
theorem health_ends : Ends (Reading pgSnaps osSnaps health) (Mgr.host .health)
    fun current s => Reading pgSnaps osSnaps health s ∧ s.1.node.health = current := by
  apply Prog.Triple.perform
  intro s hs answer s' hstep
  have hplain : Plain (.host .health) := trivial
  obtain rfl : answer = .ok s.1.node.health := hstep.1.1
  have hend : Reading pgSnaps osSnaps health s' ∧ s'.1.node.health = s.1.node.health :=
    ⟨hs.of_plain hplain hstep, health_of_plain hplain hstep⟩
  exact hend

theorem plain_of_watching {op : Call} (h : PgHaDaemon.Watching op) : Plain op := by
  unfold Plain
  split <;> trivial

/-- What a pass has read, and what it has made of it. -/
def Refreshed (health : NodeHealth) (s : Logged) : Prop :=
  ∃ pgSnap osSnap, Reading [pgSnap] [osSnap] (refreshed health pgSnap osSnap) s

/-- The OS monitor has the last word. -/
theorem noteOsSnapshot_ends {pgSnap : Option PgHealthSnapshot} {osSnap : Option OsHealthSnapshot}
    {known : NodeHealth} (hknown : known = if pgPasses pgSnap then .healthy else health) :
    Ends (Reading [pgSnap] [osSnap] known) (PgHaDaemon.noteOsSnapshot osSnap)
      fun _ => Refreshed health := by
  have hrecovered (hos : osDegraded osSnap = false) :
      Ends (Reading [pgSnap] [osSnap] known) (.pure ()) fun _ => Refreshed health := by
    apply Prog.Triple.pure
    intro s hs
    refine ⟨pgSnap, osSnap, ?_⟩
    rw [refreshed_of_recovered hos, ← hknown]
    exact hs
  cases osSnap with
  | none => exact hrecovered rfl
  | some snap =>
      apply Prog.Triple.ite
      · intro hdegraded
        apply (setHealth_ends .degraded).conseq during_monotone (fun _ => id) _ fun _ => id
        intro _ s hs
        have hos : osDegraded (some snap) = true := hdegraded
        refine ⟨pgSnap, some snap, ?_⟩
        rw [refreshed_of_degraded hos]
        exact hs
      · intro hdegraded
        exact hrecovered (by simpa [osDegraded] using hdegraded)

theorem refreshState_ends : Ends (Reading [] [] health) (PgHaDaemon.refreshState cfg)
    fun _ => Refreshed health := by
  have hhost (call : HostCall) (hplain : Plain (.host call)) :
      (Mgr.host call).Calls Plain := Prog.Calls.perform hplain
  have hrole : LocalNode.isPrimary.Calls Plain := .perform_bind trivial fun _ => trivial
  apply (plain_ends hrole).bind during_monotone
  intro primary
  apply (plain_ends (hhost (.pgMonSetActive primary) trivial)).bind during_monotone
  intro _
  apply pgMonSnapshot_ends.bind during_monotone
  intro pgSnap
  apply osMonSnapshot_ends.bind during_monotone
  intro osSnap
  cases pgSnap with
  | none => exact noteOsSnapshot_ends rfl
  | some snap =>
      apply (plain_ends (hhost (.setPgState snap.state) trivial)).bind during_monotone
      intro _
      apply Prog.Triple.ite
      · -- a failed check does not take DEGRADED back
        intro hfailed
        apply handlePgFailure_ends.bind during_monotone
        intro _
        apply noteOsSnapshot_ends
        rw [pgPasses, if_neg (by simpa using hfailed)]
      · intro hpasses
        have hok : pgPasses (some snap) = true := by simpa [pgPasses] using hpasses
        have hhealthy : NodeHealth.healthy = if pgPasses (some snap) then .healthy else health :=
          (if_pos hok).symm
        apply health_ends.bind during_monotone
        intro current
        apply Prog.Triple.ite
        · intro _
          have hset : Ends (fun s => Reading [some snap] [osSnap] health s ∧
              s.1.node.health = current) (Mgr.host (.setHealth .healthy))
              fun _ => Reading [some snap] [osSnap] .healthy :=
            (setHealth_ends .healthy).conseq during_monotone (fun _ hs => hs.1) (fun _ _ hs => hs)
              fun _ hs => hs
          exact hset.bind during_monotone fun _ => noteOsSnapshot_ends hhealthy
        · intro hcurrent
          apply (noteOsSnapshot_ends hhealthy).conseq during_monotone _
            (fun _ _ hs => hs) fun _ hs => hs
          rintro s ⟨hs, rfl⟩
          exact ⟨hs.pg, hs.os, .inr (of_not_not hcurrent)⟩

/-- A pass that returns has read one snapshot of each monitor. -/
theorem mainLoopPass_ends :
    Ends (Reading [] [] health) (PgHaDaemon.mainLoopPass cfg) fun _ => Refreshed health := by
  have hdrain : (PgHaDaemon.drainEvents cfg cfg.loopBound).Calls Plain :=
    (PgHaDaemon.drainEvents_watching cfg _).mono fun _ => plain_of_watching
  have hfallback : (PgHaDaemon.heartbeatFallback cfg).Calls Plain :=
    (PgHaDaemon.heartbeatFallback_watching cfg).mono fun _ => plain_of_watching
  apply (plain_ends hdrain).bind during_monotone
  intro _
  apply refreshState_ends.bind during_monotone
  intro _ s ⟨pgSnap, osSnap, hs⟩
  apply Prog.wp_mono during_monotone _ (plain_ends hfallback s hs)
  intro outcome s' hend
  cases outcome with
  | returned _ => exact ⟨pgSnap, osSnap, hend⟩
  | raised exc => trivial
  | stuck => trivial

end Pass

/-! ## Whole runs -/

section Runs

variable {start s s' : DaemonState} {history : List Iteration} {pgSnap : Option PgHealthSnapshot}
  {osSnap : Option OsHealthSnapshot}

theorem health_of_pass {trace : List (Event Call.Ret Exc)}
    (htrace : (PgHaDaemon.mainLoopPass cfg).Trace trace (.returned ()))
    (hhistory : History DaemonState.alone s trace s') (hquiet : trace.any demotes = false)
    (hreads : Reads trace pgSnap osSnap) :
    s'.node.health = refreshed s.node.health pgSnap osSnap := by
  have hstart : Reading [] [] s.node.health (s, []) := ⟨rfl, rfl, .inr rfl⟩
  have hend := Prog.trace_wp (mainLoopPass_ends (s, []) hstart) htrace (hhistory.logged [])
  obtain ⟨pgSnap', osSnap', hreading⟩ := hend
  have hpg : [pgSnap'] = [pgSnap] := hreading.pg.symm.trans hreads.pg
  have hos : [osSnap'] = [osSnap] := hreading.os.symm.trans hreads.os
  obtain ⟨rfl, -⟩ := List.cons.inj hpg
  obtain ⟨rfl, -⟩ := List.cons.inj hos
  -- no transition has run in this pass
  rcases hreading.health with hbegun | hhealth
  · exact absurd (hbegun.symm.trans hquiet) (by decide)
  · exact hhealth

theorem refreshed_eq_degraded_iff {health : NodeHealth} :
    refreshed health pgSnap osSnap = .degraded ↔
      osDegraded osSnap = true ∨ pgPasses pgSnap = false ∧ health = .degraded := by
  unfold refreshed
  cases osDegraded osSnap <;> cases pgPasses pgSnap <;> simp

/-- The health is what the snapshots tell, by induction on what has happened. -/
theorem degraded_iff (h : Runs cfg start history s) :
    s.node.health = .degraded ↔ Overloaded start.node.health history := by
  induction h with
  | nil => exact Iff.rfl
  | transition => exact Iff.rfl
  | pass _ htrace hhistory hquiet hreads _ ih =>
      rw [health_of_pass htrace hhistory hquiet hreads, refreshed_eq_degraded_iff, ih]
      exact Iff.rfl

/-- **Health follows the load.**  At the end of a pass in which no transition runs, DEGRADED
means that the OS snapshot of this pass is degraded if and only if the node was not overloaded
before, or this pass has read an OS snapshot that is degraded or a check of PostgreSQL that has
passed. -/
theorem recovers_iff (h : Runs cfg start (.pass pgSnap osSnap :: history) s) :
    (s.node.health = .degraded → osDegraded osSnap = true) ↔
      (Overloaded start.node.health history → osDegraded osSnap = true ∨
        pgPasses pgSnap = true) := by
  rw [degraded_iff h, overloaded_pass]
  cases osDegraded osSnap <;> cases pgPasses pgSnap <;> simp

/-- Without a passing check of PostgreSQL, as on every node that is not PRIMARY, a node that has
been overloaded stays DEGRADED for ever. -/
theorem degraded_for_ever {later earlier : List Iteration} (h : Runs cfg start (later ++ earlier) s)
    (hlater : ∀ iteration ∈ later, ∃ pgSnap osSnap, iteration = .pass pgSnap osSnap ∧
      pgPasses pgSnap = false) (hearlier : Overloaded start.node.health earlier) :
    s.node.health = .degraded := by
  rw [degraded_iff h]
  clear h
  induction later with
  | nil => exact hearlier
  | cons iteration later ih =>
      obtain ⟨pgSnap, osSnap, rfl, hpg⟩ := hlater iteration List.mem_cons_self
      have hbefore := ih fun other hother => hlater other (List.mem_cons_of_mem _ hother)
      exact .inr ⟨hpg, hbefore⟩

end Runs

/-! ## Sample runs -/

/-- A host on which every operation succeeds and the monitors answer with these snapshots. -/
def observed (pgSnap : Option PgHealthSnapshot) (osSnap : Option OsHealthSnapshot) :
    (op : Call) → DaemonState → Except Exc op.Ret × DaemonState
  | .host .pgMonSnapshot, s => (.ok pgSnap, s)
  | .host .osMonSnapshot, s => (.ok osSnap, s)
  | .host call, s => (s.reply call, s.after call)
  | .disk call, s => (call.reply, s)
  | .net _, s => (.ok (), s)

def takesLock : Call → Bool
  | .host (.acquireFailoverLock _) => true
  | _ => false

theorem alone_observed (pgSnap : Option PgHealthSnapshot) (osSnap : Option OsHealthSnapshot)
    (s : DaemonState) (op : Call) (hlock : (!takesLock op) = true) :
    DaemonState.alone s ⟨op, (observed pgSnap osSnap op s).1⟩ (observed pgSnap osSnap op s).2 := by
  cases op with
  | disk call => rfl
  | net call => rfl
  | host call =>
      have hreply : s.Answers call (s.reply call) := by
        apply DaemonState.answers_reply
        rintro blocking rfl
        simp [takesLock] at hlock
      cases call with
      | pgMonSnapshot => exact ⟨⟨pgSnap, rfl⟩, rfl⟩
      | osMonSnapshot => exact ⟨⟨osSnap, rfl⟩, rfl⟩
      | _ => exact ⟨hreply, rfl⟩

/-- A pass of the main loop that reads these snapshots. -/
def passRun (pgSnap : Option PgHealthSnapshot) (osSnap : Option OsHealthSnapshot)
    (s : DaemonState) : Run Call.Ret Exc Unit DaemonState :=
  (PgHaDaemon.mainLoopPass .samplePrimary).run (observed pgSnap osSnap) s

theorem runs_passRun {start s : DaemonState} {history : List Iteration}
    {pgSnap : Option PgHealthSnapshot} {osSnap : Option OsHealthSnapshot}
    (hruns : Runs .samplePrimary start history s)
    (hreturned : (passRun pgSnap osSnap s).outcome = .returned ())
    (hlock : (passRun pgSnap osSnap s).log.all (fun event => !takesLock event.op) = true)
    (hquiet : (passRun pgSnap osSnap s).log.any demotes = false)
    (hreads : Reads (passRun pgSnap osSnap s).log pgSnap osSnap)
    (habsent : s.node.role ≠ .primary → pgSnap = none) :
    Runs .samplePrimary start (.pass pgSnap osSnap :: history) (passRun pgSnap osSnap s).final := by
  have htrace := trace_run (observed pgSnap osSnap) (PgHaDaemon.mainLoopPass .samplePrimary) s
  apply Runs.pass hruns (hreturned ▸ htrace) _ hquiet hreads habsent
  exact history_run_of_log (alone_observed pgSnap osSnap) _ _ hlock

/-- A node whose startup election has ended. -/
def elected (role : NodeRole) : DaemonState where
  node := { name := "pg-primary", role, health := .healthy }
  attempts := 0
  lastAttemptTs := 0
  peerInstanceStatus := "UNKNOWN"
  switchoverActive := false
  failoverLocked := false
  lastDemotionTs := 0

def overload : Option OsHealthSnapshot := some ⟨true⟩

def recovery : Option OsHealthSnapshot := some ⟨false⟩

/-- A pass in which the OS load is too high, and one in which it has gone down again. -/
def recovered (role : NodeRole) (pgSnap : Option PgHealthSnapshot) : DaemonState :=
  (passRun pgSnap recovery (passRun none overload (elected role)).final).final

theorem runs_overload (role : NodeRole) : Runs .samplePrimary (elected role)
    [.pass none overload] (passRun none overload (elected role)).final := by
  cases role <;>
    exact runs_passRun .nil (by decide) (by decide) (by decide) ⟨by decide, by decide⟩ fun _ => rfl

/-- The check of PostgreSQL has passed, and the PRIMARY is not DEGRADED any more. -/
theorem recovers_iff_recovered :
    (recovered .primary (some ⟨true, .runningPrimary⟩)).node.health ≠ .degraded := by
  have hruns : Runs .samplePrimary (elected .primary)
      [.pass (some ⟨true, .runningPrimary⟩) recovery, .pass none overload]
      (recovered .primary (some ⟨true, .runningPrimary⟩)) :=
    runs_passRun (runs_overload .primary) (by decide) (by decide) (by decide)
      ⟨by decide, by decide⟩ (by decide)
  have hpasses : pgPasses (some ⟨true, .runningPrimary⟩) = true := by decide
  have hload : osDegraded recovery ≠ true := by decide
  exact fun hdegraded => hload ((recovers_iff hruns).mpr (fun _ => .inr hpasses) hdegraded)

/-- A STANDBY whose load has gone down again is still DEGRADED. -/
theorem not_recovers : ¬ ∀ cfg start history pgSnap osSnap s,
    Runs cfg start (.pass pgSnap osSnap :: history) s → s.node.health = .degraded →
      osDegraded osSnap = true := by
  intro h
  have hruns : Runs .samplePrimary (elected .standby) [.pass none recovery, .pass none overload]
      (recovered .standby none) :=
    runs_passRun (runs_overload .standby) (by decide) (by decide) (by decide)
      ⟨by decide, by decide⟩ fun _ => rfl
  have hdegraded := h _ _ _ _ _ _ hruns (by decide)
  exact absurd hdegraded (by decide)

end PgHa.Health
