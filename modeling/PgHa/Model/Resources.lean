import PgHa.Model.Host

/-!
# What a node holds

The resources that make a node a primary, and what the operations of the
managers do to them.  An operation may have had its effect or not, whether it
raises or returns, and the node may lose a resource at any time.
-/

namespace PgHa

open Effect

/-- What a primary holds. -/
inductive Resource
  | vip
  | postgres
  | filesystem
  | disk
  deriving DecidableEq

namespace Call

/-- The resource that an operation acquires. -/
def acquires : Call → Option Resource
  | .disk .attachDiskRw => some .disk
  | .disk .mountDisk => some .filesystem
  | .disk .startPostgres => some .postgres
  | .net .acquireVip => some .vip
  | _ => none

/-- The resource that an operation releases; PostgreSQL is one of the users of
the mount. -/
def releases : Call → Option Resource
  | .disk .detachDisk => some .disk
  | .disk .unmountDisk => some .filesystem
  | .disk (.stopPostgres _) | .host (.killMountUsers _) => some .postgres
  | .net .releaseVip => some .vip
  | _ => none

theorem acquires_of_releases {op : Call} {r : Resource} (h : op.releases = some r) :
    op.acquires = none := by
  unfold releases at h
  split at h <;> first | rfl | cases h

end Call

/-- What is held once an operation has done its work. -/
def Call.done (op : Call) (held : Resource → Bool) (r : Resource) : Bool :=
  if op.acquires = some r then true else if op.releases = some r then false else held r

/-- The operations that change nothing that a node holds and nothing that it says
of its role, its database and its disk. -/
def Call.passive : Call → Prop
  | .host (.setRole _) | .host (.setPgState _) | .host (.setDiskState _)
  | .host (.killMountUsers _) => False
  | .host _ | .disk .currentRwHolder | .disk (.getInstanceStatus ..) => True
  | _ => False

theorem Call.done_of_passive {op : Call} (h : op.passive) (held : Resource → Bool) :
    op.done held = held := by
  funext r
  cases op with
  | net call => cases call <;> exact h.elim
  | disk call => cases call <;> first | exact h.elim | rfl
  | host call => cases call <;> first | exact h.elim | rfl

theorem Call.acquires_of_passive {op : Call} (h : op.passive) : op.acquires = none := by
  cases op with
  | net call => cases call <;> exact h.elim
  | disk call => cases call <;> first | exact h.elim | rfl
  | host call => rfl

theorem Call.releases_of_passive {op : Call} (h : op.passive) : op.releases = none := by
  cases op with
  | net call => cases call <;> exact h.elim
  | disk call => cases call <;> first | exact h.elim | rfl
  | host call => cases call <;> first | exact h.elim | rfl

/-- One node: its daemon, and what it holds. -/
structure NodeWorld where
  daemon : DaemonState
  held : Resource → Bool

/-- An operation of a thread that runs alone.  It adds at most the resource that
it is there to acquire. -/
structure NodeStep (s : NodeWorld) (event : Event Call.Ret Exc) (s' : NodeWorld) : Prop where
  daemon : DaemonState.alone s.daemon event s'.daemon
  acquired : ∀ r, s'.held r = true → s.held r = true ∨ event.op.acquires = some r

namespace NodeWorld

/-- The node says that it is a standby without the disk. -/
def ReportsRelease (s : NodeWorld) : Prop :=
  s.daemon.node.role = .standby ∧ s.daemon.node.diskState = .detached

/-- The node holds nothing that keeps its peer from taking over. -/
def Free (s : NodeWorld) : Prop :=
  s.held .disk = false ∧ s.held .vip = false ∧ s.held .postgres = false

/-- `s'` says of itself what `s` says, and holds no more than `s`. -/
structure Fewer (s' s : NodeWorld) : Prop where
  role : s'.daemon.node.role = s.daemon.node.role
  diskState : s'.daemon.node.diskState = s.daemon.node.diskState
  held : ∀ r, s'.held r = true → s.held r = true

theorem released_of_held {s s' : NodeWorld} (h : ∀ r, s'.held r = true → s.held r = true)
    {r : Resource} (hr : s.held r = false) : s'.held r = false := by
  have hheld := h r
  rw [hr] at hheld
  simpa using hheld

/-- A node that holds no more than one that is free is free. -/
theorem free_of_held {s s' : NodeWorld} (h : ∀ r, s'.held r = true → s.held r = true)
    (hfree : s.Free) : s'.Free :=
  ⟨released_of_held h hfree.1, released_of_held h hfree.2.1, released_of_held h hfree.2.2⟩

theorem Fewer.free {s s' : NodeWorld} (h : Fewer s' s) (hfree : s.Free) : s'.Free :=
  free_of_held h.held hfree

end NodeWorld

/-- The operations that acquire nothing and do not change what the node says
of itself. -/
def Call.idle : Call → Prop
  | .host (.setRole _) | .host (.setDiskState _) => False
  | .disk .attachDiskRw | .disk .mountDisk | .disk .startPostgres | .net .acquireVip => False
  | _ => True

theorem Call.acquires_of_idle {op : Call} (h : op.idle) : op.acquires = none := by
  unfold acquires
  split <;> first | rfl | exact h.elim

theorem Call.idle_of_minor {op : Call} (h : op.minor) : op.idle := by
  unfold idle
  split <;> trivial

section Said

variable {s s' : NodeWorld} {event : Event Call.Ret Exc}

/-- Only its setter changes the role. -/
theorem NodeStep.role (h : NodeStep s event s') :
    event.op = .host (.setRole s'.daemon.node.role) ∨
      s'.daemon.node.role = s.daemon.node.role := by
  obtain ⟨op, answer⟩ := event
  cases op with
  | disk call => exact .inr (congrArg (·.node.role) (show s'.daemon = s.daemon from h.daemon))
  | net call => exact .inr (congrArg (·.node.role) (show s'.daemon = s.daemon from h.daemon))
  | host call =>
      have hafter : s'.daemon = s.daemon.after call := h.daemon.2
      rw [hafter]
      unfold DaemonState.after
      split
      · exact .inl rfl
      all_goals exact .inr rfl

/-- Only its setter changes the disk state. -/
theorem NodeStep.diskState (h : NodeStep s event s') :
    event.op = .host (.setDiskState s'.daemon.node.diskState) ∨
      s'.daemon.node.diskState = s.daemon.node.diskState := by
  obtain ⟨op, answer⟩ := event
  cases op with
  | disk call => exact .inr (congrArg (·.node.diskState) (show s'.daemon = s.daemon from h.daemon))
  | net call => exact .inr (congrArg (·.node.diskState) (show s'.daemon = s.daemon from h.daemon))
  | host call =>
      have hafter : s'.daemon = s.daemon.after call := h.daemon.2
      rw [hafter]
      unfold DaemonState.after
      split
      case h_4 => exact .inl rfl
      all_goals exact .inr rfl

theorem NodeStep.held (h : NodeStep s event s') (hop : event.op.acquires = none) (r : Resource)
    (hr : s'.held r = true) : s.held r = true :=
  (h.acquired r hr).resolve_right (by simp [hop])

theorem NodeStep.fewer (h : NodeStep s event s') (hidle : event.op.idle) : s'.Fewer s := by
  refine ⟨h.role.resolve_left ?_, h.diskState.resolve_left ?_,
    h.held (Call.acquires_of_idle hidle)⟩
  · intro hop
    rw [hop] at hidle
    exact hidle
  · intro hop
    rw [hop] at hidle
    exact hidle

end Said

end PgHa
