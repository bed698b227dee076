import PgHa.Model.Interface

/-!
# `cluster/node.py`: the local node state

`LocalNode` is a record behind a lock: every setter and every getter is one
atomic operation.  What they do to the record is said with the other
operations of the host, in `DaemonState.after`.
-/

namespace PgHa.LocalNode

open Effect

def isPrimary : Mgr Bool := do
  let role ← Mgr.host .role
  pure (role == .primary)

def isStandby : Mgr Bool := do
  let role ← Mgr.host .role
  pure (role == .standby)

theorem isPrimary_minor : isPrimary.Calls Call.minor := .perform_bind trivial fun _ => trivial

end PgHa.LocalNode
