import PgHa.Model.Interface

/-!
# `cluster/election.py`: startup election

`ElectionManager.elect` over the operations of the two managers.
-/

namespace PgHa.ElectionManager

open Effect

variable (cfg : Config)

/-- The node is to be STANDBY; nothing is stopped, unmounted or detached. -/
def becomeStandby : Mgr NodeRole := do
  Mgr.host (.setRole .standby)
  Mgr.host (.setDiskState .detached)
  Mgr.host (.setPgState .stopped)
  Mgr.host (.setHealth .healthy)
  pure .standby

def rollbackPrimary : Mgr Unit := do
  let _ ← (Mgr.disk (.stopPostgres .immediate)).attempt
  let _ ← (Mgr.disk .unmountDisk).attempt
  pure ()

/-- The part of `_become_primary` under `try`. -/
def takeOver (attachDisk : Bool) : Mgr NodeRole := do
  if attachDisk then
    Mgr.disk .attachDiskRw
  Mgr.disk .mountDisk
  Mgr.disk .startPostgres
  Mgr.net .acquireVip
  Mgr.host (.setRole .primary)
  Mgr.host (.setDiskState .attachedRw)
  Mgr.host (.setPgState .runningPrimary)
  Mgr.host (.setHealth .healthy)
  pure .primary

def becomePrimary (attachDisk : Bool) : Mgr NodeRole :=
  (takeOver attachDisk).except fun _ => do
    Mgr.host (.setHealth .failed)
    rollbackPrimary
    becomeStandby

/-- The jitter is a number of tenths of a second; `%` is non-negative in Python. -/
def competeForPrimary : Mgr NodeRole := do
  let hash ← Mgr.host (.hash cfg.cluster.nodeName)
  Mgr.host (.sleep (100 * (hash % 20)))
  (do
      Mgr.disk .attachDiskRw
      becomePrimary false).except fun exc =>
    if exc.isRuntimeError then becomeStandby else .raise exc

def elect : Mgr NodeRole := do
  let currentHolder ← Mgr.disk .currentRwHolder
  if currentHolder = some cfg.cluster.nodeName then
    becomePrimary false
  else if currentHolder.isSome then
    becomeStandby
  else
    competeForPrimary cfg

theorem becomeStandby_calls : becomeStandby.Calls fun call => ¬ call.movesDisk :=
  .perform_bind id fun _ => .perform_bind id fun _ => .perform_bind id fun _ =>
    .perform_bind id fun _ => trivial

theorem becomeStandby_yields : becomeStandby.Yields (· = .standby) :=
  .bind _ fun _ => .bind _ fun _ => .bind _ fun _ => .bind _ fun _ => rfl

/-- Resuming the role of the primary neither attaches nor detaches the disk. -/
theorem becomePrimary_calls : (becomePrimary false).Calls fun call => ¬ call.movesDisk := by
  refine .except ?_ fun exc => ?_
  · exact .perform_bind id fun _ => .perform_bind id fun _ => .perform_bind id fun _ =>
      .perform_bind id fun _ => .perform_bind id fun _ => .perform_bind id fun _ =>
      .perform_bind id fun _ => trivial
  · refine .perform_bind id fun _ => .bind ?_ fun _ => becomeStandby_calls
    exact .bind (Prog.Calls.attempt (Prog.Calls.perform id)) fun _ =>
      .bind (Prog.Calls.attempt (Prog.Calls.perform id)) fun _ => trivial

end PgHa.ElectionManager
