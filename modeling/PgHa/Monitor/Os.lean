import PgHa.Model.Interface

/-!
# `monitor/os_monitor.py`: the monitor of the operating system

`OsMonitor` over an interface of its own: what it asks of `psutil`, and what it
does to its fields.  A pass of its thread takes the values of the CPU, the memory
and the disk, and counts the passes in a row in which one of them is too high.
The loop of the thread runs until the daemon stops; `loop` follows it for a number
of passes.
-/

namespace PgHa

open Effect

/-- `>=`, which is False of NaN. -/
def Real.ge : Real → Real → Bool
  | .finite x, .finite y => !x.blt y
  | .finite _, .infinite negative => negative
  | .infinite negative, .finite _ => !negative
  | .infinite negative, .infinite negative' => !negative || negative'
  | _, _ => false

/-- How Python prints floating-point numbers. -/
structure FloatFormat where
  /-- `f"{value:.1f}"` -/
  oneDecimal : Real → String
  /-- `str(value)` -/
  str : Real → String

/-- The settings of the monitor, with the mount point of the disk.  Times are in
milliseconds. -/
structure OsMonitorCfg where
  checkInterval : Int
  osCpuThreshold : Real
  osMemThreshold : Real
  osDiskThreshold : Real
  osFailCount : Int
  diskMountPoint : String

/-- An `OsHealthSnapshot` with the fields that the main loop does not look at. -/
structure OsCheck extends OsHealthSnapshot where
  cpuPct : Real
  memPct : Real
  diskPct : Real
  loadAvg1m : Real
  message : String
  deriving DecidableEq

inductive OsCall
  /-- `_stop_evt.is_set()` -/
  | stopRequested
  /-- `_stop_evt.wait(timeout)` -/
  | wait (timeout : Int)
  /-- `psutil.cpu_percent(interval=None)` -/
  | cpuPercent
  /-- `psutil.virtual_memory().percent` -/
  | virtualMemory
  /-- `psutil.getloadavg()` -/
  | getloadavg
  /-- `psutil.disk_usage(path).percent` -/
  | diskUsage (path : String)
  /-- `_violation_count += 1` -/
  | countViolation
  /-- `_violation_count = 0` -/
  | clearViolations
  /-- Read `_violation_count`. -/
  | violationCount
  | storeSnapshot (snap : OsCheck)
  | snapshot
  deriving DecidableEq

abbrev OsCall.Ret : OsCall → Type
  | .stopRequested => Bool
  | .cpuPercent | .virtualMemory | .diskUsage _ => Real
  | .getloadavg => Real × Real × Real
  | .violationCount => ℕ
  | .snapshot => Option OsCheck
  | _ => Unit

/-- Programs of the monitor and of its callers. -/
abbrev Os := Prog OsCall.Ret Exc

abbrev Os.call (call : OsCall) : Os call.Ret := .perform call

namespace OsMonitor

variable (fmt : FloatFormat) (cfg : OsMonitorCfg)

def snapshot : Os (Option OsCheck) := Os.call .snapshot

/-- `disk_pct`: the mount may not be present on a standby, and the root is read instead. -/
def diskPct : Os Real :=
  (Os.call (.diskUsage cfg.diskMountPoint)).except fun exc =>
    if exc.isOSError then
      (Os.call (.diskUsage "/")).except fun exc =>
        if exc.isOSError then pure (.finite 0) else .raise exc
    else .raise exc

/-- What is added to `violations` when a value has reached its threshold. -/
def violation (name : String) (value threshold : Real) : List String :=
  if value.ge threshold then [s!"{name} {fmt.oneDecimal value}% >= {fmt.str threshold}%"] else []

def violations (cpuPct memPct diskPct : Real) : List String :=
  violation fmt "CPU" cpuPct cfg.osCpuThreshold ++ violation fmt "MEM" memPct cfg.osMemThreshold ++
    violation fmt "DISK" diskPct cfg.osDiskThreshold

/-- `_collect` -/
def collect : Os OsCheck := do
  let cpuPct ← Os.call .cpuPercent
  let memPct ← Os.call .virtualMemory
  let load ← Os.call .getloadavg
  let diskPct ← diskPct cfg
  let violations := violations fmt cfg cpuPct memPct diskPct
  if !violations.isEmpty then
    Os.call .countViolation
  else
    Os.call .clearViolations
  let count ← Os.call .violationCount
  pure
    { cpuPct, memPct, diskPct
      loadAvg1m := load.1
      degraded := decide (cfg.osFailCount ≤ (count : Int))
      message := if !violations.isEmpty then "; ".intercalate violations else "ok" }

/-- `_loop` -/
def loop : ℕ → Os Unit
  | 0 => .stuck
  | fuel + 1 => do
      if ← Os.call .stopRequested then
        pure ()
      else
        let snap ← collect fmt cfg
        Os.call (.storeSnapshot snap)
        Os.call (.wait cfg.checkInterval)
        loop fuel

end OsMonitor

end PgHa
