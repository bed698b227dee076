import PgHa.Model.Interface

/-!
# `monitor/postgres.py`: the PostgreSQL monitor

`PostgresMonitor` over an interface of its own: what its thread and its callers
do to the fields that they share, each block under the lock being one
operation, and the two probes of a check.  The loop of the thread runs until
the daemon stops; `loop` follows it for a number of passes.
-/

namespace PgHa

open Effect

/-- The settings of the monitor.  Times are in milliseconds. -/
structure PgMonitorCfg where
  host : String
  port : ℕ
  user : String
  database : String
  pgIsready : String
  pgResponseTimeout : Int
  checkInterval : Int

/-- A `PgHealthSnapshot` with the fields that only the monitor fills in. -/
structure PgCheck extends PgHealthSnapshot where
  isInRecovery : Option Bool
  replicationLagBytes : Option Int
  connections : Option Int
  message : String
  deriving DecidableEq, Repr

/-- The row of the diagnostic query: `in_recovery`, `active_connections` and
`replication_lag_bytes`. -/
structure PgRow where
  inRecovery : Bool
  activeConnections : Int
  replicationLagBytes : Int

inductive MonCall
  /-- `_stop_evt.is_set()` -/
  | stopRequested
  /-- `_stop_evt.wait(timeout)` -/
  | wait (timeout : Int)
  /-- Read `_active` without the lock. -/
  | active
  | setActiveFlag (active : Bool)
  /-- `_check` is entered; nothing is done. -/
  | enterCheck
  | run (command : List String) (timeout : Int)
  /-- Connect, run the diagnostic query, convert its row and close the connection. -/
  | query (dsn : String)
  | storeSnapshot (snap : PgCheck)
  /-- `_fail_count += 1`, with the new count. -/
  | countFailure
  /-- `_fail_count = 0` after a check that has passed. -/
  | clearCount
  /-- `_snapshot = None` and `_fail_count = 0` -/
  | clear
  | snapshot
  | consecutiveFailures
  deriving DecidableEq

abbrev MonCall.Ret : MonCall → Type
  | .stopRequested | .active => Bool
  | .run .. => Int
  | .query _ => PgRow
  | .countFailure | .consecutiveFailures => ℕ
  | .snapshot => Option PgCheck
  | _ => Unit

/-- Programs of the monitor and of its callers. -/
abbrev Mon := Prog MonCall.Ret Exc

abbrev Mon.call (call : MonCall) : Mon call.Ret := .perform call

namespace PostgresMonitor

variable (cfg : PgMonitorCfg)

/-- `int(pg_response_timeout)`, in seconds. -/
def timeoutSeconds : Int := cfg.pgResponseTimeout.tdiv 1000

/-- `except (subprocess.TimeoutExpired, FileNotFoundError, OSError)` -/
def unanswered (exc : Exc) : Bool := exc.cls == .subprocessTimeout || exc.isOSError

def pgIsready : Mon Bool :=
  (do
      let returncode ← Mon.call (.run [cfg.pgIsready, "-h", cfg.host, "-p", toString cfg.port,
        "-U", cfg.user, "-d", cfg.database, "-t", toString (timeoutSeconds cfg)]
        (cfg.pgResponseTimeout + 2000))
      pure (returncode == 0)).except fun exc =>
    if unanswered exc then pure false else .raise exc

def dsn : String :=
  s!"host={cfg.host} port={cfg.port} " ++ s!"user={cfg.user} dbname={cfg.database} " ++
    s!"connect_timeout={timeoutSeconds cfg}"

def sqlProbe : Mon PgRow := Mon.call (.query (dsn cfg))

def check : Mon PgCheck := do
  Mon.call .enterCheck
  if !(← pgIsready cfg) then
    pure ⟨⟨false, .stopped⟩, none, none, none, "pg_isready: server not accepting connections"⟩
  else
    match ← (sqlProbe cfg).attempt with
    | .error exc =>
        pure ⟨⟨false, .crashed⟩, none, none, none, s!"SQL probe failed: {exc.message}"⟩
    | .ok row =>
        let state := if row.inRecovery then .runningStandby else .runningPrimary
        pure ⟨⟨true, state⟩, some row.inRecovery, some row.replicationLagBytes,
          some row.activeConnections, "ok"⟩

/-- `_loop` -/
def loop : ℕ → Mon Unit
  | 0 => .stuck
  | fuel + 1 => do
      if ← Mon.call .stopRequested then
        pure ()
      else if !(← Mon.call .active) then
        Mon.call (.wait cfg.checkInterval)
        loop fuel
      else
        let snap ← check cfg
        Mon.call (.storeSnapshot snap)
        if !snap.ok then
          let _ ← Mon.call .countFailure
        else
          Mon.call .clearCount
        Mon.call (.wait cfg.checkInterval)
        loop fuel

def reset : Mon Unit := Mon.call .clear

def setActive (active : Bool) : Mon Unit := do
  Mon.call (.setActiveFlag active)
  if !active then
    Mon.call .clear

/-- What a pass of `_main_loop` asks of the monitor: it tells it the role, and it looks at the
count only when the snapshot is that of a failed check. -/
def observe (primary : Bool) : Mon Unit := do
  setActive primary
  match ← Mon.call .snapshot with
  | some snap =>
      if !snap.ok then
        let _ ← Mon.call .consecutiveFailures
  | none => pure ()

end PostgresMonitor

end PgHa
