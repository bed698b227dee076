import PgHa.Data.Streak
import PgHa.Effect.Trace
import PgHa.Effect.Triple
import PgHa.Monitor.Os

/-!
# When the operating system counts as degraded

A pass of the monitor takes three values, and the disk may have to be read at the
root, or not at all.  The counter of the monitor does not tell which of the values
was too high, and it starts again after a pass in which none was.

`degraded_iff_window` says of the values that the calls of `_collect` have taken, and of
nothing else, when the snapshot of the last one is degraded.
-/

namespace PgHa.Debounce

open Effect OsMonitor

variable {fmt : FloatFormat} {cfg : OsMonitorCfg}

/-! ## Runs of `_collect` -/

/-- The fields of the monitor. -/
structure World where
  violationCount : ℕ
  snapshot : Option OsCheck

/-- The monitor has been started. -/
def initial : World := ⟨0, none⟩

namespace World

/-- The effect of an operation. -/
def after (s : World) : OsCall → World
  | .countViolation => { s with violationCount := s.violationCount + 1 }
  | .clearViolations => { s with violationCount := 0 }
  | .storeSnapshot snap => { s with snapshot := some snap }
  | _ => s

/-- The answers that an operation may have: `psutil` and the event of the daemon's end may answer
anything. -/
def Answers (s : World) : (call : OsCall) → Except Exc call.Ret → Prop
  | .violationCount, answer => answer = .ok s.violationCount
  | .snapshot, answer => answer = .ok s.snapshot
  | .countViolation, answer | .clearViolations, answer | .storeSnapshot _, answer => answer = .ok ()
  | .stopRequested, _ | .wait _, _ | .cpuPercent, _ | .virtualMemory, _ | .getloadavg, _
  | .diskUsage _, _ => True

end World

structure OsStep (s : World) (event : Event OsCall.Ret Exc) (s' : World) : Prop where
  answers : s.Answers event.op event.answer
  after : s' = s.after event.op

/-- The values that a call has taken. -/
structure Sample where
  cpu : Real
  mem : Real
  disk : Real

/-- One of the values has reached its threshold. -/
def reaches (cfg : OsMonitorCfg) (sample : Sample) : Bool :=
  sample.cpu.ge cfg.osCpuThreshold || sample.mem.ge cfg.osMemThreshold ||
    sample.disk.ge cfg.osDiskThreshold

def cpuOf : Event OsCall.Ret Exc → Option Real
  | ⟨.cpuPercent, .ok value⟩ => some value
  | _ => none

def memOf : Event OsCall.Ret Exc → Option Real
  | ⟨.virtualMemory, .ok value⟩ => some value
  | _ => none

/-- A disk usage that could be read, of the mount or of the root. -/
def diskOf : Event OsCall.Ret Exc → Option Real
  | ⟨.diskUsage _, .ok value⟩ => some value
  | _ => none

/-- The values are those that `psutil` has answered, and 0 for a disk that could not be read. -/
structure Collected (trace : List (Event OsCall.Ret Exc)) (sample : Sample) : Prop where
  cpu : trace.filterMap cpuOf = [sample.cpu]
  mem : trace.filterMap memOf = [sample.mem]
  disk : (trace.filterMap diskOf).head?.getD (.finite 0) = sample.disk

/-- The operations that leave the counter. -/
def LeavesCount : OsCall → Prop
  | .countViolation | .clearViolations => False
  | _ => True

/-- The calls of `_collect` so far, with the operations that have been performed: what each call has
taken, oldest first, and the snapshot of the last one.  A call in which `psutil` raises something
that is not caught takes no values.  Between two calls nothing touches the counter. -/
inductive Collects (fmt : FloatFormat) (cfg : OsMonitorCfg) :
    List (Event OsCall.Ret Exc) → List Sample → Option OsCheck → World → Prop
  | nil : Collects fmt cfg [] [] none initial
  | returned {log trace : List (Event OsCall.Ret Exc)} {samples : List Sample}
      {last : Option OsCheck} {s s' : World} {snap : OsCheck} {sample : Sample}
      (hcollects : Collects fmt cfg log samples last s)
      (htrace : (collect fmt cfg).Trace trace (.returned snap))
      (hhistory : History OsStep s trace s') (hcollected : Collected trace sample) :
      Collects fmt cfg (log ++ trace) (samples ++ [sample]) (some snap) s'
  | raised {log trace : List (Event OsCall.Ret Exc)} {samples : List Sample}
      {last : Option OsCheck} {s s' : World} {exc : Exc}
      (hcollects : Collects fmt cfg log samples last s)
      (htrace : (collect fmt cfg).Trace trace (.raised exc))
      (hhistory : History OsStep s trace s') :
      Collects fmt cfg (log ++ trace) samples last s'
  | between {log : List (Event OsCall.Ret Exc)} {samples : List Sample} {last : Option OsCheck}
      {s s' : World} {event : Event OsCall.Ret Exc}
      (hcollects : Collects fmt cfg log samples last s) (hstep : OsStep s event s')
      (hleaves : LeavesCount event.op) :
      Collects fmt cfg (log ++ [event]) samples last s'

/-! ## One call -/

theorem violations_isEmpty (cpuPct memPct diskPct : Real) :
    (violations fmt cfg cpuPct memPct diskPct).isEmpty =
      !reaches cfg ⟨cpuPct, memPct, diskPct⟩ := by
  unfold violations violation reaches
  cases cpuPct.ge cfg.osCpuThreshold <;> cases memPct.ge cfg.osMemThreshold <;>
    cases diskPct.ge cfg.osDiskThreshold <;> rfl

abbrev Logged := World × List (Event OsCall.Ret Exc)

abbrev during : Transformer OsCall.Ret Exc Logged := demonic (logged OsStep)

theorem during_monotone : during.Monotone := demonic_monotone _

/-- The count, and the values that have been read. -/
structure Reading (count : ℕ) (cpus mems disks : List Real) (s : Logged) : Prop where
  count : s.1.violationCount = count
  cpu : s.2.filterMap cpuOf = cpus
  mem : s.2.filterMap memOf = mems
  disk : s.2.filterMap diskOf = disks

/-- The count, when the values of a call are there. -/
structure Taken (count : ℕ) (sample : Sample) (s : Logged) : Prop where
  count : s.1.violationCount = count
  collected : Collected s.2 sample

/-- The values that a snapshot shows. -/
def values (snap : OsCheck) : Sample := ⟨snap.cpuPct, snap.memPct, snap.diskPct⟩

/-- What a call makes of its values. -/
structure Judged (cfg : OsMonitorCfg) (count : ℕ) (snap : OsCheck) (s : Logged) : Prop where
  taken : Taken (Streak.next (reaches cfg) count (values snap)) (values snap) s
  degraded : snap.degraded = decide (cfg.osFailCount ≤ (s.1.violationCount : Int))

section Call

variable {count past : ℕ} {cpu mem disk : Real} {cpus mems disks : List Real} {sample : Sample}
  {s s' : Logged} {call : OsCall} {answer : Except Exc call.Ret} {α : Type} {program : Os α}

/-- What an operation answers is added to what has been read. -/
theorem Reading.read (hs : Reading count cpus mems disks s) (hafter : s.1.after call = s.1)
    (hstep : logged OsStep s ⟨call, answer⟩ s') :
    Reading count (cpus ++ (cpuOf ⟨call, answer⟩).toList) (mems ++ (memOf ⟨call, answer⟩).toList)
      (disks ++ (diskOf ⟨call, answer⟩).toList) s' := by
  have hsame : s'.1 = s.1 := hstep.1.after.trans hafter
  refine ⟨?_, ?_, ?_, ?_⟩
  · rw [hsame, hs.count]
  · rw [logged_filterMap cpuOf hstep, hs.cpu]
  · rw [logged_filterMap memOf hstep, hs.mem]
  · rw [logged_filterMap diskOf hstep, hs.disk]

theorem Reading.taken (hs : Reading count [cpu] [mem] disks s)
    (hdisk : disks.head?.getD (.finite 0) = disk) : Taken count ⟨cpu, mem, disk⟩ s := by
  refine ⟨hs.count, hs.cpu, hs.mem, ?_⟩
  rw [hs.disk]
  exact hdisk

/-- A call that raises has not counted. -/
abbrev Ends (count : ℕ) (P : Logged → Prop) (program : Os α) (Q : α → Logged → Prop) : Prop :=
  Prog.Triple during P program Q fun s => s.1.violationCount = count

/-- An operation that changes nothing. -/
theorem read_ends (hafter : ∀ s : World, s.after call = s) :
    Ends count (Reading count cpus mems disks) (Os.call call) fun value =>
      Reading count (cpus ++ (cpuOf ⟨call, .ok value⟩).toList)
        (mems ++ (memOf ⟨call, .ok value⟩).toList)
        (disks ++ (diskOf ⟨call, .ok value⟩).toList) := by
  apply Prog.Triple.perform
  intro s hs answer s' hstep
  have hread := hs.read (hafter s.1) hstep
  cases answer with
  | ok value => exact hread
  | error exc => exact hread.count

/-- A disk that cannot be read leaves no value. -/
theorem diskUsage_ends (path : String) :
    Prog.Triple during (Reading count [cpu] [mem] []) (Os.call (.diskUsage path))
      (fun disk => Taken count ⟨cpu, mem, disk⟩) (Reading count [cpu] [mem] []) := by
  apply Prog.Triple.perform
  intro s hs answer s' hstep
  have hread := hs.read rfl hstep
  cases answer with
  | ok disk => exact hread.taken rfl
  | error exc => exact hread

theorem diskPct_ends : Ends count (Reading count [cpu] [mem] []) (diskPct cfg)
    fun disk => Taken count ⟨cpu, mem, disk⟩ := by
  have hraise (exc : Exc) : Ends count (Reading count [cpu] [mem] []) (.raise exc : Os Real)
      fun disk => Taken count ⟨cpu, mem, disk⟩ := .raise fun _ hs => hs.count
  apply (diskUsage_ends cfg.diskMountPoint).except during_monotone
  intro exc
  refine Prog.Triple.ite (fun _ => ?_) fun _ => hraise exc
  apply (diskUsage_ends "/").except during_monotone
  intro exc
  refine Prog.Triple.ite (fun _ => ?_) fun _ => hraise exc
  exact .pure fun _ hs => hs.taken rfl

/-- An operation that reads none of the values. -/
theorem Taken.after (hs : Taken past sample s) (hstep : logged OsStep s ⟨call, answer⟩ s')
    (hcpu : cpuOf ⟨call, answer⟩ = none) (hmem : memOf ⟨call, answer⟩ = none)
    (hdisk : diskOf ⟨call, answer⟩ = none) : Taken (s.1.after call).violationCount sample s' := by
  refine ⟨congrArg World.violationCount hstep.1.after, ?_, ?_, ?_⟩
  · rw [logged_filterMap cpuOf hstep, hcpu]
    simpa using hs.collected.cpu
  · rw [logged_filterMap memOf hstep, hmem]
    simpa using hs.collected.mem
  · rw [logged_filterMap diskOf hstep, hdisk]
    simpa using hs.collected.disk

theorem countViolation_ends : Ends count (Taken past sample) (Os.call .countViolation)
    fun _ => Taken (past + 1) sample := by
  apply Prog.Triple.perform
  intro s hs answer s' hstep
  obtain rfl : answer = .ok () := hstep.1.answers
  have hend : Taken (s.1.violationCount + 1) sample s' := hs.after hstep rfl rfl rfl
  rw [hs.count] at hend
  exact hend

theorem clearViolations_ends : Ends count (Taken past sample) (Os.call .clearViolations)
    fun _ => Taken 0 sample := by
  apply Prog.Triple.perform
  intro s hs answer s' hstep
  obtain rfl : answer = .ok () := hstep.1.answers
  have hend : Taken 0 sample s' := hs.after hstep rfl rfl rfl
  exact hend

/-- The count that is read is the monitor's. -/
theorem violationCount_ends : Ends count (Taken past sample) (Os.call .violationCount)
    fun current s => Taken past sample s ∧ current = s.1.violationCount := by
  apply Prog.Triple.perform
  intro s hs answer s' hstep
  obtain rfl : answer = .ok s.1.violationCount := hstep.1.answers
  have hend : Taken s.1.violationCount sample s' := hs.after hstep rfl rfl rfl
  refine ⟨?_, hend.count.symm⟩
  rw [hs.count] at hend
  exact hend

/-- The counter is read after it has been set. -/
theorem judge_ends {snap : ℕ → OsCheck} (hvalues : ∀ current, values (snap current) = sample)
    (hdegraded : ∀ current, (snap current).degraded = decide (cfg.osFailCount ≤ (current : Int)))
    (hnext : Streak.next (reaches cfg) count sample = past) :
    Ends count (Taken past sample)
      ((Os.call .violationCount).bind fun current => .pure (snap current)) (Judged cfg count) := by
  apply violationCount_ends.bind during_monotone
  intro current
  apply Prog.Triple.pure
  rintro s ⟨hs, rfl⟩
  refine ⟨?_, hdegraded _⟩
  rw [hvalues, hnext]
  exact hs

theorem collect_ends : Ends count (Reading count [] [] []) (collect fmt cfg)
    (Judged cfg count) := by
  have hcpu : Ends count (Reading count [] [] []) (Os.call .cpuPercent)
      fun cpu => Reading count [cpu] [] [] := read_ends fun _ => rfl
  apply hcpu.bind during_monotone
  intro cpu
  have hmem : Ends count (Reading count [cpu] [] []) (Os.call .virtualMemory)
      fun mem => Reading count [cpu] [mem] [] := read_ends fun _ => rfl
  apply hmem.bind during_monotone
  intro mem
  have hload : Ends count (Reading count [cpu] [mem] []) (Os.call .getloadavg)
      fun _ => Reading count [cpu] [mem] [] := read_ends fun _ => rfl
  apply hload.bind during_monotone
  intro load
  apply diskPct_ends.bind during_monotone
  intro disk
  -- the list of violations is empty exactly when no value has reached its threshold
  apply Prog.Triple.ite
  · intro hreach
    rw [violations_isEmpty, Bool.not_not] at hreach
    apply countViolation_ends.bind during_monotone
    intro _
    exact judge_ends (fun _ => rfl) (fun _ => rfl) (if_pos hreach)
  · intro hreach
    rw [violations_isEmpty, Bool.not_not] at hreach
    apply clearViolations_ends.bind during_monotone
    intro _
    exact judge_ends (fun _ => rfl) (fun _ => rfl) (if_neg hreach)

end Call

section Collect

variable {s s' : World} {trace : List (Event OsCall.Ret Exc)} {snap : OsCheck} {sample : Sample}
  {exc : Exc}

theorem Collected.unique {sample' : Sample} (h : Collected trace sample)
    (h' : Collected trace sample') : sample = sample' := by
  have hcpu : [sample.cpu] = [sample'.cpu] := h.cpu.symm.trans h'.cpu
  have hmem : [sample.mem] = [sample'.mem] := h.mem.symm.trans h'.mem
  have hdisk : sample.disk = sample'.disk := h.disk.symm.trans h'.disk
  cases sample
  cases sample'
  simp_all

theorem collect_judged (htrace : (collect fmt cfg).Trace trace (.returned snap))
    (hhistory : History OsStep s trace s') : Judged cfg s.violationCount snap (s', trace) := by
  have hstart : Reading s.violationCount [] [] [] (s, []) := ⟨rfl, rfl, rfl, rfl⟩
  exact Prog.trace_wp (collect_ends (s, []) hstart) htrace (hhistory.logged [])

/-- A call counts on, or starts again, and its snapshot is degraded when the count is high
enough. -/
theorem collect_returned (htrace : (collect fmt cfg).Trace trace (.returned snap))
    (hhistory : History OsStep s trace s') (hcollected : Collected trace sample) :
    s'.violationCount = Streak.next (reaches cfg) s.violationCount sample ∧
      snap.degraded = decide (cfg.osFailCount ≤ (s'.violationCount : Int)) := by
  have hjudged := collect_judged htrace hhistory
  obtain rfl : values snap = sample := hjudged.taken.collected.unique hcollected
  exact ⟨hjudged.taken.count, hjudged.degraded⟩

theorem collect_raised (htrace : (collect fmt cfg).Trace trace (.raised exc))
    (hhistory : History OsStep s trace s') : s'.violationCount = s.violationCount := by
  have hstart : Reading s.violationCount [] [] [] (s, []) := ⟨rfl, rfl, rfl, rfl⟩
  exact Prog.trace_wp (collect_ends (s, []) hstart) htrace (hhistory.logged [])

theorem violationCount_of_leaves {event : Event OsCall.Ret Exc} (hleaves : LeavesCount event.op)
    (hstep : OsStep s event s') : s'.violationCount = s.violationCount := by
  obtain ⟨op, answer⟩ := event
  rw [hstep.after]
  cases op <;> first | rfl | exact hleaves.elim

end Collect

/-! ## Whole runs -/

section Runs

variable {log : List (Event OsCall.Ret Exc)} {samples : List Sample} {last : Option OsCheck}
  {s : World} {snap : OsCheck}

/-- The calls at the end of the run in each of which one of the values has reached its threshold. -/
def streak (cfg : OsMonitorCfg) (samples : List Sample) : ℕ :=
  (samples.rtakeWhile (reaches cfg)).length

/-- The counter is the length of the longest end of the run in which every call has taken a value
that reaches its threshold, by induction on the calls. -/
theorem violationCount_eq_streak (h : Collects fmt cfg log samples last s) :
    s.violationCount = streak cfg samples := by
  induction h with
  | nil => rfl
  | returned _ htrace hhistory hcollected ih =>
      rw [(collect_returned htrace hhistory hcollected).1, ih, streak, streak,
        Streak.length_rtakeWhile_concat]
  | raised _ htrace hhistory ih => exact (collect_raised htrace hhistory).trans ih
  | between _ hstep hleaves ih => exact (violationCount_of_leaves hleaves hstep).trans ih

theorem degraded_eq (h : Collects fmt cfg log samples last s) (hlast : last = some snap) :
    snap.degraded = decide (cfg.osFailCount ≤ (streak cfg samples : Int)) := by
  induction h with
  | nil => cases hlast
  | returned hcollects htrace hhistory hcollected _ =>
      obtain rfl := Option.some.inj hlast
      have hcount := violationCount_eq_streak (.returned hcollects htrace hhistory hcollected)
      rw [(collect_returned htrace hhistory hcollected).2, hcount]
  | raised _ _ _ ih => exact ih hlast
  | between _ _ _ ih => exact ih hlast

/-- A streak of `n` calls is made of the last `n` calls. -/
theorem le_streak_iff {n : Int} : n ≤ (streak cfg samples : Int) ↔
    n ≤ (samples.length : Int) ∧ ∀ sample ∈ samples.rtake n.toNat, reaches cfg sample = true := by
  rw [← Int.toNat_le, ← Int.toNat_le, streak]
  exact Streak.le_length_rtakeWhile_iff

/-- **Debounced.**  The snapshot of the last call is degraded if and only if there have been
`os_fail_count` calls, and in each of the last `os_fail_count` of them one of the values has
reached its threshold. -/
theorem degraded_iff_window (h : Collects fmt cfg log samples (some snap) s) :
    snap.degraded = true ↔ cfg.osFailCount ≤ (samples.length : Int) ∧
      ∀ sample ∈ samples.rtake cfg.osFailCount.toNat, reaches cfg sample = true := by
  rw [degraded_eq h rfl, decide_eq_true_iff]
  exact le_streak_iff

end Runs

/-! ### Which runs there are -/

section Machines

/-- What `psutil` answers in a call. -/
structure Machine where
  cpu : Real
  mem : Real
  disk : String → Except Exc Real

def Machine.reply (machine : Machine) (s : World) : (call : OsCall) → Except Exc call.Ret
  | .cpuPercent => .ok machine.cpu
  | .virtualMemory => .ok machine.mem
  | .getloadavg => .ok (.finite 1, .finite 1, .finite 1)
  | .diskUsage path => machine.disk path
  | .violationCount => .ok s.violationCount
  | .snapshot => .ok s.snapshot
  | .stopRequested => .ok false
  | .countViolation | .clearViolations | .storeSnapshot _ | .wait _ => .ok ()

def Machine.answer (machine : Machine) (call : OsCall) (s : World) : Except Exc call.Ret × World :=
  (machine.reply s call, s.after call)

/-- A call of `_collect`. -/
def callRun (fmt : FloatFormat) (cfg : OsMonitorCfg) (machine : Machine) (s : World) :
    Run OsCall.Ret Exc OsCheck World :=
  (collect fmt cfg).run machine.answer s

theorem osStep_answer (machine : Machine) (s : World) (call : OsCall) :
    OsStep s ⟨call, (machine.answer call s).1⟩ (machine.answer call s).2 := by
  refine ⟨?_, rfl⟩
  cases call <;> first | rfl | trivial

theorem collects_callRun (machine : Machine) {log : List (Event OsCall.Ret Exc)}
    {samples : List Sample} {last : Option OsCheck} {s : World} {snap : OsCheck} {sample : Sample}
    (hcollects : Collects fmt cfg log samples last s)
    (hreturned : (callRun fmt cfg machine s).outcome = .returned snap)
    (hcollected : Collected (callRun fmt cfg machine s).log sample) :
    Collects fmt cfg (log ++ (callRun fmt cfg machine s).log) (samples ++ [sample]) (some snap)
      (callRun fmt cfg machine s).final := by
  have htrace := trace_run machine.answer (collect fmt cfg) s
  have hhistory := history_run (osStep_answer machine) (collect fmt cfg) s
  exact .returned hcollects (hreturned ▸ htrace) hhistory hcollected

/-- The machine on which a call takes these values. -/
def Sample.machine (sample : Sample) : Machine := ⟨sample.cpu, sample.mem, fun _ => .ok sample.disk⟩

theorem collected_machine (fmt : FloatFormat) (cfg : OsMonitorCfg) (sample : Sample) (s : World) :
    (∃ snap, (callRun fmt cfg sample.machine s).outcome = .returned snap) ∧
      Collected (callRun fmt cfg sample.machine s).log sample := by
  simp only [callRun, collect, diskPct, Prog.bind_eq, Prog.perform, Prog.call_bind, Prog.run,
    Prog.ofExcept, Prog.pure_bind, Prog.except, Machine.answer, Machine.reply, Sample.machine]
  cases (violations fmt cfg sample.cpu sample.mem sample.disk).isEmpty with
  | true => exact ⟨⟨_, rfl⟩, rfl, rfl, rfl⟩
  | false => exact ⟨⟨_, rfl⟩, rfl, rfl, rfl⟩

/-- The calls may take any values, in any order. -/
theorem exists_collects (samples : List Sample) :
    ∃ log last s, Collects fmt cfg log samples last s := by
  induction samples using List.reverseRecOn with
  | nil => exact ⟨[], none, initial, .nil⟩
  | append_singleton samples sample ih =>
      obtain ⟨log, last, s, hcollects⟩ := ih
      obtain ⟨⟨snap, hreturned⟩, hcollected⟩ := collected_machine fmt cfg sample s
      exact ⟨_, _, _, collects_callRun sample.machine hcollects hreturned hcollected⟩

end Machines

/-! ### A sample run -/

section Sample

def sampleCfg : OsMonitorCfg where
  checkInterval := 2000
  osCpuThreshold := .finite 95
  osMemThreshold := .finite 95
  osDiskThreshold := .finite 90
  osFailCount := 2
  diskMountPoint := "/pgdata"

def wholeText : Real → String
  | .finite value => s!"{value.num}.0"
  | .infinite negative => if negative then "-inf" else "inf"
  | .nan => "nan"

/-- How Python prints whole numbers. -/
def wholeFormat : FloatFormat := ⟨wholeText, wholeText⟩

def missing : Except Exc Real := .error ⟨.osError, "No such file or directory"⟩

/-- Neither the mount nor the root can be read. -/
def idle : Machine := ⟨.finite 12, .finite 41, fun _ => missing⟩

/-- The CPU is busy. -/
def busy : Machine := ⟨.finite 97, .finite 40, fun _ => .ok (.finite 55)⟩

/-- There is no mount, and the root is full. -/
def full : Machine :=
  ⟨.finite 11, .finite 42, fun path => if path = "/" then .ok (.finite 91) else missing⟩

def idleRun : Run OsCall.Ret Exc OsCheck World := callRun wholeFormat sampleCfg idle initial

def busyRun : Run OsCall.Ret Exc OsCheck World := callRun wholeFormat sampleCfg busy idleRun.final

def fullRun : Run OsCall.Ret Exc OsCheck World := callRun wholeFormat sampleCfg full busyRun.final

/-- What the three calls take. -/
def taken : List Sample :=
  [⟨.finite 12, .finite 41, .finite 0⟩, ⟨.finite 97, .finite 40, .finite 55⟩,
    ⟨.finite 11, .finite 42, .finite 91⟩]

theorem collects_taken : ∃ snap, fullRun.outcome = .returned snap ∧ snap.degraded = true ∧
    Collects wholeFormat sampleCfg (idleRun.log ++ busyRun.log ++ fullRun.log) taken (some snap)
      fullRun.final := by
  have hidle : Collected idleRun.log ⟨.finite 12, .finite 41, .finite 0⟩ :=
    ⟨by decide, by decide, by decide⟩
  have hbusy : Collected busyRun.log ⟨.finite 97, .finite 40, .finite 55⟩ :=
    ⟨by decide, by decide, by decide⟩
  have hfull : Collected fullRun.log ⟨.finite 11, .finite 42, .finite 91⟩ :=
    ⟨by decide, by decide, by decide⟩
  have hfirst := collects_callRun idle .nil rfl hidle
  have hsecond := collects_callRun busy hfirst rfl hbusy
  have hthird := collects_callRun full hsecond rfl hfull
  exact ⟨_, rfl, by decide, hthird⟩

/-- The last two calls have each taken a value that is too high, the first of them of the CPU and
the second of the disk. -/
theorem degraded_iff_window_full : ∃ snap, fullRun.outcome = .returned snap ∧ snap.degraded = true ∧
    (snap.degraded = true ↔ sampleCfg.osFailCount ≤ (taken.length : Int) ∧
      ∀ sample ∈ taken.rtake sampleCfg.osFailCount.toNat, reaches sampleCfg sample = true) := by
  obtain ⟨snap, hreturned, hdegraded, hcollects⟩ := collects_taken
  exact ⟨snap, hreturned, hdegraded, degraded_iff_window hcollects⟩

end Sample

/-! ## The thread of the monitor -/

section Thread

variable {s s' : World} {trace : List (Event OsCall.Ret Exc)}

/-- The operations of `_collect`. -/
def Sampling : OsCall → Prop
  | .cpuPercent | .virtualMemory | .getloadavg | .diskUsage _ | .countViolation | .clearViolations
  | .violationCount => True
  | _ => False

theorem diskPct_sampling : (diskPct cfg).Calls Sampling := by
  have hraise (exc : Exc) : (.raise exc : Os Real).Calls Sampling := trivial
  apply Prog.Calls.except (Prog.Calls.perform trivial)
  intro exc
  apply Prog.Calls.ite _ (hraise exc)
  apply Prog.Calls.except (Prog.Calls.perform trivial)
  exact fun exc => .ite trivial (hraise exc)

theorem collect_sampling : (collect fmt cfg).Calls Sampling := by
  refine .perform_bind trivial fun _ => .perform_bind trivial fun _ =>
    .perform_bind trivial fun _ => ?_
  refine diskPct_sampling.bind fun _ => ?_
  exact .ite (.perform_bind trivial fun _ => .perform_bind trivial fun _ => trivial)
    (.perform_bind trivial fun _ => .perform_bind trivial fun _ => trivial)

theorem diskPct_bounded : (diskPct cfg).Bounded := by
  have hraise (exc : Exc) : (.raise exc : Os Real).Bounded := trivial
  apply (Prog.bounded_perform _).except
  intro exc
  apply Prog.Bounded.ite _ (hraise exc)
  apply (Prog.bounded_perform _).except
  exact fun exc => .ite trivial (hraise exc)

theorem collect_bounded : (collect fmt cfg).Bounded := by
  have hcount (call : OsCall) {next : ℕ → OsCheck} : ((Os.call call).bind fun _ =>
      (Os.call .violationCount).bind fun count => .pure (next count)).Bounded :=
    (Prog.bounded_perform _).bind fun _ => (Prog.bounded_perform _).bind fun _ => trivial
  refine (Prog.bounded_perform _).bind fun _ => (Prog.bounded_perform _).bind fun _ => ?_
  refine (Prog.bounded_perform _).bind fun _ => diskPct_bounded.bind fun _ => ?_
  exact .ite (hcount .countViolation) (hcount .clearViolations)

/-- A call does not store its snapshot. -/
theorem collect_snapshot {outcome : Outcome Exc OsCheck}
    (htrace : (collect fmt cfg).Trace trace outcome) (hhistory : History OsStep s trace s') :
    s'.snapshot = s.snapshot := by
  have hkeep : ∀ op, Sampling op → ∀ mid : World, mid.snapshot = s.snapshot →
      demonic OsStep op (fun _ end' => end'.snapshot = s.snapshot) mid := by
    intro op hop mid hmid answer end' hstep
    rw [hstep.after, ← hmid]
    cases op <;> first | rfl | exact hop.elim
  have hwp : (collect fmt cfg).wp (demonic OsStep) (fun _ end' => end'.snapshot = s.snapshot) s :=
    Prog.wp_of_calls (demonic_monotone _) hkeep collect_sampling rfl fun _ _ h => h
  exact Prog.trace_wp hwp htrace hhistory

/-- The snapshot of the last call, wherever it is. -/
def Last (fmt : FloatFormat) (cfg : OsMonitorCfg) (last : World → Option OsCheck)
    (s : Logged) : Prop :=
  ∃ samples, Collects fmt cfg s.2 samples (last s.1) s.1

/-- The monitor shows the snapshot of the last call. -/
abbrev Shown (fmt : FloatFormat) (cfg : OsMonitorCfg) : Logged → Prop := Last fmt cfg World.snapshot

theorem collect_within : Prog.Within during (Shown fmt cfg) (collect fmt cfg)
    (fun snap => Last fmt cfg fun _ => some snap) (Shown fmt cfg) := by
  rintro ⟨s, log⟩ ⟨samples, hcollects⟩
  rw [Prog.wp_demonic_iff]
  rintro trace outcome ⟨s', log'⟩ htrace hlogged
  obtain ⟨hhistory, rfl⟩ := Spec.history_of_logged hlogged
  cases outcome with
  | returned snap =>
      -- the values of the call are those that its snapshot shows
      have hcollected := (collect_judged htrace hhistory).taken.collected
      exact ⟨_, .returned hcollects htrace hhistory hcollected⟩
  | raised exc =>
      refine ⟨samples, ?_⟩
      rw [collect_snapshot htrace hhistory]
      exact .raised hcollects htrace hhistory
  | stuck => exact absurd rfl (collect_bounded.not_stuck htrace)

/-- An operation of the loop: it leaves the counter, and after it the snapshot of the last call is
shown. -/
theorem leaves_within {call : OsCall} {last : World → Option OsCheck} (hleaves : LeavesCount call)
    (hshown : ∀ s : World, (s.after call).snapshot = last s) : Prog.Within during
      (Last fmt cfg last) (Os.call call) (fun _ => Shown fmt cfg) (Shown fmt cfg) := by
  apply Prog.Within.perform
  rintro ⟨s, log⟩ ⟨samples, hcollects⟩ answer ⟨s', log'⟩ ⟨hstep, hlog⟩
  obtain rfl : log' = log ++ [⟨call, answer⟩] := hlog
  have hafter : s' = s.after call := hstep.after
  have hnext : Shown fmt cfg (s', log ++ [⟨call, answer⟩]) := by
    refine ⟨samples, ?_⟩
    rw [hafter, hshown, ← hafter]
    exact .between hcollects hstep hleaves
  cases answer with
  | ok _ => exact hnext
  | error exc => exact hnext

/-- The loop of the thread, by induction on its passes. -/
theorem loop_within (fuel : ℕ) : Prog.Within during (Shown fmt cfg) (loop fmt cfg fuel)
    (fun _ => Shown fmt cfg) (Shown fmt cfg) := by
  induction fuel with
  | zero => exact fun _ hs => hs
  | succ fuel ih =>
      have hstop : Prog.Within during (Shown fmt cfg) (Os.call .stopRequested)
          (fun _ => Shown fmt cfg) (Shown fmt cfg) := leaves_within trivial fun _ => rfl
      have hstore (snap : OsCheck) : Prog.Within during (Last fmt cfg fun _ => some snap)
          (Os.call (.storeSnapshot snap)) (fun _ => Shown fmt cfg) (Shown fmt cfg) :=
        leaves_within trivial fun _ => rfl
      have hwait : Prog.Within during (Shown fmt cfg) (Os.call (.wait cfg.checkInterval))
          (fun _ => Shown fmt cfg) (Shown fmt cfg) := leaves_within trivial fun _ => rfl
      apply hstop.bind during_monotone
      intro stop
      refine Prog.Within.ite (fun _ => .pure fun _ hs => hs) fun _ => ?_
      apply collect_within.bind during_monotone
      intro snap
      apply (hstore snap).bind during_monotone
      intro _
      exact hwait.bind during_monotone fun _ => ih

/-- What the thread does is a run of calls, and what it shows between two passes is the snapshot of
the last call. -/
theorem loop_collects {fuel : ℕ} {outcome : Outcome Exc Unit}
    (htrace : (loop fmt cfg fuel).Trace trace outcome) (hhistory : History OsStep initial trace s) :
    ∃ samples, Collects fmt cfg trace samples s.snapshot s := by
  have hend := Prog.trace_wp (loop_within fuel (initial, []) ⟨[], .nil⟩) htrace (hhistory.logged [])
  cases outcome <;> exact hend

theorem snapshot_returns : snapshot.wp (demonic OsStep)
    (fun outcome _ => outcome = .returned s.snapshot) s := by
  rw [snapshot, Prog.wp_perform]
  intro answer s' hstep
  obtain rfl : answer = .ok s.snapshot := hstep.answers
  rfl

/-- What the main loop reads between two passes of the thread is degraded when enough of the last
calls have each taken a value that is too high. -/
theorem snapshot_degraded_iff {fuel : ℕ} {outcome : Outcome Exc Unit} {snap : OsCheck}
    {reads : List (Event OsCall.Ret Exc)} (htrace : (loop fmt cfg fuel).Trace trace outcome)
    (hhistory : History OsStep initial trace s)
    (hreads : snapshot.Trace reads (.returned (some snap)))
    (hread : History OsStep s reads s') : ∃ samples, Collects fmt cfg trace samples (some snap) s ∧
      (snap.degraded = true ↔ cfg.osFailCount ≤ (streak cfg samples : Int)) := by
  obtain ⟨samples, hcollects⟩ := loop_collects htrace hhistory
  have hshown := Prog.trace_wp snapshot_returns hreads hread
  obtain hsnap : some snap = s.snapshot := Outcome.returned.inj hshown
  rw [← hsnap] at hcollects
  refine ⟨samples, hcollects, ?_⟩
  rw [degraded_eq hcollects rfl, decide_eq_true_iff]

end Thread

end PgHa.Debounce
