import PgHa.Effect.Triple
import PgHa.Gcp.Network
import PgHa.Ha.Switchover

/-!
# The lock file of the database

A postmaster names itself in `postmaster.pid`, and a second one does not start on the
same data directory while the file names a live one.  Between two attempts to start
PostgreSQL both engines remove the file, as if an attempt that has failed had left no
postmaster behind.  An attempt may fail with the postmaster alive, though: a start that
takes longer than `pg_ctl` waits is one.

Postmasters end while the daemon waits for a command or sleeps, and are launched by
`pg_ctl start` only.
-/

namespace PgHa.PidFile

open Effect

variable {cfg : Config} {removable : ℕ → Bool}

/-- The data directory: the postmasters that are alive on it, the process that
`postmaster.pid` names if there is such a file, and how many attempts to start have
failed.  The flags record what has happened, and no operation reads them:
`endangered`, that an attempt has failed, with another one to follow, and left a live
postmaster whose file can be removed; `unlocked`, that the file has been removed while a
postmaster was alive; and `doubled`, that a postmaster has been launched beside one. -/
structure DataDir where
  live : List ℕ
  pidFile : Option ℕ
  failures : ℕ
  endangered : Bool
  unlocked : Bool
  doubled : Bool
  deriving DecidableEq

/-- Some postmasters may end, each with or without removing its file. -/
structure Ebbs (s s' : DataDir) : Prop where
  live : ∀ pid ∈ s'.live, pid ∈ s.live
  pidFile : s'.pidFile = s.pidFile ∨
    s'.pidFile = none ∧ ∀ pid, s.pidFile = some pid → pid ∉ s'.live
  failures : s'.failures = s.failures
  endangered : s'.endangered = s.endangered
  unlocked : s'.unlocked = s.unlocked
  doubled : s'.doubled = s.doubled

def DataDir.launch (s : DataDir) (pid : ℕ) : DataDir :=
  { s with live := pid :: s.live, pidFile := some pid, doubled := s.doubled || !s.live.isEmpty }

/-- `pg_ctl start` launches a postmaster, unless the file names a live one. -/
def Starts (s s' : DataDir) : Prop :=
  ∃ s₁ s₂, Ebbs s s₁ ∧ (s₂ = s₁ ∨ (∀ pid, s₁.pidFile = some pid → pid ∉ s₁.live) ∧
    ∃ pid, s₂ = s₁.launch pid) ∧ Ebbs s₂ s'

/-- The answers to `pg_ctl start` that `start_postgres` raises a RuntimeError for. -/
def failing : Except Exc CompletedProcess → Bool
  | .ok result => result.returncode != 0
  | .error exc => exc.isRuntimeError

/-- An attempt to start has failed; there are three in all. -/
def DataDir.fail (removable : ℕ → Bool) (s : DataDir) : DataDir :=
  { s with
    failures := s.failures + 1
    endangered := s.endangered || (decide (s.failures + 1 < 3) && !s.live.isEmpty &&
      s.pidFile.isSome && removable (s.failures + 1)) }

def DataDir.unlock (s : DataDir) : DataDir :=
  { s with pidFile := none, unlocked := s.unlocked || !s.live.isEmpty }

def pidPath (cfg : Config) : String := joinPath cfg.postgresql.dataDir "postmaster.pid"

/-- `pg_ctl status` says that PostgreSQL runs only if the file names a process, `pg_ctl
start` may exit with any code, and the file can be removed after the failures for which
`removable` says so. -/
def pidStep (cfg : Config) (removable : ℕ → Bool) (s : DataDir) (event : Event SysCall.Ret Exc)
    (s' : DataDir) : Prop :=
  match event with
  | ⟨.host (.run (.pgCtlStatus ..)), answer⟩ =>
      Ebbs s s' ∧ ∀ result, answer = .ok result → result.returncode = 0 → s'.pidFile.isSome = true
  | ⟨.host (.run (.pgCtlStart ..)), answer⟩ =>
      ∃ s₁, Starts s s₁ ∧ s' = if failing answer = true then s₁.fail removable else s₁
  | ⟨.host (.run _), _⟩ | ⟨.host (.sleep _), _⟩ => Ebbs s s'
  | ⟨.host (.setPgState _), answer⟩ => s' = s ∧ answer = .ok ()
  | ⟨.host (.pathExists path), answer⟩ =>
      s' = s ∧ (path = pidPath cfg → answer = .ok s.pidFile.isSome)
  | ⟨.host (.remove path), answer⟩ =>
      if path = pidPath cfg ∧ s.pidFile.isSome = true ∧ removable s.failures = true then
        answer = .ok () ∧ s' = s.unlock
      else s' = s ∧ (path = pidPath cfg → ∃ exc, answer = .error exc ∧ exc.isOSError = true)
  | _ => s' = s

/-- The file is where it belongs, and nothing has gone wrong so far. -/
structure Fine (s : DataDir) : Prop where
  guarded : ∀ pid ∈ s.live, s.pidFile = some pid
  endangered : s.endangered = false
  unlocked : s.unlocked = false
  doubled : s.doubled = false

/-- The file of a live postmaster has been removed. -/
structure Broken (s : DataDir) : Prop where
  endangered : s.endangered = true
  unlocked : s.unlocked = true

/-- The attempt that has failed as the `n`-th one may have left a postmaster. -/
structure Failed (removable : ℕ → Bool) (n : ℕ) (s : DataDir) : Prop where
  failures : s.failures = n
  guarded : ∀ pid ∈ s.live, s.pidFile = some pid
  endangered : s.endangered = true ↔ n < 3 ∧ s.live ≠ [] ∧ removable n = true
  unlocked : s.unlocked = false
  doubled : s.doubled = false

/-! ## What an operation does -/

theorem Ebbs.refl (s : DataDir) : Ebbs s s :=
  ⟨fun _ => id, .inl rfl, rfl, rfl, rfl, rfl⟩

theorem Ebbs.guarded {s s' : DataDir} (h : Ebbs s s')
    (hs : ∀ pid ∈ s.live, s.pidFile = some pid) : ∀ pid ∈ s'.live, s'.pidFile = some pid := by
  intro pid hpid
  have hfile : s.pidFile = some pid := hs pid (h.live pid hpid)
  rcases h.pidFile with hsame | ⟨-, hended⟩
  · rw [hsame, hfile]
  · exact absurd hpid (hended pid hfile)

theorem Ebbs.fine {s s' : DataDir} (h : Ebbs s s') (hs : Fine s) : Fine s' :=
  ⟨h.guarded hs.guarded, h.endangered.trans hs.endangered, h.unlocked.trans hs.unlocked,
    h.doubled.trans hs.doubled⟩

/-- While the file is where it belongs, no postmaster is launched beside another one. -/
theorem Fine.launch {s : DataDir} (hs : Fine s)
    (hfree : ∀ pid, s.pidFile = some pid → pid ∉ s.live) (pid : ℕ) : Fine (s.launch pid) := by
  have hnone : s.live = [] := by
    apply List.eq_nil_iff_forall_not_mem.mpr
    intro pid' hpid'
    exact hfree pid' (hs.guarded pid' hpid') hpid'
  refine ⟨fun pid' hpid' => ?_, hs.endangered, hs.unlocked, ?_⟩
  · have hself : pid' = pid := by simpa [DataDir.launch, hnone] using hpid'
    rw [hself]
    rfl
  · simp [DataDir.launch, hnone, hs.doubled]

theorem Starts.fine {s s' : DataDir} (h : Starts s s') (hs : Fine s) : Fine s' := by
  obtain ⟨s₁, s₂, hbefore, hlaunch, hafter⟩ := h
  apply hafter.fine
  rcases hlaunch with rfl | ⟨hfree, pid, rfl⟩
  · exact hbefore.fine hs
  · exact (hbefore.fine hs).launch hfree pid

theorem Starts.failures {s s' : DataDir} (h : Starts s s') : s'.failures = s.failures := by
  obtain ⟨s₁, s₂, hbefore, hlaunch, hafter⟩ := h
  rw [hafter.failures]
  rcases hlaunch with rfl | ⟨-, pid, rfl⟩
  · exact hbefore.failures
  · exact hbefore.failures

theorem Fine.fail {s : DataDir} (hs : Fine s) : Failed removable (s.failures + 1)
    (s.fail removable) := by
  refine ⟨rfl, hs.guarded, ?_, hs.unlocked, hs.doubled⟩
  have hfile : s.live ≠ [] → s.pidFile.isSome = true := by
    intro hlive
    obtain ⟨pid, hpid⟩ := List.exists_mem_of_ne_nil _ hlive
    rw [hs.guarded pid hpid]
    rfl
  simp only [DataDir.fail, hs.endangered, Bool.false_or, Bool.and_eq_true, decide_eq_true_eq,
    Bool.not_eq_true', List.isEmpty_eq_false_iff]
  constructor
  · rintro ⟨⟨⟨hmore, hlive⟩, -⟩, hremovable⟩
    exact ⟨hmore, hlive, hremovable⟩
  · rintro ⟨hmore, hlive, hremovable⟩
    exact ⟨⟨⟨hmore, hlive⟩, hfile hlive⟩, hremovable⟩

/-- What has happened has happened. -/
theorem Broken.step {s s' : DataDir} {event : Event SysCall.Ret Exc} (hs : Broken s)
    (h : pidStep cfg removable s event s') : Broken s' := by
  have hebbs {s s' : DataDir} (hs : Broken s) (h : Ebbs s s') : Broken s' :=
    ⟨h.endangered.trans hs.endangered, h.unlocked.trans hs.unlocked⟩
  have hsame (h : s' = s) : Broken s' := h ▸ hs
  obtain ⟨op, answer⟩ := event
  rcases op with call | call
  · exact hsame h
  · cases call with
    | run command =>
        cases command with
        | pgCtlStatus osUser pgCtl dataDir => exact hebbs hs h.1
        | pgCtlStart osUser pgCtl dataDir timeout =>
            obtain ⟨s₁, ⟨s₂, s₃, hbefore, hlaunch, hafter⟩, rfl⟩ := h
            -- whether the command launches a server or not, nothing is repaired
            have hs₃ : Broken s₃ := by
              rcases hlaunch with rfl | ⟨-, pid, rfl⟩
              · exact hebbs hs hbefore
              · exact ⟨(hebbs hs hbefore).endangered, (hebbs hs hbefore).unlocked⟩
            have hs₁ : Broken s₁ := hebbs hs₃ hafter
            split
            · exact ⟨by simp [DataDir.fail, hs₁.endangered], hs₁.unlocked⟩
            · exact hs₁
        | _ => exact hebbs hs h
    | sleep duration => exact hebbs hs h
    | setPgState pgState => exact hsame h.1
    | pathExists path => exact hsame h.1
    | remove path =>
        simp only [pidStep] at h
        split_ifs at h
        · obtain ⟨-, rfl⟩ := h
          exact ⟨hs.endangered, by simp [DataDir.unlock, hs.unlocked]⟩
        · exact hsame h.1
    | _ => exact hsame h

/-! ## One attempt -/

/-- The operations of the host on the data directory. -/
abbrev onDataDir (cfg : Config) (removable : ℕ → Bool) : Transformer SysCall.Ret Exc DataDir :=
  demonic (pidStep cfg removable)

/-- The same for the operations of the engines. -/
abbrev steps (cfg : Config) (removable : ℕ → Bool) : Transformer Call.Ret Exc DataDir :=
  Prog.implemented (onDataDir cfg removable) (managers cfg)

theorem onDataDir_monotone : (onDataDir cfg removable).Monotone := demonic_monotone _

theorem steps_monotone : (steps cfg removable).Monotone :=
  Prog.implemented_monotone onDataDir_monotone _

/-- An operation of the host does what it does. -/
theorem steps_host {call : HostCall} {post : Except Exc call.Ret → DataDir → Prop} {s : DataDir}
    (h : ∀ answer s', pidStep cfg removable s ⟨.host call, answer⟩ s' → post answer s') :
    steps cfg removable (.host call) post s := by
  rw [steps, Prog.implemented, managers, Prog.wp_perform]
  intro answer s' hstep
  cases answer with
  | ok value => exact h _ _ hstep
  | error exc => exact h _ _ hstep

/-- The directory before an attempt, after `n` others. -/
def Ready (n : ℕ) (s : DataDir) : Prop := Fine s ∧ s.failures = n

/-- How an attempt ends: the engines only handle a RuntimeError. -/
def attempted (removable : ℕ → Bool) (n : ℕ) : Outcome Exc Unit → DataDir → Prop
  | .returned _, s => Fine s
  | .raised exc, s => if exc.isRuntimeError then Failed removable (n + 1) s else Fine s
  | .stuck, _ => True

theorem startPostgres_wp {n : ℕ} {s : DataDir} (hs : Ready n s) :
    (DiskManager.startPostgres cfg).wp (onDataDir cfg removable) (attempted removable n) s := by
  unfold DiskManager.startPostgres DiskManager.pgIsRunning
  simp only [Prog.bind_eq, Prog.wp_bind, Prog.wp_attempt, Prog.wp_perform]
  intro status s₁ hstatus
  obtain ⟨hebbs, -⟩ := hstatus
  have hs₁ : Ready n s₁ := ⟨hebbs.fine hs.1, hebbs.failures.trans hs.2⟩
  have hstart : Prog.wp (onDataDir cfg removable) (do
      let result ← Sys.host (.run (.pgCtlStart cfg.postgresql.pgOsUser cfg.postgresql.pgCtl
        cfg.postgresql.dataDir cfg.postgresql.pgStartTimeout))
      if result.returncode ≠ 0 then
        let text := (nonempty? (some (strip result.stderr))).getD "(no output)"
        .raise (.runtimeError s!"pg_ctl start failed (exit code {result.returncode}): {text}")
      else pure ()) (attempted removable n) s₁ := by
    simp only [Prog.bind_eq, Prog.wp_bind, Prog.wp_perform]
    intro answer s₂ hstep
    obtain ⟨s₃, hstarts, rfl⟩ := hstep
    have hs₃ : Fine s₃ := hstarts.fine hs₁.1
    have hfailed : Failed removable (n + 1) (s₃.fail removable) := by
      have hfailures : s₃.failures = n := hstarts.failures.trans hs₁.2
      exact hfailures ▸ hs₃.fail
    -- only a RuntimeError leads to another attempt
    cases answer with
    | error exc =>
        by_cases hruntime : exc.isRuntimeError = true
        · have hfailing : failing (.error exc) = true := hruntime
          rw [if_pos hfailing]
          exact (if_pos hruntime).mpr hfailed
        · have hfailing : ¬ failing (.error exc) = true := hruntime
          rw [if_neg hfailing]
          exact (if_neg hruntime).mpr hs₃
    | ok result =>
        rw [Prog.answered_ok, Prog.andThen_returned, Prog.wp_ite]
        split_ifs with hcode hfailing hfailing
        · exact hfailed
        · exact absurd (by simpa [failing] using hcode) hfailing
        · exact absurd (by simpa [failing] using hfailing) hcode
        · exact hs₃
  cases status with
  | error exc => exact hstart
  | ok result =>
      by_cases hrunning : (result.returncode == 0) = true
      · simp only [Prog.answered_ok, Prog.captured_returned, Prog.andThen_returned, Prog.pure_eq,
          Prog.wp_pure, hrunning, if_true]
        exact hs₁.1
      · simp only [Prog.answered_ok, Prog.captured_returned, Prog.andThen_returned, Prog.pure_eq,
          Prog.wp_pure, hrunning]
        exact hstart

/-- Between two attempts: the file that is removed is that of a live postmaster exactly
when the failed attempt has left one. -/
theorem removeStalePidFile_wp {n : ℕ} (hn : n < 3) {s : DataDir} (hs : Failed removable n s) :
    (removeStalePidFile cfg).wp (steps cfg removable)
      (Prog.ending (fun _ s' => Ready n s' ∨ Broken s') fun _ => False) s := by
  have hfine (hsafe : s.endangered = false) : Ready n s :=
    ⟨⟨hs.guarded, hsafe, hs.unlocked, hs.doubled⟩, hs.failures⟩
  unfold removeStalePidFile
  simp only [Prog.bind_eq, Prog.wp_bind, Prog.wp_perform]
  apply steps_host
  intro found s₁ hstep
  obtain rfl : s = s₁ := hstep.1.symm
  rw [hstep.2 rfl, Prog.answered_ok, Prog.andThen_returned, Prog.wp_ite]
  split_ifs with hfile
  · rw [Prog.wp_except, Prog.wp_perform]
    apply steps_host
    intro removed s₂ hstep
    simp only [pidStep] at hstep
    split_ifs at hstep with hremoved
    · obtain ⟨rfl, rfl⟩ := hstep
      rw [Prog.answered_ok, Prog.handled_returned]
      by_cases hlive : s.live = []
      · -- nobody is alive behind the file
        have hsafe : s.endangered = false := by
          rw [Bool.eq_false_iff]
          exact fun h => (hs.endangered.mp h).2.1 hlive
        refine .inl ⟨⟨?_, hsafe, ?_, hs.doubled⟩, hs.failures⟩
        · simp [DataDir.unlock, hlive]
        · simp [DataDir.unlock, hlive, hs.unlocked]
      · refine .inr ⟨hs.endangered.mpr ⟨hn, hlive, ?_⟩, ?_⟩
        · exact hs.failures ▸ hremoved.2.2
        · simp [DataDir.unlock, hlive]
    · obtain rfl : s = s₂ := hstep.1.symm
      obtain ⟨exc, rfl, hoserror⟩ := hstep.2 rfl
      rw [Prog.answered_error, Prog.handled_raised, if_pos hoserror]
      refine .inl (hfine ?_)
      rw [Bool.eq_false_iff]
      intro h
      exact hremoved ⟨rfl, hfile, hs.failures.symm ▸ (hs.endangered.mp h).2.2⟩
  · -- without a file there is no postmaster that could be in danger
    refine .inl (hfine ?_)
    rw [Bool.eq_false_iff]
    intro h
    obtain ⟨pid, hpid⟩ := List.exists_mem_of_ne_nil _ (hs.endangered.mp h).2.1
    exact hfile (by rw [hs.guarded pid hpid]; rfl)

/-! ## The retry loop -/

/-- Nothing has gone wrong, or the file of a live postmaster has been removed. -/
def Settled (s : DataDir) : Prop := Fine s ∨ Broken s

theorem broken_keeps {α : Type} (program : Mgr α) :
    Prog.Keeps (steps cfg removable) Broken program := by
  have hsys {β : Type} (program : Sys β) : Prog.Keeps (onDataDir cfg removable) Broken program :=
    Prog.Triple.of_forall onDataDir_monotone (fun op s hs answer s' hstep => hs.step hstep) program
  apply Prog.Triple.of_forall steps_monotone
  intro op s hs
  apply Prog.wp_mono onDataDir_monotone _ (hsys _ s hs)
  intro outcome s' hend
  cases outcome with
  | stuck => trivial
  | _ => exact hend

theorem settled_of_broken {α : Type} (program : Mgr α) : Prog.Triple (steps cfg removable) Broken
    program (fun _ => Settled) Settled :=
  (broken_keeps program).conseq steps_monotone (fun _ => id) (fun _ _ => .inr) fun _ => .inr

theorem sleep_triple (n : ℕ) : Prog.Triple (steps cfg removable) (Ready n)
    (Mgr.host (.sleep 3000)) (fun _ => Ready n) Settled := by
  apply Prog.Triple.perform
  intro s hs
  apply steps_host
  intro answer s' hstep
  have hebbs : Ebbs s s' := hstep
  cases answer with
  | ok value => exact ⟨hebbs.fine hs.1, hebbs.failures.trans hs.2⟩
  | error exc => exact .inl (hebbs.fine hs.1)

/-- What follows a failed attempt that is not the last one. -/
theorem retry_triple {n : ℕ} (hn : n < 3) {next : Mgr Unit}
    (hnext : Prog.Triple (steps cfg removable) (Ready n) next (fun _ => Settled) Settled) :
    Prog.Triple (steps cfg removable) (Failed removable n) (do
      removeStalePidFile cfg
      Mgr.host (.sleep 3000)
      next) (fun _ => Settled) Settled := by
  have hrest : Prog.Triple (steps cfg removable) (Ready n) (do
      Mgr.host (.sleep 3000)
      next) (fun _ => Settled) Settled :=
    (sleep_triple n).bind steps_monotone fun _ => hnext
  intro s hs
  rw [Prog.bind_eq, Prog.wp_bind]
  apply Prog.wp_mono steps_monotone _ (removeStalePidFile_wp hn hs)
  intro outcome s' hend
  cases outcome with
  | stuck => trivial
  | raised exc => exact hend.elim
  | returned value =>
      rcases hend with hready | hbroken
      · exact hrest s' hready
      · exact settled_of_broken _ s' hbroken

/-- Once the last attempt has failed, the file is not touched any more. -/
theorem Failed.fine_of_last {n : ℕ} {s : DataDir} (h : Failed removable n s) (hlast : ¬ n < 3) :
    Fine s := by
  refine ⟨h.guarded, ?_, h.unlocked, h.doubled⟩
  rw [Bool.eq_false_iff]
  exact fun hendangered => hlast (h.endangered.mp hendangered).1

/-- By induction on the attempts that are left: `n` have failed so far. -/
theorem startPostgresFrom_triple (left n : ℕ) (hleft : n + left = 3) (hn : n < 3) :
    Prog.Triple (steps cfg removable) (Ready n) (startPostgresFrom cfg left)
      (fun _ => Settled) Settled := by
  induction left generalizing n with
  | zero => omega
  | succ left ih =>
      intro s hs
      rw [startPostgresFrom, Prog.wp_except, Prog.bind_eq, Prog.wp_bind, Prog.wp_perform]
      apply Prog.wp_mono onDataDir_monotone _ (startPostgres_wp hs)
      intro outcome s₁ hend
      cases outcome with
      | stuck => trivial
      | returned value =>
          rw [Prog.asAnswer_returned, Prog.answered_ok, Prog.andThen_returned, Prog.wp_perform]
          apply steps_host
          intro answer s₂ hstep
          obtain ⟨rfl, rfl⟩ := hstep
          exact .inl hend
      | raised exc =>
          rw [Prog.asAnswer_raised, Prog.answered_error, Prog.andThen_raised, Prog.handled_raised,
            Prog.wp_ite]
          split_ifs with hagain
          · have hfailed : Failed removable (n + 1) s₁ := (if_pos hagain.1).mp hend
            have hn' : n + 1 < 3 := by
              have : left ≠ 0 := hagain.2
              omega
            exact retry_triple hn' (ih (n + 1) (by omega) hn') s₁ hfailed
          · by_cases hruntime : exc.isRuntimeError = true
            · -- the last attempt has failed, and no other one follows
              have hfailed : Failed removable (n + 1) s₁ := (if_pos hruntime).mp hend
              have hlast : ¬ n + 1 < 3 := by
                have : ¬ left ≠ 0 := fun h => hagain ⟨hruntime, h⟩
                omega
              exact .inl (hfailed.fine_of_last hlast)
            · exact .inl ((if_neg hruntime).mp hend)

/-! ## The result -/

/-- The file was removed only while no postmaster was alive, and none was launched
beside another one. -/
def Safe (s : DataDir) : Prop := s.unlocked = false ∧ s.doubled = false

/-- The step that starts PostgreSQL, of both engines. -/
def startSteps (cfg : Config) : List (Mgr Unit) :=
  [FailoverEngine.stepStartPostgres cfg, SwitchoverEngine.stepStartPostgres cfg]

theorem startPostgresFrom_bounded (left : ℕ) : (startPostgresFrom cfg left).Bounded := by
  have hcleanup : (removeStalePidFile cfg).Bounded :=
    (Prog.bounded_perform _).bind fun _ => .ite
      ((Prog.bounded_perform _).except fun _ => .ite trivial trivial) trivial
  induction left with
  | zero => trivial
  | succ left ih =>
      have hattempt : Prog.Bounded (do
          Mgr.disk .startPostgres
          Mgr.host (.setPgState .runningPrimary)) :=
        (Prog.bounded_perform _).bind fun _ => Prog.bounded_perform _
      apply hattempt.except
      intro exc
      exact .ite (hcleanup.bind fun _ => (Prog.bounded_perform _).bind fun _ => ih) trivial

/-- The step makes three attempts at most. -/
theorem lowered_bounded (left : ℕ) :
    ((startPostgresFrom cfg left).lower (managers cfg)).Bounded := by
  apply (startPostgresFrom_bounded left).lower (startPostgresFrom_minor cfg left)
  rintro op (hminor | rfl)
  · cases op with
    | host call => exact Prog.bounded_perform _
    | _ => exact hminor.elim
  · have hrunning : (DiskManager.pgIsRunning cfg).Bounded :=
      (Prog.bounded_perform _).attempt.bind fun result => by cases result <;> trivial
    exact hrunning.bind fun _ => .ite trivial ((Prog.bounded_perform _).bind fun _ =>
      .ite trivial trivial)

theorem fine_or_broken {step : Mgr Unit} (hstep : step ∈ startSteps cfg) {s s' : DataDir}
    (hs : Ready 0 s) {trace : List (Event SysCall.Ret Exc)} {outcome : Outcome Exc Unit}
    (htrace : (step.lower (managers cfg)).Trace trace outcome)
    (hhistory : History (pidStep cfg removable) s trace s') : Settled s' := by
  have hsame : step = startPostgresFrom cfg 3 := by
    simpa [startSteps, FailoverEngine.stepStartPostgres, SwitchoverEngine.stepStartPostgres]
      using hstep
  rw [hsame] at htrace
  have htriple : Prog.Triple (steps cfg removable) (Ready 0) (startPostgresFrom cfg 3)
      (fun _ => Settled) Settled := startPostgresFrom_triple 3 0 rfl (by omega)
  have hwp := Prog.wp_lower onDataDir_monotone (managers cfg) (fun _ => trivial) (htriple s hs)
  have hend := Prog.trace_wp hwp htrace hhistory
  cases outcome with
  | stuck => exact absurd rfl ((lowered_bounded 3).not_stuck htrace)
  | _ => exact hend

/-- **The lock file.**  However the step that starts PostgreSQL ends, the file of a live
postmaster has not been removed, and no second postmaster has been launched, if and only
if no attempt with another one to follow has failed and left a live postmaster whose file
could be removed. -/
theorem safe_iff (cfg : Config) (removable : ℕ → Bool) (step : Mgr Unit)
    (hstep : step ∈ startSteps cfg) (s s' : DataDir) (hs : Ready 0 s)
    (trace : List (Event SysCall.Ret Exc)) (outcome : Outcome Exc Unit)
    (htrace : (step.lower (managers cfg)).Trace trace outcome)
    (hhistory : History (pidStep cfg removable) s trace s') :
    Safe s' ↔ s'.endangered = false := by
  rcases fine_or_broken hstep hs htrace hhistory with hfine | hbroken
  · exact iff_of_true ⟨hfine.unlocked, hfine.doubled⟩ hfine.endangered
  · refine iff_of_false (fun hsafe => ?_) (fun h => ?_)
    · cases hsafe.1.symm.trans hbroken.unlocked
    · cases h.symm.trans hbroken.endangered

section Sample

/-- What `pg_ctl start` does in each attempt, by the number of the failures before it:
whether the postmaster that it launches is still alive when it exits, and its exit code.
The file can be removed. -/
def respond (cfg : Config) (alive : ℕ → Bool) (code : ℕ → Int) :
    (op : SysCall) → DataDir → Except Exc op.Ret × DataDir
  | .host (.run (.pgCtlStatus ..)), s =>
      (.ok ⟨if s.pidFile.any (· ∈ s.live) then 0 else 3, "", ""⟩, s)
  | .host (.run (.pgCtlStart ..)), s =>
      if s.pidFile.any (· ∈ s.live) then
        (.ok ⟨1, "", "lock file exists"⟩, s.fail fun _ => true)
      else
        let launched := s.launch (1000 + s.failures)
        let left := if alive s.failures then launched
          else { launched with live := s.live.filter (· ≠ 1000 + s.failures), pidFile := none }
        (.ok ⟨code s.failures, "", ""⟩,
          if code s.failures != 0 then left.fail fun _ => true else left)
  | .host (.run _), s => (.ok ⟨0, "", ""⟩, s)
  | .host (.sleep _), s => (.ok (), s)
  | .host (.setPgState _), s => (.ok (), s)
  | .host (.pathExists _), s => (.ok s.pidFile.isSome, s)
  | .host (.remove path), s =>
      if path = pidPath cfg ∧ s.pidFile.isSome = true then (.ok (), s.unlock)
      else (.error ⟨.osError, "No such file or directory"⟩, s)
  | _, s => (.error ⟨.other, ""⟩, s)

theorem pidStep_respond {alive : ℕ → Bool} {code : ℕ → Int} (s : DataDir) (op : SysCall) :
    pidStep cfg (fun _ => true) s ⟨op, (respond cfg alive code op s).1⟩
      (respond cfg alive code op s).2 := by
  rcases op with call | call
  · rfl
  · cases call with
    | run command =>
        cases command with
        | pgCtlStatus osUser pgCtl dataDir =>
            refine ⟨.refl s, fun result hresult hcode => ?_⟩
            obtain rfl := Except.ok.inj hresult
            cases hfile : s.pidFile with
            | none => simp [hfile] at hcode
            | some pid => simp [respond, hfile]
        | pgCtlStart osUser pgCtl dataDir timeout =>
            by_cases hlocked : s.pidFile.any (· ∈ s.live) = true
            · simp only [respond, hlocked, if_true]
              exact ⟨s, ⟨s, s, .refl s, .inl rfl, .refl s⟩, rfl⟩
            · have hfree : ∀ pid, s.pidFile = some pid → pid ∉ s.live := by
                intro pid hpid hlive
                exact hlocked (by simp [hpid, hlive])
              simp only [respond, if_neg hlocked]
              refine ⟨_, ⟨s, s.launch (1000 + s.failures), .refl s, .inr ⟨hfree, _, rfl⟩, ?_⟩, rfl⟩
              -- the server that has been started dies at once, or stays
              split
              · exact .refl _
              · refine ⟨fun pid hpid => ?_, .inr ⟨rfl, ?_⟩, rfl, rfl, rfl, rfl⟩
                · exact List.mem_cons_of_mem _ (List.mem_filter.mp hpid).1
                · intro pid hpid
                  obtain rfl : 1000 + s.failures = pid := Option.some.inj hpid
                  simp
        | _ => exact .refl s
    | remove path =>
        by_cases hpath : path = pidPath cfg ∧ s.pidFile.isSome = true
        · simp [pidStep, respond, hpath]
        · simp [pidStep, respond, hpath, Exc.isOSError]
    | sleep duration => exact .refl s
    | setPgState pgState => exact ⟨rfl, rfl⟩
    | pathExists path => exact ⟨rfl, fun _ => rfl⟩
    | _ => rfl

/-- The data directory of a database that was not shut down. -/
def crashed : DataDir := ⟨[], some 77, 0, false, false, false⟩

theorem ready_crashed : Ready 0 crashed := ⟨⟨by simp [crashed], rfl, rfl, rfl⟩, rfl⟩

/-- PostgreSQL is started on that directory. -/
def attempt (alive : ℕ → Bool) (code : ℕ → Int) : Run SysCall.Ret Exc Unit DataDir :=
  ((FailoverEngine.stepStartPostgres .sampleStandby).lower (managers .sampleStandby)).run
    (respond .sampleStandby alive code) crashed

/-- The first postmaster ends at once, and the second one comes up. -/
theorem safe_secondAttempt : Safe (attempt (· ≠ 0) fun n => if n = 0 then 1 else 0).final :=
  (safe_iff .sampleStandby (fun _ => true) _ List.mem_cons_self crashed _ ready_crashed _ _
    (trace_run _ _ _) (history_run pidStep_respond _ _)).mpr (by decide)

/-- The first postmaster is still recovering the database when `pg_ctl` gives up waiting. -/
theorem not_safe : ¬ ∀ cfg removable, ∀ step ∈ startSteps cfg, ∀ s s', Ready 0 s →
    ∀ trace outcome, (step.lower (managers cfg)).Trace trace outcome →
      History (pidStep cfg removable) s trace s' → Safe s' := by
  intro h
  have hsafe := h .sampleStandby (fun _ => true) _ List.mem_cons_self crashed _ ready_crashed _ _
    (trace_run _ _ _)
    (history_run pidStep_respond _ _ : History _ _ _ (attempt (fun _ => true) fun _ => 1).final)
  exact absurd hsafe.2 (by decide)

end Sample

end PgHa.PidFile
