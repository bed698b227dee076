import PgHa.Effect.Threads
import PgHa.Monitor.Postgres

/-!
# What a count of failures says

The main loop demotes the node when the monitor has counted enough failures, and
calls `reset` and `set_active(False)` so that failures from before do not count.
The thread of the monitor stores the result of a check in two blocks under the
lock, and looks at `_active` only before the check; a check takes seconds.  When
the monitor is cleared meanwhile, the result is shown and counted all the same.

`freshReads_of_calm` says that nothing else goes wrong: while the monitor is not
cleared under a check that is under way, every result that it shows or counts
comes from a check that has begun since it was last cleared, and the checks that
it has counted have failed one after the other.
-/

namespace PgHa.Freshness

open Effect PostgresMonitor

variable {cfg : PgMonitorCfg}

/-! ## The system -/

/-- The thread of the monitor, and its callers. -/
inductive Slot
  | monitor
  | caller (n : ℕ)
  deriving DecidableEq

/-- A check that has completed: its result, and how often the monitor had been cleared when it
began. -/
structure Check where
  snap : PgCheck
  began : ℕ

/-- The fields of the monitor, and what has happened to them: how often the monitor has been
cleared and had been when the latest check began, whether this check is under way, and the checks
that have completed and that make up the count, newest first.  No operation reads these. -/
structure World where
  active : Bool
  snapshot : Option Check
  failCount : ℕ
  clears : ℕ
  began : ℕ
  underWay : Bool
  completed : List Check
  counted : List Check

namespace World

/-- The result of a check that has failed is still to be counted. -/
def store (s : World) (snap : PgCheck) : World :=
  { s with
    snapshot := some ⟨snap, s.began⟩
    completed := ⟨snap, s.began⟩ :: s.completed
    underWay := !snap.ok }

def count (s : World) : World :=
  { s with
    failCount := s.failCount + 1
    counted := s.completed.head?.toList ++ s.counted
    underWay := false }

def clear (s : World) : World :=
  { s with snapshot := none, failCount := 0, clears := s.clears + 1, counted := [] }

/-- The effect of an operation.  An exception that `_pg_isready` does not catch ends the check. -/
def after (s : World) : Event MonCall.Ret Exc → World
  | ⟨.setActiveFlag active, _⟩ => { s with active := active }
  | ⟨.enterCheck, _⟩ => { s with began := s.clears, underWay := true }
  | ⟨.run .., .error exc⟩ => if unanswered exc then s else { s with underWay := false }
  | ⟨.storeSnapshot snap, _⟩ => s.store snap
  | ⟨.countFailure, _⟩ => s.count
  | ⟨.clearCount, _⟩ => { s with failCount := 0, counted := [] }
  | ⟨.clear, _⟩ => s.clear
  | _ => s

theorem after_run_caught (s : World) {command : List String} {timeout : Int} {exc : Exc}
    (h : unanswered exc = true) : s.after ⟨.run command timeout, .error exc⟩ = s := if_pos h

theorem after_run_uncaught (s : World) {command : List String} {timeout : Int} {exc : Exc}
    (h : ¬ unanswered exc = true) :
    s.after ⟨.run command timeout, .error exc⟩ = { s with underWay := false } := if_neg h

/-- The answers that an operation may have: the probes and the event of the daemon's end may
answer anything. -/
def Answers (s : World) : (call : MonCall) → Except Exc call.Ret → Prop
  | .active, answer => answer = .ok s.active
  | .snapshot, answer => answer = .ok (s.snapshot.map Check.snap)
  | .consecutiveFailures, answer => answer = .ok s.failCount
  | .countFailure, answer => answer = .ok (s.failCount + 1)
  | .setActiveFlag _, answer | .enterCheck, answer | .storeSnapshot _, answer
  | .clearCount, answer | .clear, answer => answer = .ok ()
  | .stopRequested, _ | .wait _, _ | .run .., _ | .query _, _ => True

end World

/-- One operation, of whichever thread. -/
structure MonStep (s : World) (event : Event MonCall.Ret Exc) (s' : World) : Prop where
  answers : s.Answers event.op event.answer
  after : s' = s.after event

/-- What the other threads of the daemon call, at any time and in any role of the node. -/
inductive Calls : Mon Unit → Prop
  | reset : Calls reset
  | setActive (active : Bool) : Calls (setActive active)
  | observe (primary : Bool) : Calls (observe primary)

def monitorSystem : System Slot MonCall.Ret Exc Unit World where
  step _ := MonStep
  fork _ _ _ _ _ _ := False
  arrive slot s program s' := s' = s ∧ (∃ n, slot = .caller n) ∧ Calls program
  env s s' := s' = s

abbrev State : Type := Threads Slot MonCall.Ret Exc Unit World

/-- The monitor has been started, and is followed for a number of passes. -/
def begin (cfg : PgMonitorCfg) (fuel : ℕ) : State where
  shared :=
    { active := false
      snapshot := none
      failCount := 0
      clears := 0
      began := 0
      underWay := false
      completed := []
      counted := [] }
  prog
    | .monitor => loop cfg fuel
    | .caller _ => .pure ()

/-- The monitor is not cleared while a check is under way: from its beginning until its result
has been stored and, when it has failed, counted. -/
def Calm (_ : Slot) (s : World) (event : Event MonCall.Ret Exc) : Prop :=
  event.op = .clear → s.underWay = false

/-! ## Freshness -/

/-- At least `n` checks have failed one after the other, all begun since the monitor was last
cleared. -/
def FailedInARow (n : ℕ) (s : World) : Prop :=
  ∃ row, row <:+: s.completed ∧ n ≤ row.length ∧
    ∀ check ∈ row, check.snap.ok = false ∧ check.began = s.clears

/-- What the callers of the monitor can read is fresh, and so is what it has counted. -/
structure FreshReads (s : World) : Prop where
  failures : ∀ count s', MonStep s ⟨.consecutiveFailures, .ok count⟩ s' →
    ∀ n ≤ count, FailedInARow n s
  exposed : ∀ snap s', MonStep s ⟨.snapshot, .ok (some snap)⟩ s' →
    ∃ check, s.snapshot = some check ∧ check.snap = snap ∧ check.began = s.clears
  counted : ∀ check ∈ s.counted, check.began = s.clears

/-- The count is that of checks that have failed one after the other, and these and the one that
is shown have begun since the monitor was last cleared. -/
structure Fresh (s : World) : Prop where
  shown : ∀ check, s.snapshot = some check → check.began = s.clears
  counted : ∀ check ∈ s.counted, check.snap.ok = false ∧ check.began = s.clears
  row : s.counted <:+: s.completed
  number : s.counted.length = s.failCount

theorem Fresh.reads {s : World} (h : Fresh s) : FreshReads s where
  failures := by
    intro count s' hstep n hn
    have hcount : (.ok count : Except Exc ℕ) = .ok s.failCount := hstep.answers
    obtain rfl := Except.ok.inj hcount
    exact ⟨s.counted, h.row, le_of_le_of_eq hn h.number.symm, h.counted⟩
  exposed := by
    intro snap s' hstep
    have hsnap : (.ok (some snap) : Except Exc (Option PgCheck)) =
        .ok (s.snapshot.map Check.snap) := hstep.answers
    obtain ⟨check, hcheck, rfl⟩ := Option.map_eq_some_iff.mp (Except.ok.inj hsnap).symm
    exact ⟨check, hcheck, rfl, h.shown check hcheck⟩
  counted := fun check hcheck => (h.counted check hcheck).2

/-! ## The contract -/

/-- The runs in which the monitor is cleared only between its checks. -/
abbrev calmSystem : System Slot MonCall.Ret Exc Unit World := monitorSystem.restrict Calm

/-- What the callers leave to the thread of the monitor. -/
structure Undisturbed (s s' : World) : Prop where
  underWay : s'.underWay = s.underWay
  began : s'.began = s.began
  completed : s'.completed = s.completed
  clears : s.underWay = true → s'.clears = s.clears
  counted : s'.counted = s.counted ∨ s'.counted = []

theorem Undisturbed.refl (s : World) : Undisturbed s s := ⟨rfl, rfl, rfl, fun _ => rfl, .inl rfl⟩

theorem Undisturbed.trans {s s' s'' : World} (h : Undisturbed s s') (h' : Undisturbed s' s'') :
    Undisturbed s s'' where
  underWay := h'.underWay.trans h.underWay
  began := h'.began.trans h.began
  completed := h'.completed.trans h.completed
  clears := by
    intro hunder
    have hunder' : s'.underWay = true := h.underWay.trans hunder
    exact (h'.clears hunder').trans (h.clears hunder)
  counted := by
    rcases h'.counted with hsame | hnone
    · rw [hsame]
      exact h.counted
    · exact .inr hnone

/-- The thread of the monitor relies on its callers; they rely on nothing. -/
def freshContract : Contract calmSystem where
  inv := Fresh
  rely slot s s' := slot = .monitor → Undisturbed s s'
  refl _ s _ := .refl s
  trans _ _ _ _ h h' hslot := (h hslot).trans (h' hslot)
  start _ program _ := Calls program
  post _ _ _ := True
  stable _ _ _ _ _ _ h := h

/-! ## The callers -/

/-- The operations of a caller. -/
def Calling : MonCall → Prop
  | .setActiveFlag _ | .clear | .snapshot | .consecutiveFailures => True
  | _ => False

theorem setActive_calling (active : Bool) : (setActive active).Calls Calling :=
  .perform_bind trivial fun _ => .ite (Prog.Calls.perform trivial) trivial

theorem Calls.calling {program : Mon Unit} (h : Calls program) : Prog.Calls Calling program := by
  cases h with
  | reset => exact Prog.Calls.perform trivial
  | setActive active => exact setActive_calling active
  | observe primary =>
      refine .bind (setActive_calling primary) fun _ => .perform_bind trivial fun result => ?_
      cases result with
      | none => trivial
      | some snap => exact .ite (.perform_bind trivial fun _ => trivial) trivial

theorem fresh_clear {s : World} : Fresh s.clear where
  shown := by simp [World.clear]
  counted := by simp [World.clear]
  row := List.nil_infix
  number := rfl

/-- What a caller does leaves the monitor fresh, and the thread of the monitor undisturbed. -/
theorem calling_step {s s' : World} {event : Event MonCall.Ret Exc} (hop : Calling event.op)
    (hfresh : Fresh s) (hcalm : event.op = .clear → s.underWay = false)
    (hstep : MonStep s event s') :
    Fresh s' ∧ Undisturbed s s' := by
  obtain ⟨op, answer⟩ := event
  obtain rfl := hstep.after
  cases op with
  | setActiveFlag active =>
      exact ⟨⟨hfresh.shown, hfresh.counted, hfresh.row, hfresh.number⟩,
        ⟨rfl, rfl, rfl, fun _ => rfl, .inl rfl⟩⟩
  | clear =>
      -- here the condition of the runs is used: no check is under way
      refine ⟨fresh_clear, ⟨rfl, rfl, rfl, fun hunder => ?_, .inr rfl⟩⟩
      exact absurd (hunder.symm.trans (hcalm rfl)) (by decide)
  | snapshot => exact ⟨hfresh, .refl s⟩
  | consecutiveFailures => exact ⟨hfresh, .refl s⟩
  | _ => exact hop.elim

theorem caller_safe {slot : Slot} {program : Mon Unit} (hprogram : Calls program) (s : World) :
    freshContract.Safe slot program s := by
  have hkeeps : Prog.Keeps (freshContract.thread slot) (fun _ => True) program := by
    apply Contract.keeps_of_step Contract.stable_true _ _ hprogram.calling
    · exact fun _ _ _ _ _ _ _ h => h.2
    · intro s event s' hop hinv _ hstep
      obtain ⟨hfresh, hundisturbed⟩ := calling_step hop hinv hstep.1 hstep.2
      exact ⟨hfresh, fun _ _ _ => hundisturbed, trivial⟩
  apply Prog.wp_mono (freshContract.thread_monotone slot) _ (hkeeps s trivial)
  exact fun _ _ _ => trivial

/-! ## The thread of the monitor -/

/-- No check is under way, and the checks that have been counted are the latest ones. -/
structure Idle (s : World) : Prop where
  idle : s.underWay = false
  counted : s.counted <+: s.completed

/-- A check is under way, and the monitor has not been cleared since it began. -/
structure Checking (s : World) : Prop where
  underWay : s.underWay = true
  began : s.began = s.clears
  counted : s.counted <+: s.completed

/-- The result of a check that has failed has been stored, and it has not been counted. -/
structure Failing (s : World) : Prop where
  underWay : s.underWay = true
  latest : ∃ check rest, s.completed = check :: rest ∧ check.snap.ok = false ∧
    check.began = s.clears ∧ s.counted <+: rest

theorem prefix_of_undisturbed {s s' : World} (h : Undisturbed s s') {completed : List Check}
    (hs : s.counted <+: completed) : s'.counted <+: completed := by
  rcases h.counted with hsame | hnone
  · rw [hsame]
    exact hs
  · rw [hnone]
    exact List.nil_prefix

theorem stable_idle : freshContract.Stable .monitor Idle := by
  intro s s' hs hrely _
  have h : Undisturbed s s' := hrely rfl
  refine ⟨h.underWay.trans hs.idle, ?_⟩
  rw [h.completed]
  exact prefix_of_undisturbed h hs.counted

theorem stable_checking : freshContract.Stable .monitor Checking := by
  intro s s' hs hrely _
  have h : Undisturbed s s' := hrely rfl
  refine ⟨h.underWay.trans hs.underWay, ?_, ?_⟩
  · rw [h.began, h.clears hs.underWay]
    exact hs.began
  · rw [h.completed]
    exact prefix_of_undisturbed h hs.counted

theorem stable_failing : freshContract.Stable .monitor Failing := by
  intro s s' hs hrely _
  have h : Undisturbed s s' := hrely rfl
  obtain ⟨check, rest, hcompleted, hfailed, hbegan, hcounted⟩ := hs.latest
  refine ⟨h.underWay.trans hs.underWay, check, rest, h.completed.trans hcompleted, hfailed, ?_,
    prefix_of_undisturbed h hcounted⟩
  rw [h.clears hs.underWay]
  exact hbegan

/-- The monitor is between two checks, or has still to clear its count. -/
def Done (s : World) : Prop := s.underWay = false

theorem stable_done : freshContract.Stable .monitor Done := by
  intro s s' hs hrely _
  exact (hrely rfl).underWay.trans hs

/-- Of a thread that raises nothing is said: the monitor has ended. -/
abbrev Goes {α : Type} (P : World → Prop) (program : Mon α) (Q : α → World → Prop) : Prop :=
  Prog.Triple (freshContract.thread .monitor) P program Q fun _ => True

theorem thread_monotone : (freshContract.thread .monitor).Monotone :=
  freshContract.thread_monotone .monitor

/-- One operation of the thread. -/
theorem goes_perform {P : World → Prop} {call : MonCall} {Q : call.Ret → World → Prop}
    (hstable : freshContract.Stable .monitor P)
    (hstep : ∀ s answer, Fresh s → P s → s.Answers call answer →
      Fresh (s.after ⟨call, answer⟩) ∧ ∀ value, answer = .ok value →
        Q value (s.after ⟨call, answer⟩)) :
    Goes P (Mon.call call) Q := by
  apply Contract.triple_perform hstable
  · exact fun _ _ _ _ _ h => h.2
  · intro s answer s' hinv hs h
    obtain rfl := h.2.after
    obtain ⟨hfresh, hkept⟩ := hstep s answer hinv hs h.2.answers
    refine ⟨hfresh, fun slot hne hslot => absurd hslot hne, ?_⟩
    cases answer with
    | ok value => exact hkept value rfl
    | error exc => trivial

/-- An operation that changes nothing. -/
theorem quiet_keeps {P : World → Prop} {call : MonCall} (hstable : freshContract.Stable .monitor P)
    (hquiet : ∀ s answer, World.after s ⟨call, answer⟩ = s) :
    Prog.Keeps (freshContract.thread .monitor) P (Mon.call call) := by
  apply Contract.triple_perform hstable
  · exact fun _ _ _ _ _ h => h.2
  · intro s answer s' hinv hs h
    obtain rfl : s' = s := h.2.after.trans (hquiet s answer)
    refine ⟨hinv, fun slot hne hslot => absurd hslot hne, ?_⟩
    cases answer <;> exact hs

theorem quiet_goes {P : World → Prop} {call : MonCall} (hstable : freshContract.Stable .monitor P)
    (hquiet : ∀ s answer, World.after s ⟨call, answer⟩ = s) : Goes P (Mon.call call) fun _ => P :=
  (quiet_keeps hstable hquiet).conseq thread_monotone (fun _ => id) (fun _ _ => id)
    fun _ _ => trivial

theorem enterCheck_goes : Goes Idle (Mon.call .enterCheck) fun _ => Checking := by
  apply goes_perform stable_idle
  intro s answer hfresh hs _
  exact ⟨⟨hfresh.shown, hfresh.counted, hfresh.row, hfresh.number⟩,
    fun _ _ => ⟨rfl, rfl, hs.counted⟩⟩

/-- A probe that is not answered is a check that has failed. -/
theorem pgIsready_goes : Goes Checking (pgIsready cfg) fun _ => Checking := by
  have hothers (s s' : World) : ∀ slot, slot ≠ .monitor → freshContract.rely slot s s' :=
    fun slot hne hslot => absurd hslot hne
  intro s hs
  rw [pgIsready, Prog.wp_except, Prog.bind_eq, Prog.wp_bind, Prog.wp_perform]
  apply Contract.thread_of_step Checking hs stable_checking fun _ _ _ _ _ h => h.2
  intro s hs hfresh answer s' h
  obtain rfl := h.2.after
  cases answer with
  | ok returncode => exact ⟨hfresh, hothers _ _, hs⟩
  | error exc =>
      rw [Prog.answered_error, Prog.andThen_raised, Prog.handled_raised, Prog.wp_ite]
      by_cases hcaught : unanswered exc = true
      · rw [World.after_run_caught s hcaught, if_pos hcaught]
        exact ⟨hfresh, hothers _ _, hs⟩
      · -- the check ends with the thread, so nothing is left to be counted
        rw [World.after_run_uncaught s hcaught, if_neg hcaught]
        exact ⟨⟨hfresh.shown, hfresh.counted, hfresh.row, hfresh.number⟩, hothers _ _, trivial⟩

theorem check_goes : Goes Idle (check cfg) fun _ => Checking := by
  apply enterCheck_goes.bind thread_monotone
  intro _
  apply pgIsready_goes.bind thread_monotone
  intro ready
  have hresult (snap : PgCheck) : Goes Checking (.pure snap) fun _ => Checking :=
    .pure fun _ hs => hs
  apply Prog.Triple.ite
  · exact fun _ => hresult _
  · intro _
    have hquery : Prog.Keeps (freshContract.thread .monitor) Checking (sqlProbe cfg) :=
      quiet_keeps stable_checking fun _ _ => rfl
    apply (hquery.attempted thread_monotone).bind thread_monotone
    intro result
    cases result with
    | ok row => exact hresult _
    | error exc => exact hresult _

theorem storeSnapshot_goes (snap : PgCheck) : Goes Checking (Mon.call (.storeSnapshot snap))
    fun _ => if snap.ok then Done else Failing := by
  apply goes_perform stable_checking
  intro s answer hfresh hs _
  have hrow : s.counted <:+: (s.store snap).completed :=
    hfresh.row.trans (List.suffix_cons _ _).isInfix
  refine ⟨⟨?_, hfresh.counted, hrow, hfresh.number⟩, fun _ _ => ?_⟩
  · intro check hcheck
    obtain rfl := Option.some.inj hcheck
    exact hs.began
  · -- only a failure has still to be counted
    cases hok : snap.ok with
    | true => exact congrArg (!·) hok
    | false =>
        exact ⟨congrArg (!·) hok, ⟨snap, s.began⟩, s.completed, rfl, hok, hs.began, hs.counted⟩

theorem countFailure_goes : Goes Failing (Mon.call .countFailure) fun _ => Idle := by
  apply goes_perform stable_failing
  intro s answer hfresh hs _
  obtain ⟨check, rest, hcompleted, hfailed, hbegan, hcounted⟩ := hs.latest
  -- the check that has just been stored is the one that is counted
  have hrow : s.count.counted = check :: s.counted := by
    simp [World.count, hcompleted]
  have hprefix : s.count.counted <+: s.completed := by
    rw [hrow, hcompleted]
    exact List.cons_prefix_cons.mpr ⟨rfl, hcounted⟩
  refine ⟨⟨hfresh.shown, ?_, hprefix.isInfix, ?_⟩, fun _ _ => ⟨rfl, hprefix⟩⟩
  · intro other hother
    rcases List.mem_cons.mp (hrow ▸ hother : other ∈ check :: s.counted) with rfl | hmem
    · exact ⟨hfailed, hbegan⟩
    · exact hfresh.counted other hmem
  · have hlength : s.count.counted.length = s.counted.length + 1 := by rw [hrow, List.length_cons]
    exact hlength.trans (congrArg (· + 1) hfresh.number)

theorem clearCount_goes : Goes Done (Mon.call .clearCount) fun _ => Idle := by
  apply goes_perform stable_done
  intro s answer hfresh hs _
  refine ⟨⟨hfresh.shown, ?_, List.nil_infix, rfl⟩, fun _ _ => ⟨hs, List.nil_prefix⟩⟩
  intro check hcheck
  cases hcheck

/-- The loop of the thread, by induction on its passes. -/
theorem loop_goes (fuel : ℕ) : Goes Idle (loop cfg fuel) fun _ _ => True := by
  induction fuel with
  | zero => exact fun _ _ => trivial
  | succ fuel ih =>
      have hwait : Goes Idle (Mon.call (.wait cfg.checkInterval)) fun _ => Idle :=
        quiet_goes stable_idle fun _ _ => rfl
      have hrest := hwait.bind thread_monotone fun _ => ih
      have hstop : Goes Idle (Mon.call .stopRequested) fun _ => Idle :=
        quiet_goes stable_idle fun _ _ => rfl
      have hactive : Goes Idle (Mon.call .active) fun _ => Idle :=
        quiet_goes stable_idle fun _ _ => rfl
      apply hstop.bind thread_monotone
      intro stop
      refine Prog.Triple.ite (fun _ => .pure fun _ _ => trivial) fun _ => ?_
      apply hactive.bind thread_monotone
      intro active
      refine Prog.Triple.ite (fun _ => hrest) fun _ => ?_
      apply check_goes.bind thread_monotone
      intro snap
      apply (storeSnapshot_goes snap).bind thread_monotone
      intro _
      apply Prog.Triple.ite
      · intro hfailed
        rw [if_neg (by simpa using hfailed)]
        exact countFailure_goes.bind thread_monotone fun _ => hrest
      · intro hpassed
        rw [if_pos (by simpa using hpassed)]
        exact clearCount_goes.bind thread_monotone fun _ => hrest

/-! ## Every interleaving -/

theorem freshContract_holds : freshContract.Holds where
  start _ _ s _ hprogram := caller_safe hprogram s
  arrive := by
    rintro slot s program s' hinv ⟨rfl, -, hprogram⟩ -
    exact ⟨hinv, fun _ _ _ => .refl _, hprogram⟩
  env := by
    rintro s s' hinv rfl
    exact ⟨hinv, fun _ _ => .refl _⟩

theorem sound_begin (fuel : ℕ) : freshContract.Sound (begin cfg fuel) := by
  have hfresh : Fresh (begin cfg fuel).shared := by
    refine ⟨?_, ?_, List.nil_infix, rfl⟩
    · intro check hcheck
      cases hcheck
    · intro check hcheck
      cases hcheck
  refine ⟨hfresh, fun slot => ?_⟩
  cases slot with
  | caller n => trivial
  | monitor =>
      have hidle : Idle (begin cfg fuel).shared := ⟨rfl, List.nil_prefix⟩
      apply Prog.wp_mono thread_monotone _ (loop_goes fuel _ hidle)
      exact fun _ _ _ => trivial

/-- **Fresh failures.**  In every interleaving in which the monitor is cleared only between its
checks, a count of `n` that is read stands for at least `n` checks that have failed one after the
other and have begun since the monitor was last cleared, and no result from before is shown or
counted. -/
theorem freshReads_of_calm {fuel : ℕ} {state : State}
    (h : (monitorSystem.restrict Calm).Reach (begin cfg fuel) state) : FreshReads state.shared := by
  have hsound := freshContract_holds.reach h (sound_begin fuel)
  exact hsound.1.reads

/-! ## Sample runs -/

section Sample

def sampleCfg : PgMonitorCfg where
  host := "/var/run/edb/as15"
  port := 5444
  user := "enterprisedb"
  database := "edb"
  pgIsready := "/usr/edb/as15/bin/pg_isready"
  pgResponseTimeout := 5000
  checkInterval := 2000

/-- The server does not accept connections. -/
def refuse (s : World) : (call : MonCall) → Except Exc call.Ret
  | .active => .ok s.active
  | .snapshot => .ok (s.snapshot.map Check.snap)
  | .consecutiveFailures => .ok s.failCount
  | .countFailure => .ok (s.failCount + 1)
  | .stopRequested => .ok false
  | .run .. => .ok 2
  | .query _ => .error ⟨.other, "connection refused"⟩
  | .setActiveFlag _ | .enterCheck | .storeSnapshot _ | .clearCount | .clear | .wait _ => .ok ()

def obey (call : MonCall) (s : World) : Except Exc call.Ret × World :=
  (refuse s call, s.after ⟨call, refuse s call⟩)

theorem monStep_obey (call : MonCall) (s : World) :
    MonStep s ⟨call, (obey call s).1⟩ (obey call s).2 := by
  refine ⟨?_, rfl⟩
  cases call <;> first | rfl | trivial

/-- A caller waits where it would clear the monitor under a check. -/
def waits (call : MonCall) (s : World) : Bool := decide (call = .clear) && s.underWay

theorem calm_obey {slot : Slot} {call : MonCall} {s : World} (h : waits call s = false) :
    Calm slot s ⟨call, (obey call s).1⟩ := by
  intro hclear
  simpa [waits, show call = .clear from hclear] using h

/-- A caller calls the monitor. -/
def calling (program : Mon Unit) (stop : MonCall → World → Bool) (state : State) : State :=
  (state.arrived (.caller 0) state.shared program).advance obey stop (.caller 0) 2

/-- The monitor is told that the node is PRIMARY, and performs some operations. -/
def checked (count : ℕ) (stop : MonCall → World → Bool) : State :=
  (calling (setActive true) stop (begin sampleCfg 2)).advance obey stop .monitor count

section

variable {allowed : Slot → World → Event MonCall.Ret Exc → Prop} {stop : MonCall → World → Bool}
  {state : State}

/-- The runs of the sample monitor in which a condition is met. -/
abbrev SampleReach (allowed : Slot → World → Event MonCall.Ret Exc → Prop) (state : State) : Prop :=
  (monitorSystem.restrict allowed).Reach (begin sampleCfg 2) state

/-- The condition lets the threads obey. -/
def Lenient (allowed : Slot → World → Event MonCall.Ret Exc → Prop)
    (stop : MonCall → World → Bool) : Prop :=
  ∀ slot call s, stop call s = false → allowed slot s ⟨call, (obey call s).1⟩

theorem Lenient.reach_advance (hallowed : Lenient allowed stop) (slot : Slot) (count : ℕ)
    (h : SampleReach allowed state) :
    SampleReach allowed (state.advance obey stop slot count) :=
  h.advance (fun s call hcall => ⟨hallowed slot call s hcall, monStep_obey call s⟩) count

theorem Lenient.reach_calling (hallowed : Lenient allowed stop) {program : Mon Unit}
    (hprogram : Calls program) (h : SampleReach allowed state)
    (hidle : (state.prog (.caller 0)).Finished) :
    SampleReach allowed (calling program stop state) :=
  hallowed.reach_advance (.caller 0) 2 (h.arrive ⟨rfl, ⟨0, rfl⟩, hprogram⟩ hidle)

theorem Lenient.reach_checked (hallowed : Lenient allowed stop) (count : ℕ) :
    SampleReach allowed (checked count stop) :=
  hallowed.reach_advance .monitor count (hallowed.reach_calling (.setActive true) .refl trivial)

end

/-- A check has failed, and has been counted. -/
theorem freshReads_checked : (checked 6 waits).shared.failCount = 1 ∧
    FreshReads (checked 6 waits).shared := by
  have hlenient : Lenient Calm waits := fun _ _ _ => calm_obey
  refine ⟨by decide, ?_⟩
  exact freshReads_of_calm (hlenient.reach_checked 6)

/-- A check has begun, the monitor is reset, and the check fails. -/
def overtaken : State :=
  (calling reset (fun _ _ => false) (checked 3 fun _ _ => false)).advance obey (fun _ _ => false)
    .monitor 3

/-- The failure is counted although the check had begun before the reset. -/
theorem not_freshReads : ¬ ∀ cfg fuel state, monitorSystem.Reach (begin cfg fuel) state →
    FreshReads state.shared := by
  intro h
  have hlenient : Lenient (fun _ _ _ => True) fun _ _ => false := fun _ _ _ _ => trivial
  have hidle : ((checked 3 fun _ _ => false).prog (.caller 0)).Finished := trivial
  have hreset := hlenient.reach_calling .reset (hlenient.reach_checked 3) hidle
  have hreach : SampleReach (fun _ _ _ => True) overtaken :=
    hlenient.reach_advance .monitor 3 hreset
  have hreads := h sampleCfg 2 overtaken hreach.unrestrict
  have hcount : overtaken.shared.failCount = 1 := by decide
  have hstep : MonStep overtaken.shared ⟨.consecutiveFailures, .ok 1⟩ overtaken.shared :=
    ⟨congrArg Except.ok hcount.symm, rfl⟩
  obtain ⟨row, hrow, hlength, hfresh⟩ := hreads.failures 1 _ hstep 1 (Nat.le_refl 1)
  obtain ⟨check, hcheck⟩ := List.exists_mem_of_length_pos hlength
  have hstale : ∀ check ∈ overtaken.shared.completed, check.began ≠ overtaken.shared.clears := by
    decide
  exact hstale check (hrow.subset hcheck) (hfresh check hcheck).2

end Sample

end PgHa.Freshness
