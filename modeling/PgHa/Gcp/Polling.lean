import PgHa.Gcp.Network
import PgHa.Effect.Wp

/-!
# Waiting for an operation

Both managers poll an operation until it is done or a deadline has passed, and
take the normal return of `_wait_zone_op` as the confirmation of an attach, a
detach or a move of the address.  The answers are an arbitrary stream, and only
the sleep between two polls is sure to bring the deadline closer.

`waitZoneOp_exact` says that the loop ends, that it polls only before its
deadline, and which of its four exits it takes: the first answer that decides
anything decides it.
-/

namespace PgHa.Polling

open Effect

variable {cfg : Config} {opName zone : String} {interval deadline : Int}

/-! ## Polls and their clock -/

/-- A poll: the time at which it started, and what it came to. -/
structure Poll where
  start : Int
  answer : Except Exc Operation

/-- The last time that was read, and the polls so far. -/
structure Watch where
  clock : Int
  polls : List Poll

/-- `requests` and the credentials raise neither a `RuntimeError` nor a `TimeoutError`. -/
def isHttpError (exc : Exc) : Prop := exc.cls ≠ .runtimeError ∧ exc.cls ≠ .timeoutError

/-- The clock does not go back, and advances by what is slept.  Polls may be answered
anything. -/
def watchStep (s : Watch) (event : Event SysCall.Ret Exc) (s' : Watch) : Prop :=
  match event with
  | ⟨.host .monotonic, answer⟩ => answer = .ok s'.clock ∧ s.clock ≤ s'.clock ∧ s'.polls = s.polls
  | ⟨.host (.sleep duration), answer⟩ =>
      answer = .ok () ∧ s.clock + duration ≤ s'.clock ∧ s'.polls = s.polls
  | ⟨.gcp (.getOperation ..), answer⟩ =>
      s.clock ≤ s'.clock ∧ s'.polls = s.polls ++ [⟨s.clock, Response.fetched answer⟩] ∧
        ∀ exc, Response.fetched answer = .error exc → isHttpError exc
  | _ => s' = s

/-- An answer that ends the wait: an HTTP error, or the status `DONE`. -/
def decisive : Except Exc Operation → Bool
  | .error _ => true
  | .ok op => op.status.getD "" == "DONE"

/-- The first poll with a decisive answer. -/
def firstDecisive (polls : List Poll) : Option Poll := polls.find? fun poll => decisive poll.answer

/-! ## The exits of the loop -/

/-- What a decisive answer makes of the wait. -/
def verdict (opName : String) : Except Exc Operation → Outcome Exc Unit
  | .error exc => .raised exc
  | .ok op =>
      match op.error with
      | some errors => .raised (operationFailed opName errors)
      | none => .returned ()

def timedOut (cfg : Config) (opName : String) : Exc :=
  .timeoutError s!"GCP operation {opName} did not complete in {cfg.gcp.apiTimeout}s"

/-- The polls before the deadline, and how the wait has ended after them: with the
first answer that decides anything, or when the clock has shown the deadline. -/
inductive Ended (cfg : Config) (opName : String) (deadline : Int) :
    Watch → Outcome Exc Unit → Prop
  | decided {s : Watch} {before : List Poll} {poll : Poll} (hpolls : s.polls = before ++ [poll])
      (hbefore : firstDecisive before = none) (hdecisive : decisive poll.answer = true) :
      Ended cfg opName deadline s (verdict opName poll.answer)
  | timeout {s : Watch} (hpolls : firstDecisive s.polls = none) (hlate : deadline ≤ s.clock) :
      Ended cfg opName deadline s (.raised (timedOut cfg opName))

/-- All polls start before the deadline, and there are only so many of them. -/
structure Timely (interval deadline start : Int) (polls : List Poll) : Prop where
  started : ∀ poll ∈ polls, poll.start < deadline
  last : polls = [] ∨ start + (polls.length - 1) * interval < deadline

/-- The state of the loop before a test of the deadline: no answer has decided
anything, and every poll has cost the interval. -/
structure Waiting (interval deadline start : Int) (s : Watch) : Prop where
  undecided : firstDecisive s.polls = none
  timely : Timely interval deadline start s.polls
  elapsed : start + s.polls.length * interval ≤ s.clock

/-- What is known when the loop is left. -/
def loopPost (cfg : Config) (opName : String) (interval deadline start : Int) (passes : ℕ)
    (outcome : Outcome Exc Unit) (s : Watch) : Prop :=
  Timely interval deadline start s.polls ∧ (outcome = .stuck → s.polls.length = passes) ∧
    (outcome ≠ .stuck → Ended cfg opName deadline s outcome)

theorem firstDecisive_append_of_none {polls : List Poll} {poll : Poll}
    (h : firstDecisive polls = none) (hpoll : decisive poll.answer = false) :
    firstDecisive (polls ++ [poll]) = none := by
  rw [firstDecisive, List.find?_append]
  rw [firstDecisive] at h
  simp [h, hpoll]

theorem Waiting.later {start : Int} {s s' : Watch} (h : Waiting interval deadline start s)
    (hclock : s.clock ≤ s'.clock) (hpolls : s'.polls = s.polls) :
    Waiting interval deadline start s' := by
  obtain ⟨hundecided, htimely, helapsed⟩ := h
  rw [← hpolls] at hundecided htimely helapsed
  exact ⟨hundecided, htimely, Int.le_trans helapsed hclock⟩

/-- A poll that starts before the deadline. -/
theorem Waiting.poll {start : Int} {s : Watch} (h : Waiting interval deadline start s)
    (hbefore : s.clock < deadline) (answer : Except Exc Operation) :
    Timely interval deadline start (s.polls ++ [⟨s.clock, answer⟩]) := by
  have helapsed : start + s.polls.length * interval ≤ s.clock := h.elapsed
  constructor
  · intro poll hpoll
    rw [List.mem_append, List.mem_singleton] at hpoll
    rcases hpoll with hold | rfl
    · exact h.timely.started poll hold
    · exact hbefore
  · right
    have hlength : ((s.polls ++ [Poll.mk s.clock answer]).length : Int) - 1 = s.polls.length := by
      rw [List.length_append, List.length_singleton]
      omega
    rw [hlength]
    omega

/-- A poll that decides nothing, and the sleep after it. -/
theorem Waiting.polled {start : Int} {s s₁ s₂ : Watch} {answer : Except Exc Operation}
    (h : Waiting interval deadline start s) (hbefore : s.clock < deadline)
    (hnot : decisive answer = false) (hclock : s.clock ≤ s₁.clock)
    (hpolls : s₁.polls = s.polls ++ [⟨s.clock, answer⟩]) (hslept : s₁.clock + interval ≤ s₂.clock)
    (hsame : s₂.polls = s₁.polls) : Waiting interval deadline start s₂ := by
  have helapsed : start + s.polls.length * interval ≤ s.clock := h.elapsed
  constructor
  · rw [hsame, hpolls]
    exact firstDecisive_append_of_none h.undecided hnot
  · rw [hsame, hpolls]
    exact h.poll hbefore answer
  · have hlength : (s₂.polls.length : Int) = s.polls.length + 1 := by
      rw [hsame, hpolls, List.length_append]
      rfl
    rw [hlength, Int.add_mul, Int.one_mul]
    omega

/-- The loop, by induction on the passes that are left. -/
theorem pollZoneOp_wp {start : Int} (fuel : ℕ) {s : Watch}
    (hs : Waiting interval deadline start s) :
    (pollZoneOp cfg opName zone interval deadline fuel).wp (demonic watchStep)
      (loopPost cfg opName interval deadline start (s.polls.length + fuel)) s := by
  induction fuel generalizing s with
  | zero => exact ⟨hs.timely, fun _ => rfl, fun h => absurd rfl h⟩
  | succ fuel ih =>
      unfold pollZoneOp
      rw [Prog.bind_eq, Prog.wp_bind, Prog.wp_perform]
      rintro answer s₁ ⟨rfl, hclock, hpolls⟩
      have hs₁ : Waiting interval deadline start s₁ := hs.later hclock hpolls
      rw [← hpolls, Prog.answered_ok, Prog.andThen_returned, Prog.wp_ite]
      split
      · rename_i hbefore
        rw [Prog.bind_eq, Prog.wp_bind, Prog.wp_perform]
        rintro resp s₂ ⟨hclock₂, hpolls₂, -⟩
        have htimely : Timely interval deadline start s₂.polls := by
          rw [hpolls₂]
          exact hs₁.poll hbefore _
        -- a decisive answer is the verdict
        have hdecided {outcome : Outcome Exc Unit}
            (hdecisive : decisive (Response.fetched resp) = true)
            (houtcome : outcome = verdict opName (Response.fetched resp))
            (hended : outcome ≠ .stuck) :
            loopPost cfg opName interval deadline start
              (s₁.polls.length + (fuel + 1)) outcome s₂ := by
          refine ⟨htimely, fun h => absurd h hended, fun _ => ?_⟩
          rw [houtcome]
          have hpoll : decisive (Poll.mk s₁.clock (Response.fetched resp)).answer =
              true := hdecisive
          exact .decided hpolls₂ hs₁.undecided hpoll
        cases resp with
        | error exc => exact hdecided rfl rfl (by simp)
        | ok resp =>
            rw [Prog.answered_ok, Prog.andThen_returned, Prog.bind_eq, Prog.wp_bind,
              Prog.wp_ofExcept]
            rw [Response.fetched_ok] at hdecided hpolls₂
            cases hjson : resp.checkedJson with
            | error exc =>
                rw [hjson] at hdecided
                exact hdecided rfl rfl (by simp)
            | ok op =>
                rw [hjson] at hdecided hpolls₂
                rw [Prog.answered_ok, Prog.andThen_returned, Prog.wp_ite]
                split
                · rename_i hdone
                  have hdecisive : decisive (.ok op) = true := beq_iff_eq.mpr hdone
                  cases herror : op.error with
                  | some errors => exact hdecided hdecisive (by simp [verdict, herror]) (by simp)
                  | none => exact hdecided hdecisive (by simp [verdict, herror]) (by simp)
                · rename_i hdone
                  have hnot : decisive (.ok op) = false := beq_eq_false_iff_ne.mpr hdone
                  rw [Prog.bind_eq, Prog.wp_bind, Prog.wp_perform]
                  rintro slept s₃ ⟨rfl, hclock₃, hpolls₃⟩
                  -- nothing is decided yet, and the interval has passed
                  have hs₃ := hs₁.polled hbefore hnot hclock₂ hpolls₂ hclock₃ hpolls₃
                  have hcount : s₁.polls.length + (fuel + 1) = s₃.polls.length + fuel := by
                    rw [hpolls₃, hpolls₂, List.length_append, List.length_singleton]
                    omega
                  rw [hcount]
                  exact ih hs₃
      · rename_i hlate
        -- the clock has shown the deadline
        exact ⟨hs₁.timely, by simp, fun _ => .timeout hs₁.undecided (Int.not_lt.mp hlate)⟩

/-! ## The four exits -/

/-- `_wait_zone_op` of either manager, for any interval between two polls. -/
def waitFor (cfg : Config) (opName zone : String) (interval : Int) : Sys Unit := do
  let now ← Sys.host .monotonic
  pollZoneOp cfg opName zone interval (now + 1000 * cfg.gcp.apiTimeout) cfg.loopBound

/-- So many passes are enough for the loop to reach its deadline. -/
def passes (cfg : Config) (interval : Int) : ℕ :=
  (1000 * cfg.gcp.apiTimeout / interval).toNat + 2

/-- The wait has ended, and the first decisive answer tells how.  It is given up only when
the clock has shown the deadline. -/
structure Exact (deadline : Int) (s : Watch) (outcome : Outcome Exc Unit) : Prop where
  ended : outcome ≠ .stuck
  returned : outcome = .returned () ↔
    ∃ poll op, firstDecisive s.polls = some poll ∧ poll.answer = .ok op ∧ op.error = none
  failed : (∃ exc, outcome = .raised exc ∧ exc.cls = .runtimeError) ↔
    ∃ poll op errors, firstDecisive s.polls = some poll ∧ poll.answer = .ok op ∧
      op.error = some errors
  http : ∀ exc, (outcome = .raised exc ∧ isHttpError exc) ↔
    ∃ poll, firstDecisive s.polls = some poll ∧ poll.answer = .error exc
  timeout : (∃ exc, outcome = .raised exc ∧ exc.cls = .timeoutError) ↔
    firstDecisive s.polls = none
  late : firstDecisive s.polls = none → deadline ≤ s.clock

theorem Ended.exact {s : Watch} {outcome : Outcome Exc Unit}
    (h : Ended cfg opName deadline s outcome)
    (hhttp : ∀ poll ∈ s.polls, ∀ exc, poll.answer = .error exc → isHttpError exc) :
    Exact deadline s outcome := by
  cases h with
  | timeout hpolls hlate =>
      have hcls : (timedOut cfg opName).cls = .timeoutError := rfl
      constructor <;> simp [hpolls, hlate, isHttpError, hcls]
  | @decided before poll hpolls hbefore hdecisive =>
      have hfirst : firstDecisive s.polls = some poll := by
        rw [hpolls]
        rw [firstDecisive] at hbefore ⊢
        simp [List.find?_append, hbefore, hdecisive]
      cases hanswer : poll.answer with
      | error exc =>
          have hexc : isHttpError exc := hhttp poll (by simp [hpolls]) exc hanswer
          have hcls : exc.cls ≠ .runtimeError ∧ exc.cls ≠ .timeoutError := hexc
          constructor <;> simp [hfirst, hanswer, verdict, hcls, isHttpError]
      | ok op =>
          cases herror : op.error with
          | some errors =>
              have hcls : (operationFailed opName errors).cls = .runtimeError := rfl
              constructor <;> simp [hfirst, hanswer, verdict, herror, hcls, isHttpError]
          | none => constructor <;> simp [hfirst, hanswer, verdict, herror]

/-- The errors among the answers are those of `requests` and of the credentials. -/
def HttpErrors (s : Watch) : Prop :=
  ∀ poll ∈ s.polls, ∀ exc, poll.answer = .error exc → isHttpError exc

theorem httpErrors_of_step (s : Watch) (event : Event SysCall.Ret Exc) (s' : Watch)
    (hstep : watchStep s event s') (h : HttpErrors s) : HttpErrors s' := by
  have hsame (hpolls : s'.polls = s.polls) : HttpErrors s' := by
    rw [HttpErrors, hpolls]
    exact h
  unfold watchStep at hstep
  split at hstep
  · exact hsame hstep.2.2
  · exact hsame hstep.2.2
  · obtain ⟨-, hpolls, hhttp⟩ := hstep
    intro poll hpoll exc hexc
    rw [hpolls, List.mem_append, List.mem_singleton] at hpoll
    rcases hpoll with hold | rfl
    · exact h poll hold exc hexc
    · exact hhttp exc hexc
  · exact hsame (congrArg Watch.polls hstep)

/-- The number of polls that the timeout leaves room for is less than the passes. -/
theorem lt_passes_of_timely (hinterval : 0 < interval) {start : Int} {polls : List Poll}
    (h : Timely interval (start + 1000 * cfg.gcp.apiTimeout) start polls) :
    polls.length < passes cfg interval := by
  have hroom : 1000 * cfg.gcp.apiTimeout <
      (1000 * cfg.gcp.apiTimeout / interval + 1) * interval :=
    Int.lt_ediv_add_one_mul_self _ hinterval
  rcases h.last with hnil | hlast
  · simp [hnil, passes]
  · by_contra hmany
    have hle : 1000 * cfg.gcp.apiTimeout / interval + 1 ≤ (polls.length : Int) - 1 := by
      simp only [passes, Nat.not_lt] at hmany
      omega
    have hmul := Int.mul_le_mul_of_nonneg_right hle (Int.le_of_lt hinterval)
    omega

/-- **Polling is exact.**  Given as many passes as the timeout has room for, the wait
ends, after polls that all start before its deadline and of which there are fewer than
that, and it ends as its first decisive answer says. -/
theorem waitZoneOp_exact (cfg : Config) (opName zone : String) :
    DiskManager.waitZoneOp cfg opName zone = waitFor cfg opName zone 2000 ∧
    NetworkManager.waitZoneOp cfg opName zone = waitFor cfg opName zone 3000 ∧
    ∀ interval, 0 < interval → passes cfg interval ≤ cfg.loopBound →
      ∀ (clock start : Int) trace outcome s',
        (waitFor cfg opName zone interval).Trace (⟨.host .monotonic, .ok start⟩ :: trace) outcome →
        History watchStep ⟨clock, []⟩ (⟨.host .monotonic, .ok start⟩ :: trace) s' →
          (∀ poll ∈ s'.polls, poll.start < start + 1000 * cfg.gcp.apiTimeout) ∧
          s'.polls.length < passes cfg interval ∧
          Exact (start + 1000 * cfg.gcp.apiTimeout) s' outcome := by
  refine ⟨rfl, rfl,
    fun interval hinterval hbound clock start trace outcome s' htrace hhistory => ?_⟩
  -- an error of a GET is neither a RuntimeError nor a TimeoutError
  have hhttp : HttpErrors s' := hhistory.invariant httpErrors_of_step (by simp [HttpErrors])
  cases htrace with
  | call hloop =>
      cases hhistory with
      | @cons _ s₁ _ _ _ hfirst hrest =>
          obtain ⟨hclock, -, hpolls⟩ := hfirst
          obtain rfl : start = s₁.clock := Except.ok.inj hclock
          have hnone : s₁.polls = [] := hpolls
          have hwaiting : Waiting interval (s₁.clock + 1000 * cfg.gcp.apiTimeout) s₁.clock s₁ := by
            constructor
            · rw [hnone]
              rfl
            · rw [hnone]
              exact ⟨by simp, .inl rfl⟩
            · simp [hnone]
          obtain ⟨htimely, hstuck, hended⟩ :=
            Prog.trace_wp (pollZoneOp_wp cfg.loopBound hwaiting) hloop hrest
          have hcount : s'.polls.length < passes cfg interval :=
            lt_passes_of_timely hinterval htimely
          have hnot : outcome ≠ .stuck := by
            intro h
            have hlength := hstuck h
            rw [hnone, List.length_nil] at hlength
            omega
          exact ⟨htimely.started, hcount, (hended hnot).exact hhttp⟩

/-! ## A sample wait -/

/-- The operation is under way at the first poll, and done at the second. -/
def doneSecond : (op : SysCall) → Watch → Except Exc op.Ret × Watch
  | .host .monotonic, s => (.ok s.clock, s)
  | .host (.sleep duration), s => (.ok (), { s with clock := s.clock + duration })
  | .gcp (.getOperation ..), s =>
      let op : Operation := ⟨none, some (if s.polls = [] then "RUNNING" else "DONE"), none⟩
      (.ok (.ok op), { s with polls := s.polls ++ [⟨s.clock, .ok op⟩] })
  | _, s => (.error ⟨.other, ""⟩, s)

theorem watchStep_doneSecond (s : Watch) (op : SysCall) :
    watchStep s ⟨op, (doneSecond op s).1⟩ (doneSecond op s).2 := by
  unfold doneSecond
  split
  · exact ⟨rfl, Int.le_refl _, rfl⟩
  · exact ⟨rfl, Int.le_refl _, rfl⟩
  · exact ⟨Int.le_refl _, rfl, by simp⟩
  · unfold watchStep
    split <;> simp_all

/-- The sample configuration, followed for as many passes as its timeout has room for. -/
def sampleCfg : Config := { Config.samplePrimary with loopBound := 17 }

def sampleWait : Run SysCall.Ret Exc Unit Watch :=
  (waitFor sampleCfg "operation-1" "us-central1-a" 2000).run doneSecond ⟨0, []⟩

theorem waitZoneOp_exact_sample : sampleWait.outcome = .returned () := by
  have hlog : sampleWait.log = ⟨.host .monotonic, .ok 0⟩ :: sampleWait.log.tail := rfl
  have htrace : (waitFor sampleCfg "operation-1" "us-central1-a" 2000).Trace
      (⟨.host .monotonic, .ok 0⟩ :: sampleWait.log.tail) sampleWait.outcome := by
    rw [← hlog]
    exact trace_run _ _ _
  have hhistory : History watchStep ⟨0, []⟩ (⟨.host .monotonic, .ok 0⟩ :: sampleWait.log.tail)
      sampleWait.final := by
    rw [← hlog]
    exact history_run watchStep_doneSecond _ _
  obtain ⟨-, -, hexact⟩ := (waitZoneOp_exact sampleCfg "operation-1" "us-central1-a").2.2 2000
    (by decide) (by decide) 0 0 _ _ _ htrace hhistory
  exact hexact.returned.mpr ⟨⟨2000, .ok ⟨none, some "DONE", none⟩⟩, _, rfl, rfl, rfl⟩

end PgHa.Polling
