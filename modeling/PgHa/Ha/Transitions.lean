import PgHa.Daemon
import PgHa.Effect.Threads
import PgHa.Model.Host

/-!
# The transitions of one node

The main loop, the handlers of the peer's commands and the management command
`switchover` all decide for themselves whether to start a transition, and most
transitions run in a thread of their own.  What they check first is recorded by
the daemon: the role, the flag of the switchovers, and the number and the time of
the attempts of the failovers.

The checks can be outdated by the time the transition is started, and they do not
see every transition.  A thread that has been started records itself only when it
runs; the failover lock, which is released as soon as the thread has been started,
does not help.  A SWITCHOVER_REQUEST is accepted without any check, the reaction to
PEER_DEAD does not look at the flag, nobody records a self-demotion but for the
role that it changes in the end, and a failover that has promoted the node has an
end that only its role gives away.

`informed` says of one decision that its checks still hold and that nothing is in
progress which they cannot see.  `one_transition` shows that then one transition
runs at a time, with the flag set throughout both sides of a switchover.  That a
decision finds no other transition then follows from what the thread has read: each
kind of transition in progress contradicts one of the checks (`failover_alone`,
`switchover_alone`, `demotion_alone`).
-/

namespace PgHa.Transitions

open Effect

variable {cfg : Config}

/-! ## The system -/

/-- What a thread has decided on: nothing, a transition that has recorded nothing yet, a
failover that has recorded its attempt, a self-demotion, or a switchover for which the flag
has been set. -/
inductive Stage
  | idle
  | started
  | attempted
  | demoting
  | flagged
  deriving DecidableEq

/-- The records by which a thread decides, as it has last read them, and the clock. -/
structure Records where
  role : NodeRole
  active : Bool
  attempts : ℕ
  lastAttempt : Int
  now : Int

/-- What a thread knows after a call has returned. -/
def Records.read (seen : Records) : (call : HostCall) → call.Ret → Records
  | .role, role => { seen with role := role }
  | .switchoverActive, active => { seen with active := active }
  | .attempts, attempts => { seen with attempts := attempts }
  | .lastAttemptTs, ts => { seen with lastAttempt := ts }
  | .monotonic, now => { seen with now := now }
  | _, _ => seen

/-- The daemon's state.  The other fields record what the threads have decided, which sequence
they are in, whether that has changed the role already, and what they have read; no operation
reads them. -/
structure World where
  daemon : DaemonState
  stage : ℕ → Stage
  running : ℕ → Option Sequence
  changed : ℕ → Bool
  seen : ℕ → Records

namespace World

def role (s : World) : NodeRole := s.daemon.node.role

def after (s : World) (i : ℕ) (call : HostCall) : Except Exc call.Ret → World
  | .ok value => { s with
      daemon := s.daemon.after call
      seen := Function.update s.seen i ((s.seen i).read call value) }
  | .error _ => { s with daemon := s.daemon.after call }

/-- A self-demotion is decided on by the thread that runs it. -/
def enter (s : World) (i : ℕ) (sequence : Sequence) : World where
  daemon := s.daemon
  stage := if sequence = .selfDemotion then Function.update s.stage i .demoting else s.stage
  running := Function.update s.running i (some sequence)
  changed := Function.update s.changed i false
  seen := s.seen

/-- A switchover ends with its flag. -/
def leave (s : World) (i : ℕ) (sequence : Sequence) : World where
  daemon := s.daemon
  stage := if sequence = .failover ∨ sequence = .selfDemotion then
    Function.update s.stage i .idle else s.stage
  running := Function.update s.running i none
  changed := s.changed
  seen := s.seen

def setFlag (s : World) (i : ℕ) (active : Bool) : World where
  daemon := s.daemon.after (.setSwitchoverActive active)
  stage := Function.update s.stage i (if active then .flagged else .idle)
  running := s.running
  changed := s.changed
  seen := s.seen

def setRole (s : World) (i : ℕ) (role : NodeRole) : World where
  daemon := s.daemon.after (.setRole role)
  stage := s.stage
  running := s.running
  changed := Function.update s.changed i true
  seen := s.seen

/-- The attempt of a failover is on record with its time. -/
def attempt (s : World) (i : ℕ) (ts : Int) : World where
  daemon := s.daemon.after (.setLastAttemptTs ts)
  stage := Function.update s.stage i .attempted
  running := s.running
  changed := s.changed
  seen := s.seen

/-- Thread `i` has handed its decision over to thread `j`. -/
def start (s : World) (i j : ℕ) : World where
  daemon := s.daemon
  stage := Function.update (Function.update s.stage i .idle) j
    (if s.stage i = .flagged then .flagged else .started)
  running := s.running
  changed := s.changed
  seen := s.seen

end World

/-- An operation of thread `i`; the managers may answer anything. -/
def transitionStep (i : ℕ) (s : World) (event : Event Call.Ret Exc) (s' : World) : Prop :=
  match event with
  | ⟨.host (.startThread _), _⟩ => False
  | ⟨.host (.setSwitchoverActive active), answer⟩ => answer = .ok () ∧ s' = s.setFlag i active
  | ⟨.host (.mark (.enter sequence)), answer⟩ => answer = .ok () ∧ s' = s.enter i sequence
  | ⟨.host (.mark (.leave sequence)), answer⟩ => answer = .ok () ∧ s' = s.leave i sequence
  | ⟨.host (.setRole role), answer⟩ => answer = .ok () ∧ s' = s.setRole i role
  | ⟨.host (.setLastAttemptTs ts), answer⟩ => answer = .ok () ∧ s' = s.attempt i ts
  | ⟨.host call, answer⟩ => s.daemon.Answers call answer ∧ s' = s.after i call answer
  | _ => s' = s

/-- The environment: the rest of the daemon leaves the records alone. -/
structure Plain (s s' : World) : Prop where
  role : s'.role = s.role
  flag : s'.daemon.switchoverActive = s.daemon.switchoverActive
  attempts : s'.daemon.attempts = s.daemon.attempts
  stage : s'.stage = s.stage
  running : s'.running = s.running
  changed : s'.changed = s.changed

structure Untouched (s s' : World) : Prop extends Plain s s' where
  seen : s'.seen = s.seen

/-- The management command `switchover`, without its reply. -/
def mgmtSwitchover (cfg : Config) : Mgr Unit := do
  let _ ← PgHaDaemon.dispatchSwitchover cfg
  pure ()

/-- What starts in a slot by itself: the main loop in the first one, and commands in
the others. -/
def Arrives (cfg : Config) (i : ℕ) (program : Mgr Unit) : Prop :=
  if i = 0 then program = PgHaDaemon.mainLoopPass cfg
  else program = PgHaDaemon.handlePeerConn cfg ∨ program = mgmtSwitchover cfg

def transitionSystem (cfg : Config) : System ℕ Call.Ret Exc Unit World where
  step := transitionStep
  fork i j s event s' child := j ≠ 0 ∧ ∃ task, event = ⟨.host (.startThread task), .ok ()⟩ ∧
    child = PgHaDaemon.taskBody cfg task ∧ s' = s.start i j
  arrive i s program s' := Arrives cfg i program ∧ s' = s
  env := Untouched

/-- No thread runs. -/
structure Start (state : Threads ℕ Call.Ret Exc Unit World) : Prop where
  stage : ∀ i, state.shared.stage i = .idle
  running : ∀ i, state.shared.running i = none
  prog : ∀ i, state.prog i = .pure ()

/-! ## Decisions -/

/-- What the thread has read for its decision still is so. -/
def Current (s : World) (seen : Records) : Call → Prop
  | .host (.startThread (.runFailover skipFence)) =>
      s.role = seen.role ∧ s.daemon.attempts = seen.attempts ∧
        (skipFence = true → s.daemon.switchoverActive = seen.active)
  | .host (.startThread .runSwitchover) | .host (.mark (.enter .selfDemotion)) =>
      s.role = seen.role ∧ s.daemon.switchoverActive = seen.active
  | _ => True

/-- The checks before a decision do not see a thread at this stage. -/
def Hidden (seen : Records) (op : Call) (stage : Stage) (changed : Bool) : Prop :=
  match op, stage with
  -- nothing is checked before a SWITCHOVER_REQUEST is accepted
  | .host (.setSwitchoverActive true), stage => stage ≠ .idle
  -- a thread that has been started, and has recorded nothing yet
  | .host (.startThread (.runFailover _)), .started | .host (.startThread .runSwitchover), .started
  | .host (.mark (.enter .selfDemotion)), .started => True
  -- an attempt is not heeded once it is older than the back-off
  | .host (.startThread (.runFailover _)), .attempted =>
      changed = false ∧ FailoverEngine.retryBackoffMillis ≤ seen.now - seen.lastAttempt
  -- a failover that has promoted the node has only its end before it
  | .host (.startThread .runSwitchover), .attempted
  | .host (.mark (.enter .selfDemotion)), .attempted => changed = true
  -- a self-demotion shows in the role once it has changed that, and then in nothing else
  | .host (.startThread (.runFailover _)), .demoting => changed = true
  | .host (.startThread .runSwitchover), .demoting => True
  -- the reaction to PEER_DEAD does not look at the flag
  | .host (.startThread (.runFailover false)), .flagged => True
  | _, _ => False

/-- A thread decides on a transition while what it has checked still is so, and nothing is in
progress that its checks do not see. -/
def informed (i : ℕ) (s : World) (event : Event Call.Ret Exc) : Prop :=
  Current s (s.seen i) event.op ∧
    ∀ j, j ≠ i → ¬ Hidden (s.seen i) event.op (s.stage j) (s.changed j)

/-! ## The contract of the threads -/

/-- What the records say of a thread. -/
structure Recorded (i : ℕ) (s : World) : Prop where
  running : s.running i ≠ none → s.stage i ≠ .idle
  flag : s.stage i = .flagged → s.daemon.switchoverActive = true
  switching : s.running i = some .asPrimary ∨ s.running i = some .asStandby →
    s.stage i = .flagged
  /-- A failover is run by a standby, until it promotes the node. -/
  failing : s.stage i = .attempted →
    if s.changed i then s.role = .primary else s.role = .standby ∧ s.daemon.attempts ≠ 0
  /-- A self-demotion is run by a primary, until it gives up the role. -/
  demoting : s.stage i = .demoting → s.changed i = true ∨ s.role = .primary
  mainLoop : s.stage i = .demoting → i = 0

structure Exclusive (s : World) : Prop where
  one : ∀ i j, s.stage i ≠ .idle → s.stage j ≠ .idle → i = j
  recorded : ∀ i, Recorded i s

/-- How far thread `i` has come. -/
def At (i : ℕ) (stage : Stage) (running : Option Sequence) (s : World) : Prop :=
  s.stage i = stage ∧ s.running i = running

/-- How far a thread has come when it is started. -/
def stageOf : Task → Stage
  | .runSwitchoverAsStandby => .flagged
  | _ => .started

/-- A failover is started on a standby. -/
def Fits (s : World) : Task → Prop
  | .runFailover _ => s.role = .standby
  | _ => True

/-- Other threads do not move thread `i`, and not the records of a transition of its own. -/
structure Unmoved (i : ℕ) (s s' : World) : Prop where
  stage : s'.stage i = s.stage i
  running : s'.running i = s.running i
  changed : s'.changed i = s.changed i
  seen : s'.seen i = s.seen i
  role : s.stage i ≠ .idle → s'.role = s.role
  attempts : s.stage i ≠ .idle → s'.daemon.attempts = s.daemon.attempts

def transitionContract (cfg : Config) : Contract ((transitionSystem cfg).restrict informed) where
  inv := Exclusive
  rely := Unmoved
  refl _ _ := ⟨rfl, rfl, rfl, rfl, fun _ => rfl, fun _ => rfl⟩
  trans i s s' s'' h h' := by
    have hbusy (hi : s.stage i ≠ .idle) : s'.stage i ≠ .idle := by rwa [h.stage]
    exact ⟨h'.stage.trans h.stage, h'.running.trans h.running, h'.changed.trans h.changed,
      h'.seen.trans h.seen, fun hi => (h'.role (hbusy hi)).trans (h.role hi),
      fun hi => (h'.attempts (hbusy hi)).trans (h.attempts hi)⟩
  start i program s := Arrives cfg i program ∧ At i .idle none s ∨
    ∃ task, program = PgHaDaemon.taskBody cfg task ∧ At i (stageOf task) none s ∧ Fits s task
  post i outcome s := outcome ≠ .stuck → At i .idle none s
  stable _ _ _ _ hrely _ hpost hended :=
    ⟨hrely.stage.trans (hpost hended).1, hrely.running.trans (hpost hended).2⟩

/-- A thread of the daemon among the others. -/
abbrev during (cfg : Config) (i : ℕ) : Transformer Call.Ret Exc World :=
  (transitionContract cfg).thread i

variable {i : ℕ} {stage : Stage} {running : Option Sequence}

theorem during_monotone : (during cfg i).Monotone := (transitionContract cfg).thread_monotone i

/-- An assertion about thread `i` that neither the other threads nor its own plain operations
take away. -/
structure Own (i : ℕ) (P : World → Prop) : Prop where
  unmoved : ∀ s s', P s → Unmoved i s s' → P s'
  plain : ∀ s s', P s → Plain s s' → P s'

theorem own_at : Own i (At i stage running) where
  unmoved _ _ hs h := ⟨h.stage.trans hs.1, h.running.trans hs.2⟩
  plain _ _ hs h := ⟨(congrFun h.stage i).trans hs.1, (congrFun h.running i).trans hs.2⟩

theorem Plain.exclusive {s s' : World} (h : Plain s s') (hs : Exclusive s) : Exclusive s' where
  one := by
    rw [h.stage]
    exact hs.one
  recorded i := by
    have hi := hs.recorded i
    constructor
    · rw [h.stage, h.running]
      exact hi.running
    · rw [h.stage, h.flag]
      exact hi.flag
    · rw [h.stage, h.running]
      exact hi.switching
    · rw [h.stage, h.changed, h.role, h.attempts]
      exact hi.failing
    · rw [h.stage, h.changed, h.role]
      exact hi.demoting
    · rw [h.stage]
      exact hi.mainLoop

theorem Plain.unmoved {s s' : World} (h : Plain s s') {j : ℕ} (hseen : s'.seen j = s.seen j) :
    Unmoved j s s' :=
  ⟨congrFun h.stage j, congrFun h.running j, congrFun h.changed j, hseen, fun _ => h.role,
    fun _ => h.attempts⟩

/-! ## Plain operations -/

/-- The operations that are no part of the protocol of the transitions. -/
def plain : Call → Prop
  | .host (.startThread _) | .host (.setSwitchoverActive _) | .host (.setRole _)
  | .host (.setAttempts _) | .host (.setLastAttemptTs _)
  | .host (.mark (.enter _)) | .host (.mark (.leave _)) => False
  | _ => True

/-- Only what thread `i` knows changes. -/
structure Looks (i : ℕ) (s s' : World) : Prop extends Plain s s' where
  others : ∀ j, j ≠ i → s'.seen j = s.seen j

theorem after_seen (s : World) (call : HostCall) (answer : Except Exc call.Ret) {j : ℕ}
    (hj : j ≠ i) : (s.after i call answer).seen j = s.seen j := by
  cases answer with
  | ok value => exact Function.update_of_ne hj _ _
  | error exc => rfl

theorem looks_of_after {s : World} {call : HostCall} (hop : plain (.host call))
    (answer : Except Exc call.Ret) : Looks i s (s.after i call answer) := by
  have hothers : ∀ j, j ≠ i → (s.after i call answer).seen j = s.seen j := fun j hj =>
    after_seen s call answer hj
  cases answer <;> cases call <;>
    first | exact hop.elim | exact ⟨⟨rfl, rfl, rfl, rfl, rfl, rfl⟩, hothers⟩

theorem after_of_step {s s' : World} {call : HostCall} (hop : plain (.host call))
    {answer : Except Exc call.Ret} (h : transitionStep i s ⟨.host call, answer⟩ s') :
    s.daemon.Answers call answer ∧ s' = s.after i call answer := by
  cases call
  case mark mark => cases mark <;> first | exact hop.elim | exact h
  all_goals first | exact hop.elim | exact h

theorem looks_of_step {op : Call} (hop : plain op) {s s' : World} {answer : Except Exc op.Ret}
    (h : transitionStep i s ⟨op, answer⟩ s') : Looks i s s' := by
  cases op with
  | disk call =>
      obtain rfl : s' = s := h
      exact ⟨⟨rfl, rfl, rfl, rfl, rfl, rfl⟩, fun _ _ => rfl⟩
  | net call =>
      obtain rfl : s' = s := h
      exact ⟨⟨rfl, rfl, rfl, rfl, rfl, rfl⟩, fun _ _ => rfl⟩
  | host call =>
      obtain ⟨-, rfl⟩ := after_of_step hop h
      exact looks_of_after hop answer

theorem not_fork_of_plain {op : Call} (hop : plain op) (j : ℕ) (s : World)
    (answer : Except Exc op.Ret) (s' : World) (child : Mgr Unit) :
    ¬ ((transitionSystem cfg).restrict informed).fork i j s ⟨op, answer⟩ s' child := by
  rintro ⟨-, -, task, hevent, -⟩
  obtain ⟨rfl, -⟩ := Event.mk.inj hevent
  exact hop

theorem plain_triple {op : Call} (hop : plain op) {P : World → Prop}
    (hP : ∀ s s', P s → Unmoved i s s' → P s') {Q : op.Ret → World → Prop} {E : World → Prop}
    (h : ∀ s answer s', P s → Looks i s s' → transitionStep i s ⟨op, answer⟩ s' →
      Prog.ending Q E (Prog.answered answer) s') :
    Prog.Triple (during cfg i) P (Prog.perform op) Q E := by
  refine Contract.triple_perform (C := transitionContract cfg)
    (fun s s' hs hrely _ => hP s s' hs hrely) (not_fork_of_plain hop) ?_
  intro s answer s' hinv hs hstep
  have hlooks : Looks i s s' := looks_of_step hop hstep.2
  refine ⟨hlooks.exclusive hinv, fun j hj => ?_, h s answer s' hs hlooks hstep.2⟩
  exact hlooks.toPlain.unmoved (hlooks.others j hj)

/-- A plain operation leaves a thread where it is. -/
theorem perform_keeps {P : World → Prop} (hP : Own i P) (op : Call) (hop : plain op) :
    Prog.Keeps (during cfg i) P (Prog.perform op) := by
  refine plain_triple hop hP.unmoved fun s answer s' hs hlooks _ => ?_
  have hs' : P s' := hP.plain s s' hs hlooks.toPlain
  cases answer <;> exact hs'

theorem keeps_of_plain {α : Type} {P : World → Prop} (hP : Own i P) {program : Mgr α}
    (hcalls : program.Calls plain) : Prog.Keeps (during cfg i) P program := by
  refine .of_calls during_monotone (fun op hop s hs => ?_) hcalls
  have hkeeps : Prog.Keeps (during cfg i) P (Prog.perform op) := perform_keeps hP op hop
  have hperformed := hkeeps s hs
  rw [Prog.wp_perform] at hperformed
  refine during_monotone _ _ _ s (fun answer s' hend => ?_) hperformed
  cases answer <;> exact hend

/-- Started at one place, the program returns at another one, and does not raise. -/
abbrev Returns (cfg : Config) (i : ℕ) {α : Type} (P : World → Prop) (program : Mgr α)
    (Q : World → Prop) : Prop :=
  Prog.Triple (during cfg i) P program (fun _ => Q) fun _ => False

theorem Returns.triple {α : Type} {P Q : World → Prop} {program : Mgr α}
    (h : Returns cfg i P program Q) {E : World → Prop} :
    Prog.Triple (during cfg i) P program (fun _ => Q) E :=
  h.conseq during_monotone (fun _ => id) (fun _ _ => id) fun _ => False.elim

/-- A plain operation that always succeeds. -/
theorem returns_of_plain {P : World → Prop} (hP : Own i P) (op : Call) (hop : plain op)
    (hok : ∀ s s' answer, transitionStep i s ⟨op, answer⟩ s' → ∃ value, answer = .ok value) :
    Returns cfg i P (Prog.perform op) P := by
  refine plain_triple hop hP.unmoved fun s answer s' hs hlooks hstep => ?_
  obtain ⟨value, rfl⟩ := hok s s' answer hstep
  exact hP.plain s s' hs hlooks.toPlain

/-! ## What a thread has read -/

/-- Thread `i` has decided on nothing, and `f` holds of what it knows. -/
def Saw (i : ℕ) (f : Records → Prop) (s : World) : Prop := At i .idle none s ∧ f (s.seen i)

theorem Saw.unmoved {f : Records → Prop} (s s' : World) (hs : Saw i f s) (h : Unmoved i s s') :
    Saw i f s' :=
  ⟨own_at.unmoved s s' hs.1 h, h.seen ▸ hs.2⟩

/-- After an operation, the thread knows what that has answered. -/
theorem look_triple (call : HostCall) (hop : plain (.host call)) {f : Records → Prop}
    {g : call.Ret → Records → Prop} (h : ∀ seen value, f seen → g value (seen.read call value)) :
    Prog.Triple (during cfg i) (Saw i f) (Mgr.host call) (fun value => Saw i (g value))
      (At i .idle none) := by
  refine plain_triple hop Saw.unmoved fun s answer s' hs hlooks hstep => ?_
  have hat : At i .idle none s' := own_at.plain s s' hs.1 hlooks.toPlain
  cases answer with
  | error exc => exact hat
  | ok value =>
      have hseen : s'.seen i = (s.seen i).read call value := by
        rw [(after_of_step hop hstep).2]
        exact Function.update_self ..
      exact ⟨hat, hseen ▸ h (s.seen i) value hs.2⟩

/-- An operation that reads no record. -/
theorem look_keeps (call : HostCall) (hop : plain (.host call)) {f : Records → Prop}
    (hread : ∀ seen value, Records.read seen call value = seen) :
    Prog.Triple (during cfg i) (Saw i f) (Mgr.host call) (fun _ => Saw i f) (At i .idle none) :=
  look_triple call hop fun seen value hf => (hread seen value).symm ▸ hf

theorem saw_of_at (s : World) (hs : At i .idle none s) : Saw i (fun _ => True) s := ⟨hs, trivial⟩

theorem at_of_saw {f : Records → Prop} (s : World) (hs : Saw i f s) : At i .idle none s := hs.1

/-- A thread that has decided on nothing starts to read. -/
theorem of_saw {α : Type} {program : Mgr α} {Q : α → World → Prop} {E : World → Prop}
    (h : Prog.Triple (during cfg i) (Saw i fun _ => True) program Q E) :
    Prog.Triple (during cfg i) (At i .idle none) program Q E :=
  h.conseq during_monotone saw_of_at (fun _ _ => id) fun _ => id

/-- A thread that decides against a transition. -/
theorem declines {α : Type} {value : α} {f : Records → Prop} :
    Prog.Triple (during cfg i) (Saw i f) (.pure value : Mgr α) (fun _ => At i .idle none)
      (At i .idle none) := .pure at_of_saw

/-- What a thread has read is forgotten. -/
theorem Saw.forget {α : Type} {f : Records → Prop} {program : Mgr α} {Q : α → World → Prop}
    {E : World → Prop} (h : Prog.Triple (during cfg i) (At i .idle none) program Q E) :
    Prog.Triple (during cfg i) (Saw i f) program Q E :=
  h.conseq during_monotone at_of_saw (fun _ _ => id) fun _ => id

/-! ## A decision finds no other transition -/

/-- A failover has been checked for. -/
structure Ready (skipFence : Bool) (seen : Records) : Prop where
  standby : seen.role = .standby
  /-- Only the hand-off and the fallback look at the flag. -/
  inactive : skipFence = true → seen.active = false
  backoff : seen.attempts = 0 ∨
    FailoverEngine.retryBackoffMillis ≤ seen.now - seen.lastAttempt

/-- A switchover or a self-demotion has been checked for. -/
structure Serving (seen : Records) : Prop where
  primary : seen.role = .primary
  inactive : seen.active = false

/-- A failover in progress is run by a standby or has promoted the node. -/
theorem Recorded.changed_of_primary {s : World} (hs : Recorded i s) (hi : s.stage i = .attempted)
    (hrole : s.role = .primary) : s.changed i = true := by
  have hfailing := hs.failing hi
  by_contra hchanged
  rw [if_neg hchanged, hrole] at hfailing
  cases hfailing.1

theorem Recorded.unchanged_of_standby {s : World} (hs : Recorded i s)
    (hi : s.stage i = .attempted) (hrole : s.role = .standby) :
    s.changed i = false ∧ s.daemon.attempts ≠ 0 := by
  have hfailing := hs.failing hi
  by_cases hchanged : s.changed i = true
  · rw [if_pos hchanged, hrole] at hfailing
    cases hfailing
  · rw [if_neg hchanged] at hfailing
    exact ⟨by simpa using hchanged, hfailing.2⟩

theorem Recorded.not_flagged {s : World} (hs : Recorded i s)
    (h : s.daemon.switchoverActive = false) : s.stage i ≠ .flagged := by
  intro hi
  rw [hs.flag hi] at h
  cases h

theorem failover_alone {skipFence : Bool} {answer : Except Exc Unit} {s : World}
    (hs : Exclusive s) (hready : Ready skipFence (s.seen i))
    (h : informed i s ⟨.host (.startThread (.runFailover skipFence)), answer⟩) :
    s.role = .standby ∧ ∀ j, j ≠ i → s.stage j = .idle := by
  obtain ⟨⟨hrole, hattempts, hflag⟩, hhidden⟩ := h
  have hstandby : s.role = .standby := hrole.trans hready.standby
  refine ⟨hstandby, fun j hj => ?_⟩
  have hj := hhidden j hj
  have hrecorded : Recorded j s := hs.recorded j
  cases hstage : s.stage j with
  | idle => rfl
  | started =>
      rw [hstage] at hj
      exact absurd trivial hj
  | attempted =>
      -- its attempt is on record, so that the back-off must have passed
      obtain ⟨hchanged, hattempted⟩ := hrecorded.unchanged_of_standby hstage hstandby
      rw [hattempts] at hattempted
      rw [hstage] at hj
      exact absurd ⟨hchanged, hready.backoff.resolve_left hattempted⟩ hj
  | demoting =>
      rw [hstage] at hj
      rcases hrecorded.demoting hstage with hchanged | hprimary
      · exact absurd hchanged hj
      · rw [hstandby] at hprimary
        cases hprimary
  | flagged =>
      rw [hstage] at hj
      cases skipFence with
      | false => exact absurd trivial hj
      | true =>
          have hinactive : s.daemon.switchoverActive = false :=
            (hflag rfl).trans (hready.inactive rfl)
          exact absurd hstage (hrecorded.not_flagged hinactive)

theorem switchover_alone {answer : Except Exc Unit} {s : World} (hs : Exclusive s)
    (hserving : Serving (s.seen i))
    (h : informed i s ⟨.host (.startThread .runSwitchover), answer⟩) (j : ℕ) (hne : j ≠ i) :
    s.stage j = .idle := by
  obtain ⟨⟨hrole, hflag⟩, hhidden⟩ := h
  have hj := hhidden j hne
  have hrecorded : Recorded j s := hs.recorded j
  cases hstage : s.stage j with
  | idle => rfl
  | attempted =>
      rw [hstage] at hj
      exact absurd (hrecorded.changed_of_primary hstage (hrole.trans hserving.primary)) hj
  | flagged =>
      exact absurd hstage (hrecorded.not_flagged (hflag.trans hserving.inactive))
  | _ =>
      rw [hstage] at hj
      exact absurd trivial hj

/-- Only the main loop demotes the node itself. -/
theorem demotion_alone {answer : Except Exc Unit} {s : World} (hs : Exclusive s)
    (hserving : Serving (s.seen 0))
    (h : informed 0 s ⟨.host (.mark (.enter .selfDemotion)), answer⟩) :
    s.role = .primary ∧ ∀ j, j ≠ 0 → s.stage j = .idle := by
  obtain ⟨⟨hrole, hflag⟩, hhidden⟩ := h
  have hprimary : s.role = .primary := hrole.trans hserving.primary
  refine ⟨hprimary, fun j hne => ?_⟩
  have hj := hhidden j hne
  have hrecorded : Recorded j s := hs.recorded j
  cases hstage : s.stage j with
  | idle => rfl
  | started =>
      rw [hstage] at hj
      exact absurd trivial hj
  | attempted =>
      rw [hstage] at hj
      exact absurd (hrecorded.changed_of_primary hstage hprimary) hj
  | demoting => exact absurd (hrecorded.mainLoop hstage) hne
  | flagged =>
      exact absurd hstage (hrecorded.not_flagged (hflag.trans hserving.inactive))

/-- Nothing is checked before a SWITCHOVER_REQUEST is accepted. -/
theorem request_alone {answer : Except Exc Unit} {s : World}
    (h : informed i s ⟨.host (.setSwitchoverActive true), answer⟩) (j : ℕ) (hne : j ≠ i) :
    s.stage j = .idle := by
  by_contra hbusy
  exact h.2 j hne hbusy

/-! ## The operations of the protocol -/

theorem Exclusive.others {s : World} (hs : Exclusive s) (hi : s.stage i ≠ .idle) (j : ℕ)
    (hj : j ≠ i) : s.stage j = .idle := by
  by_contra hbusy
  exact hj (hs.one j i hbusy hi)

theorem Exclusive.not_running {s : World} (hs : Exclusive s) {j : ℕ} (hj : s.stage j = .idle) :
    s.running j = none := by
  by_contra hrunning
  exact (hs.recorded j).running hrunning hj

theorem recorded_of_idle {s : World} (hstage : s.stage i = .idle) (hrunning : s.running i = none) :
    Recorded i s := by
  constructor <;> simp [hstage, hrunning]

/-- Only thread `i` has decided on anything. -/
theorem exclusive_of_only {s : World} (hothers : ∀ j, j ≠ i → s.stage j = .idle)
    (hrunning : ∀ j, j ≠ i → s.running j = none) (hi : Recorded i s) : Exclusive s where
  one j l hj hl := by
    have hji : j = i := by
      by_contra hne
      exact hj (hothers j hne)
    have hli : l = i := by
      by_contra hne
      exact hl (hothers l hne)
    rw [hji, hli]
  recorded j := by
    by_cases hne : j = i
    · exact hne ▸ hi
    · exact recorded_of_idle (hothers j hne) (hrunning j hne)

/-- Only thread `i` has moved. -/
structure Moves (i : ℕ) (s s' : World) : Prop where
  stage : ∀ j, j ≠ i → s'.stage j = s.stage j
  running : ∀ j, j ≠ i → s'.running j = s.running j
  changed : ∀ j, j ≠ i → s'.changed j = s.changed j
  seen : s'.seen = s.seen

/-- Thread `i` moves while the others have decided on nothing. -/
theorem keeping_of_moves {s s' : World} {kept : Prop} (hs : Exclusive s)
    (halone : ∀ j, j ≠ i → s.stage j = .idle) (hmoves : Moves i s s') (hi : Recorded i s')
    (hkept : kept) : (transitionContract cfg).Keeping i kept s s' := by
  have hothers (j : ℕ) (hj : j ≠ i) : s'.stage j = .idle := (hmoves.stage j hj).trans (halone j hj)
  refine ⟨exclusive_of_only hothers (fun j hj => ?_) hi, fun j hj => ?_, hkept⟩
  · exact (hmoves.running j hj).trans (hs.not_running (halone j hj))
  · have hidle : s.stage j = .idle := halone j hj
    exact ⟨hmoves.stage j hj, hmoves.running j hj, hmoves.changed j hj, congrFun hmoves.seen j,
      fun hbusy => absurd hidle hbusy, fun hbusy => absurd hidle hbusy⟩

/-- The rule for an operation of the protocol: the others have decided on nothing, and what
is recorded of the thread itself holds afterwards. -/
theorem move_returns {call : HostCall} (hcall : ∀ task, call ≠ .startThread task)
    {P Q : World → Prop} (hP : ∀ s s', P s → Unmoved i s s' → P s')
    (h : ∀ s answer s', Exclusive s → P s → informed i s ⟨.host call, answer⟩ →
      transitionStep i s ⟨.host call, answer⟩ s' → (∃ value, answer = .ok value) ∧
        (∀ j, j ≠ i → s.stage j = .idle) ∧ Moves i s s' ∧ Recorded i s' ∧ Q s') :
    Returns cfg i P (Mgr.host call) Q := by
  refine Contract.triple_perform (C := transitionContract cfg)
    (fun s s' hs hrely _ => hP s s' hs hrely) ?_ ?_
  · rintro j s answer s' child ⟨-, -, task, hevent, -⟩
    have hop : Call.host call = .host (.startThread task) := congrArg Event.op hevent
    exact hcall task (Call.host.inj hop)
  · rintro s answer s' hinv hs ⟨hinformed, hstep⟩
    obtain ⟨⟨value, rfl⟩, halone, hmoves, hi, hQ⟩ := h s answer s' hinv hs hinformed hstep
    exact keeping_of_moves hinv halone hmoves hi hQ

theorem moves_setFlag (s : World) (active : Bool) : Moves i s (s.setFlag i active) where
  stage _ hj := Function.update_of_ne hj _ _
  running _ _ := rfl
  changed _ _ := rfl
  seen := rfl

theorem moves_setRole (s : World) (role : NodeRole) : Moves i s (s.setRole i role) where
  stage _ _ := rfl
  running _ _ := rfl
  changed _ hj := Function.update_of_ne hj _ _
  seen := rfl

theorem moves_attempt (s : World) (ts : Int) : Moves i s (s.attempt i ts) where
  stage _ hj := Function.update_of_ne hj _ _
  running _ _ := rfl
  changed _ _ := rfl
  seen := rfl

theorem moves_enter (s : World) (sequence : Sequence) : Moves i s (s.enter i sequence) where
  stage j hj := by
    unfold World.enter
    dsimp only
    split_ifs
    · exact Function.update_of_ne hj _ _
    · rfl
  running _ hj := Function.update_of_ne hj _ _
  changed _ hj := Function.update_of_ne hj _ _
  seen := rfl

theorem moves_leave (s : World) (sequence : Sequence) : Moves i s (s.leave i sequence) where
  stage j hj := by
    unfold World.leave
    dsimp only
    split_ifs
    · exact Function.update_of_ne hj _ _
    · rfl
  running _ hj := Function.update_of_ne hj _ _
  changed _ _ := rfl
  seen := rfl

theorem moves_setAttempts (s : World) (attempts : ℕ) :
    Moves i s (s.after i (.setAttempts attempts) (.ok ())) where
  stage _ _ := rfl
  running _ _ := rfl
  changed _ _ := rfl
  seen := Function.update_eq_self ..

/-! ### The flag -/

/-- Setting the flag is a decision, or follows one; clearing it ends a switchover. -/
theorem setFlag_returns (active : Bool) {stage : Stage} (hstage : active = false → stage ≠ .idle) :
    Returns cfg i (At i stage none) (Mgr.host (.setSwitchoverActive active))
      (At i (if active then .flagged else .idle) none) := by
  refine move_returns (by simp) own_at.unmoved ?_
  rintro s answer s' hinv ⟨hs, hnone⟩ hinformed ⟨rfl, rfl⟩
  have hothers (j : ℕ) (hj : j ≠ i) : s.stage j = .idle := by
    cases active with
    | true => exact request_alone hinformed j hj
    | false => exact hinv.others (hs ▸ hstage rfl) j hj
  have hself : (s.setFlag i active).stage i = if active then .flagged else .idle :=
    Function.update_self ..
  have hnone' : (s.setFlag i active).running i = none := hnone
  refine ⟨⟨(), rfl⟩, hothers, moves_setFlag s active, ?_, hself, hnone'⟩
  cases active with
  | true => constructor <;> simp [hnone, World.setFlag]
  | false => exact recorded_of_idle hself hnone'

/-! ### The sequences -/

/-- A failover that has been started, in its sequence or before it. -/
def Launched (i : ℕ) (running : Option Sequence) (s : World) : Prop :=
  At i .started running s ∧ s.role = .standby

theorem Launched.unmoved (s s' : World) (hs : Launched i running s) (h : Unmoved i s s') :
    Launched i running s' := by
  have hbusy : s.stage i ≠ .idle := by simp [hs.1.1]
  exact ⟨own_at.unmoved s s' hs.1 h, (h.role hbusy).trans hs.2⟩

/-- The sequence of a failover that has not recorded its attempt, and has at most counted it. -/
def Opened (i : ℕ) (counted : Bool) (s : World) : Prop :=
  Launched i (some .failover) s ∧ s.changed i = false ∧ (counted = true → s.daemon.attempts ≠ 0)

theorem own_opened {counted : Bool} : Own i (Opened i counted) where
  unmoved s s' hs h := by
    have hbusy : s.stage i ≠ .idle := by simp [hs.1.1.1]
    refine ⟨hs.1.unmoved s s' h, h.changed.trans hs.2.1, fun hcounted => ?_⟩
    rw [h.attempts hbusy]
    exact hs.2.2 hcounted
  plain s s' hs h := by
    refine ⟨⟨own_at.plain s s' hs.1.1 h, h.role.trans hs.1.2⟩, ?_, fun hcounted => ?_⟩
    · exact (congrFun h.changed i).trans hs.2.1
    · rw [h.attempts]
      exact hs.2.2 hcounted

theorem enter_failover : Returns cfg i (Launched i none) (Mgr.host (.mark (.enter .failover)))
    (Opened i false) := by
  refine move_returns (by simp) Launched.unmoved ?_
  rintro s answer s' hinv ⟨⟨hs, hnone⟩, hrole⟩ - ⟨rfl, rfl⟩
  have hself : (s.enter i .failover).stage i = .started := by simp [World.enter, hs]
  have hrunning : (s.enter i .failover).running i = some .failover := Function.update_self ..
  have hchanged : (s.enter i .failover).changed i = false := Function.update_self ..
  refine ⟨⟨(), rfl⟩, hinv.others (by simp [hs]), moves_enter s .failover, ?_, ?_⟩
  · constructor <;> simp [hself, hrunning]
  · exact ⟨⟨⟨hself, hrunning⟩, hrole⟩, hchanged, by simp⟩

theorem count_returns (attempts : ℕ) : Returns cfg i (Opened i false)
    (Mgr.host (.setAttempts (attempts + 1))) (Opened i true) := by
  refine move_returns (by simp) own_opened.unmoved ?_
  rintro s answer s' hinv ⟨⟨⟨hs, hrunning⟩, hrole⟩, hchanged, -⟩ - ⟨hanswer, rfl⟩
  obtain rfl : answer = .ok () := hanswer
  refine ⟨⟨(), rfl⟩, hinv.others (by simp [hs]), moves_setAttempts s (attempts + 1), ?_, ?_⟩
  · constructor <;> simp [World.after, hs, hrunning]
  · exact ⟨⟨⟨hs, hrunning⟩, hrole⟩, hchanged, by simp [World.after]⟩

/-- The attempt is on record. -/
theorem attempt_returns (ts : Int) : Returns cfg i (Opened i true)
    (Mgr.host (.setLastAttemptTs ts)) (At i .attempted (some .failover)) := by
  refine move_returns (by simp) own_opened.unmoved ?_
  rintro s answer s' hinv ⟨⟨⟨hs, hrunning⟩, hrole⟩, hchanged, hcounted⟩ - ⟨rfl, rfl⟩
  have hself : (s.attempt i ts).stage i = .attempted := Function.update_self ..
  have hrunning' : (s.attempt i ts).running i = some .failover := hrunning
  have hchanged' : (s.attempt i ts).changed i = false := hchanged
  refine ⟨⟨(), rfl⟩, hinv.others (by simp [hs]), moves_attempt s ts, ?_, hself, hrunning'⟩
  constructor <;> simp [hself, hrunning', hchanged']
  exact ⟨hrole, hcounted rfl⟩

/-- A switchover is entered with the flag set. -/
theorem enter_switchover {sequence : Sequence} (hsequence : sequence ≠ .selfDemotion) :
    Returns cfg i (At i .flagged none) (Mgr.host (.mark (.enter sequence)))
      (At i .flagged (some sequence)) := by
  refine move_returns (by simp) own_at.unmoved ?_
  rintro s answer s' hinv ⟨hs, hnone⟩ - ⟨rfl, rfl⟩
  have hself : (s.enter i sequence).stage i = .flagged := by simp [World.enter, hs, hsequence]
  have hrunning : (s.enter i sequence).running i = some sequence := Function.update_self ..
  have hflag : (s.enter i sequence).daemon.switchoverActive = true := (hinv.recorded i).flag hs
  refine ⟨⟨(), rfl⟩, hinv.others (by simp [hs]), moves_enter s sequence, ?_, hself, hrunning⟩
  constructor <;> simp [hself, hrunning, hflag]

/-- Entering a self-demotion is a decision. -/
theorem enter_demotion : Returns cfg 0 (Saw 0 Serving) (Mgr.host (.mark (.enter .selfDemotion)))
    (At 0 .demoting (some .selfDemotion)) := by
  refine move_returns (by simp) Saw.unmoved ?_
  rintro s answer s' hinv ⟨⟨hs, hnone⟩, hserving⟩ hinformed ⟨rfl, rfl⟩
  obtain ⟨hrole, halone⟩ := demotion_alone hinv hserving hinformed
  have hself : (s.enter 0 .selfDemotion).stage 0 = .demoting := by simp [World.enter]
  have hrunning : (s.enter 0 .selfDemotion).running 0 = some .selfDemotion := by
    simp [World.enter]
  have hrole' : (s.enter 0 .selfDemotion).role = .primary := hrole
  refine ⟨⟨(), rfl⟩, halone, moves_enter s .selfDemotion, ?_, hself, hrunning⟩
  constructor <;> simp [hself, hrunning, hrole']

/-- The role that a transition may set at a stage. -/
def Suits : Stage → NodeRole → Prop
  | .attempted, role => role = .primary
  | .demoting, role => role = .standby
  | .flagged, _ => True
  | _, _ => False

theorem setRole_returns {role : NodeRole} (hrole : Suits stage role) :
    Returns cfg i (At i stage running) (Mgr.host (.setRole role))
      fun s => At i stage running s ∧ s.changed i = true := by
  refine move_returns (by simp) own_at.unmoved ?_
  rintro s answer s' hinv ⟨rfl, rfl⟩ - ⟨rfl, rfl⟩
  have hrecorded : Recorded i s := hinv.recorded i
  have hbusy : s.stage i ≠ .idle := by
    intro hidle
    rw [hidle] at hrole
    exact hrole
  have hchanged : (s.setRole i role).changed i = true := Function.update_self ..
  refine ⟨⟨(), rfl⟩, hinv.others hbusy, moves_setRole s role, ?_, ⟨rfl, rfl⟩, hchanged⟩
  refine ⟨hrecorded.running, hrecorded.flag, hrecorded.switching, fun hstage => ?_,
    fun _ => .inl hchanged, hrecorded.mainLoop⟩
  have hattempted : s.stage i = .attempted := hstage
  rw [hattempted] at hrole
  rw [if_pos hchanged]
  exact hrole

/-- A failover that has promoted the node starts to count again. -/
theorem reset_returns : Returns cfg i
    (fun s => At i .attempted (some .failover) s ∧ s.changed i = true)
    (Mgr.host (.setAttempts 0)) (At i .attempted (some .failover)) := by
  refine move_returns (by simp) ?_ ?_
  · exact fun s s' hs h => ⟨own_at.unmoved s s' hs.1 h, h.changed.trans hs.2⟩
  · rintro s answer s' hinv ⟨⟨hs, hrunning⟩, hchanged⟩ - ⟨hanswer, rfl⟩
    obtain rfl : answer = .ok () := hanswer
    have hrecorded : Recorded i s := hinv.recorded i
    have hchanged' : (s.after i (.setAttempts 0) (.ok ())).changed i = true := hchanged
    refine ⟨⟨(), rfl⟩, hinv.others (by simp [hs]), moves_setAttempts s 0, ?_, hs, hrunning⟩
    refine ⟨hrecorded.running, hrecorded.flag, hrecorded.switching, fun _ => ?_,
      hrecorded.demoting, hrecorded.mainLoop⟩
    have hrole := hrecorded.failing hs
    rw [if_pos hchanged] at hrole
    rw [if_pos hchanged']
    exact hrole

/-- A failover or a self-demotion is over; a switchover still has to clear the flag. -/
theorem leave_returns {sequence : Sequence} (hstage : stage ≠ .idle)
    (hkept : sequence = .asPrimary ∨ sequence = .asStandby → stage = .flagged) :
    Returns cfg i (At i stage (some sequence)) (Mgr.host (.mark (.leave sequence)))
      (At i (if sequence = .failover ∨ sequence = .selfDemotion then .idle else .flagged)
        none) := by
  refine move_returns (by simp) own_at.unmoved ?_
  rintro s answer s' hinv ⟨rfl, hsome⟩ - ⟨rfl, rfl⟩
  have hrunning : (s.leave i sequence).running i = none := Function.update_self ..
  refine ⟨⟨(), rfl⟩, hinv.others hstage, moves_leave s sequence, ?_, ?_, hrunning⟩
  · by_cases hends : sequence = .failover ∨ sequence = .selfDemotion
    · exact recorded_of_idle (by simp [World.leave, hends]) hrunning
    · have hflagged : s.stage i = .flagged := hkept (by cases sequence <;> simp_all)
      have hself : (s.leave i sequence).stage i = .flagged := by simp [World.leave, hends, hflagged]
      have hflag : (s.leave i sequence).daemon.switchoverActive = true :=
        (hinv.recorded i).flag hflagged
      constructor <;> simp [hself, hrunning, hflag]
  · by_cases hends : sequence = .failover ∨ sequence = .selfDemotion
    · simp [World.leave, hends]
    · have hflagged : s.stage i = .flagged := hkept (by cases sequence <;> simp_all)
      simp [World.leave, hends, hflagged]

/-! ### Starting a thread -/

/-- A thread that is started takes the decision over. -/
theorem startThread_triple (stage : Stage) (task : Task) {P E : World → Prop}
    (hP : ∀ s s', P s → Unmoved i s s' → P s') (hat : ∀ s, P s → At i stage none s)
    (hstage : (if stage = .flagged then .flagged else .started) = stageOf task)
    (halone : ∀ s, Exclusive s → P s → informed i s ⟨.host (.startThread task), .ok ()⟩ →
      Fits s task ∧ ∀ j, j ≠ i → s.stage j = .idle) :
    Prog.Triple (during cfg i) P (Mgr.host (.startThread task)) (fun _ => At i .idle none) E := by
  apply Prog.Triple.perform
  intro s hs s₁ hrely hinv answer
  have hs : P s₁ := hP s s₁ hs hrely
  refine ⟨fun s₂ hstep => hstep.2.elim, ?_⟩
  rintro j s₂ child ⟨hinformed, -, task', hevent, rfl, rfl⟩ hj
  cases hevent
  -- the decision goes from thread `i` to the new thread, and no other one has decided
  obtain ⟨hfits, hothers⟩ := halone s₁ hinv hs hinformed
  obtain ⟨hs₁, hnone⟩ : At i stage none s₁ := hat s₁ hs
  have hrunning (l : ℕ) : s₁.running l = none := by
    by_cases hl : l = i
    · rw [hl, hnone]
    · exact Exclusive.not_running hinv (hothers l hl)
  have hchild : (s₁.start i j).stage j = stageOf task := by
    rw [← hstage, ← hs₁]
    exact Function.update_self ..
  have hself : (s₁.start i j).stage i = .idle :=
    (Function.update_of_ne hj.symm _ _).trans (Function.update_self ..)
  have hothers' (l : ℕ) (hl : l ≠ j) (hli : l ≠ i) : (s₁.start i j).stage l = s₁.stage l :=
    (Function.update_of_ne hl _ _).trans (Function.update_of_ne hli _ _)
  refine ⟨exclusive_of_only (i := j) ?_ ?_ ?_, ?_, ?_, ?_⟩
  · intro l hl
    by_cases hli : l = i
    · rw [hli, hself]
    · rw [hothers' l hl hli, hothers l hli]
  · exact fun l _ => hrunning l
  · have hnone' : (s₁.start i j).running j = none := hrunning j
    by_cases hflagged : stage = .flagged
    · have hflag : (s₁.start i j).daemon.switchoverActive = true :=
        (Exclusive.recorded hinv i).flag (hs₁.trans hflagged)
      rw [← hstage, if_pos hflagged] at hchild
      constructor <;> simp [hchild, hnone', hflag]
    · rw [← hstage, if_neg hflagged] at hchild
      constructor <;> simp [hchild, hnone']
  · exact fun l hl hlj => ⟨hothers' l hlj hl, rfl, rfl, rfl, fun _ => rfl, fun _ => rfl⟩
  · refine .inr ⟨task, rfl, ⟨hchild, hrunning j⟩, ?_⟩
    cases task with
    | runFailover skipFence => exact hfits
    | _ => trivial
  · exact ⟨hself, hnone⟩

/-! ## The sequences -/

/-- A sequence from its first to its last log line, however it ends. -/
theorem inSequence_triple {α : Type} {sequence : Sequence} {P R Q : World → Prop}
    {body : Mgr α} (henter : Returns cfg i P (Mgr.host (.mark (.enter sequence))) R)
    (hbody : Prog.Triple (during cfg i) R body (fun _ => At i stage (some sequence))
      (At i stage (some sequence)))
    (hleave : Returns cfg i (At i stage (some sequence)) (Mgr.host (.mark (.leave sequence))) Q) :
    Prog.Triple (during cfg i) P (inSequence sequence body) (fun _ => Q) Q := by
  apply henter.triple.bind during_monotone
  intro _
  exact Prog.Triple.ensuring during_monotone hbody hleave.triple

/-- The operations of a transition, which sets the roles that suit it. -/
def steady (stage : Stage) (op : Call) : Prop :=
  plain op ∨ ∃ role, Suits stage role ∧ op = .host (.setRole role)

theorem keeps_of_steady {α : Type} {program : Mgr α} (hcalls : program.Calls (steady stage)) :
    Prog.Keeps (during cfg i) (At i stage running) program := by
  refine .of_calls during_monotone (fun op hop s hs => ?_) hcalls
  have hkeeps : Prog.Keeps (during cfg i) (At i stage running) (Prog.perform op) := by
    rcases hop with hplain | ⟨role, hsuits, rfl⟩
    · exact perform_keeps own_at op hplain
    · have hset : Returns cfg i (At i stage running) (Mgr.host (.setRole role))
          fun s => At i stage running s ∧ s.changed i = true := setRole_returns hsuits
      exact hset.conseq during_monotone (fun _ => id) (fun _ _ h => h.1) fun _ => False.elim
  have hperformed := hkeeps s hs
  rw [Prog.wp_perform] at hperformed
  refine during_monotone _ _ _ s (fun answer s' hend => ?_) hperformed
  cases answer <;> exact hend

theorem steady_of_working {op : Call} (hsuits : Suits stage .primary) (h : op.working) :
    steady stage op := by
  cases op with
  | host call =>
      cases call
      case setRole role => exact .inr ⟨.primary, hsuits, by rw [show role = .primary from h]⟩
      all_goals first | exact h.elim | exact .inl trivial
  | _ => exact .inl trivial

theorem steady_of_handing {op : Call} (hsuits : Suits stage .standby)
    (h : SwitchoverEngine.Handing op) : steady stage op := by
  cases op with
  | host call =>
      cases call
      case setRole role => exact .inr ⟨.standby, hsuits, by rw [show role = .standby from h]⟩
      all_goals first | exact h.elim | exact .inl trivial
  | _ => exact .inl trivial

theorem emit_plain (eventType : HaEventType) (message : String) :
    (emit cfg eventType message).Calls plain := emit_calls (fun _ => trivial) _ _

/-! ### The failover -/

/-- The last step makes the node the primary. -/
theorem stepPromote_triple : Prog.Triple (during cfg i) (At i .attempted (some .failover))
    (FailoverEngine.stepPromote cfg)
    (fun _ s => At i .attempted (some .failover) s ∧ s.changed i = true)
    (At i .attempted (some .failover)) := by
  have hown : Own i fun s => At i .attempted (some .failover) s ∧ s.changed i = true := by
    constructor
    · exact fun s s' hs h => ⟨own_at.unmoved s s' hs.1 h, h.changed.trans hs.2⟩
    · exact fun s s' hs h => ⟨own_at.plain s s' hs.1 h, (congrFun h.changed i).trans hs.2⟩
  have hprimary : Returns cfg i (At i .attempted (some .failover)) (Mgr.host (.setRole .primary))
      fun s => At i .attempted (some .failover) s ∧ s.changed i = true := setRole_returns rfl
  apply hprimary.triple.bind during_monotone
  intro _
  have hrest : Prog.Keeps (during cfg i)
      (fun s => At i .attempted (some .failover) s ∧ s.changed i = true) (do
        Mgr.host (.setHealth .healthy)
        emit cfg .roleChanged s!"{cfg.cluster.nodeName} promoted to PRIMARY") :=
    keeps_of_plain hown (.perform_bind trivial fun _ => emit_plain _ _)
  exact hrest.conseq during_monotone (fun _ => id) (fun _ _ => id) fun _ h => h.1

/-- A failover whose steps have all been done has promoted the node. -/
theorem runSteps_triple (skipFence : Bool) {steps : List (StepName × Mgr Unit)}
    (hsteps : ∀ step ∈ steps, step.2.Calls Call.working) :
    Prog.Triple (during cfg i) (At i .attempted (some .failover))
      (FailoverEngine.runSteps cfg skipFence
        (steps ++ [(.promote, FailoverEngine.stepPromote cfg)]))
      (fun succeeded s => At i .attempted (some .failover) s ∧
        (succeeded = true → s.changed i = true)) (At i .attempted (some .failover)) := by
  have hmark (name : StepName) : Prog.Keeps (during cfg i) (At i .attempted (some .failover))
      (Mgr.host (.mark (.step name))) := perform_keeps own_at (.host (.mark (.step name))) trivial
  -- a step that raises ends the failover, and has promoted nothing
  have hfailed (message : String) : Prog.Triple (during cfg i) (At i .attempted (some .failover))
      (do
        Mgr.host (.setHealth .failed)
        emit cfg .failoverFailed message
        pure false)
      (fun succeeded s => At i .attempted (some .failover) s ∧
        (succeeded = true → s.changed i = true)) (At i .attempted (some .failover)) := by
    apply (perform_keeps own_at (.host (.setHealth .failed)) trivial).bind during_monotone
    intro _
    apply (keeps_of_plain own_at (emit_plain _ _)).bind during_monotone
    exact fun _ => .pure fun s hs => ⟨hs, by simp⟩
  induction steps with
  -- PROMOTE is the last step, and is skipped by no failover
  | nil =>
      apply Prog.Triple.ite fun h => absurd h (by simp [FailoverEngine.skipped])
      intro _
      apply (hmark .promote).bind during_monotone
      intro _
      apply (stepPromote_triple.attempt during_monotone).bind during_monotone
      intro result
      cases result with
      | ok _ => exact .pure fun s hs => ⟨hs.1, fun _ => hs.2⟩
      | error exc => exact hfailed _
  | cons step rest ih =>
      have hrest := ih fun step hstep => hsteps step (List.mem_cons_of_mem _ hstep)
      apply Prog.Triple.ite fun _ => hrest
      intro _
      apply (hmark step.1).bind during_monotone
      intro _
      have hstep : step.2.Calls (steady .attempted) :=
        (hsteps step List.mem_cons_self).mono fun _ => steady_of_working rfl
      apply ((keeps_of_steady hstep).attempted during_monotone).bind during_monotone
      intro result
      cases result with
      | ok _ => exact hrest
      | error exc => exact hfailed _

theorem execute_triple (skipFence : Bool) : Prog.Triple (during cfg i) (Launched i none)
    (FailoverEngine.execute cfg skipFence) (fun _ => At i .idle none) (At i .idle none) := by
  have hleave : Returns cfg i (At i .attempted (some .failover))
      (Mgr.host (.mark (.leave .failover))) (At i .idle none) :=
    leave_returns (by simp) (by simp)
  refine inSequence_triple enter_failover ?_ hleave
  -- until the attempt is on record nothing raises
  have hattempts : Prog.Triple (during cfg i) (Opened i false) (Mgr.host .attempts)
      (fun _ => Opened i false) (At i .attempted (some .failover)) :=
    (returns_of_plain own_opened (.host .attempts) trivial
      fun _ _ _ hstep => ⟨_, hstep.1⟩).triple
  apply hattempts.bind during_monotone
  intro attempts
  apply (count_returns attempts).triple.bind during_monotone
  intro _
  have hclock : Prog.Triple (during cfg i) (Opened i true) (Mgr.host .monotonic)
      (fun _ => Opened i true) (At i .attempted (some .failover)) :=
    (returns_of_plain own_opened (.host .monotonic) trivial fun _ _ _ hstep => hstep.1).triple
  apply hclock.bind during_monotone
  intro now
  apply (attempt_returns now).triple.bind during_monotone
  intro _
  apply (perform_keeps own_at (.host .attempts) trivial).bind during_monotone
  intro current
  apply (keeps_of_plain own_at (emit_plain _ _)).bind during_monotone
  intro _
  have hsteps : Prog.Triple (during cfg i) (At i .attempted (some .failover))
      (FailoverEngine.runSteps cfg skipFence (FailoverEngine.steps cfg))
      (fun succeeded s => At i .attempted (some .failover) s ∧
        (succeeded = true → s.changed i = true)) (At i .attempted (some .failover)) := by
    have hsteps : ∀ step ∈ (FailoverEngine.steps cfg).dropLast, step.2.Calls Call.working :=
      fun step hstep => FailoverEngine.steps_working cfg step (List.dropLast_subset _ hstep)
    exact runSteps_triple skipFence hsteps
  apply hsteps.bind during_monotone
  intro succeeded
  apply Prog.Triple.ite
  · intro hsucceeded
    have hreset : Prog.Triple (during cfg i)
        (fun s => At i .attempted (some .failover) s ∧ (succeeded = true → s.changed i = true))
        (Mgr.host (.setAttempts 0)) (fun _ => At i .attempted (some .failover))
        (At i .attempted (some .failover)) :=
      reset_returns.conseq during_monotone (fun s hs => ⟨hs.1, hs.2 hsucceeded⟩) (fun _ _ => id)
        fun _ => False.elim
    apply hreset.bind during_monotone
    intro _
    apply (keeps_of_plain own_at (emit_plain _ _)).bind during_monotone
    exact fun _ => .pure fun _ => id
  · exact fun _ => .pure fun s hs => hs.1

theorem runFailover_triple (skipFence : Bool) : Prog.Triple (during cfg i) (Launched i none)
    (PgHaDaemon.runFailover cfg skipFence) (fun _ => At i .idle none) (At i .idle none) := by
  apply (execute_triple skipFence).bind during_monotone
  intro promoted
  apply keeps_of_plain own_at
  exact .ite (PgHaDaemon.efmStart_calls cfg fun _ => trivial) trivial

/-! ### The switchover -/

theorem isPrimary_plain : LocalNode.isPrimary.Calls plain := .perform_bind trivial fun _ => trivial

theorem isStandby_plain : LocalNode.isStandby.Calls plain := .perform_bind trivial fun _ => trivial

/-- A switchover from its first to its last log line, with the flag set. -/
theorem switchover_triple {α : Type} {sequence : Sequence}
    (hsequence : ¬ (sequence = .failover ∨ sequence = .selfDemotion)) {body : Mgr α}
    (hbody : body.Calls (steady .flagged)) :
    Prog.Keeps (during cfg i) (At i .flagged none) (inSequence sequence body) := by
  have henter : Returns cfg i (At i .flagged none) (Mgr.host (.mark (.enter sequence)))
      (At i .flagged (some sequence)) := enter_switchover fun h => hsequence (.inr h)
  have hleave : Returns cfg i (At i .flagged (some sequence)) (Mgr.host (.mark (.leave sequence)))
      (At i .flagged none) := by
    have hleave : Returns cfg i (At i .flagged (some sequence)) (Mgr.host (.mark (.leave sequence)))
        (At i (if sequence = .failover ∨ sequence = .selfDemotion then .idle else .flagged) none) :=
      leave_returns (by simp) fun _ => rfl
    rwa [if_neg hsequence] at hleave
  exact inSequence_triple henter (keeps_of_steady hbody) hleave

/-- A sequence that is not entered leaves the thread where it is. -/
theorem executeAsPrimary_keeps :
    Prog.Keeps (during cfg i) (At i .flagged none) (SwitchoverEngine.executeAsPrimary cfg) := by
  apply (keeps_of_plain own_at isPrimary_plain).bind during_monotone
  intro primary
  apply Prog.Triple.ite
  · exact fun _ => Prog.keeps_pure _
  · intro _
    have hemit (eventType : HaEventType) (message : String) :
        (emit cfg eventType message).Calls (steady .flagged) :=
      (emit_plain eventType message).mono fun _ => .inl
    apply switchover_triple (by simp)
    refine .bind (hemit _ _) fun _ => .bind ?_ fun succeeded => ?_
    · exact SwitchoverEngine.runPrimarySteps_calls cfg (fun _ => .inl trivial)
        (fun _ _ => .inl trivial) fun step hstep =>
          (SwitchoverEngine.primarySteps_handing cfg step hstep).mono fun _ =>
            steady_of_handing trivial
    · exact .ite (.bind (hemit _ _) fun _ => trivial) trivial

theorem executeAsStandby_keeps :
    Prog.Keeps (during cfg i) (At i .flagged none) (SwitchoverEngine.executeAsStandby cfg) := by
  apply (keeps_of_plain own_at isStandby_plain).bind during_monotone
  intro standby
  apply Prog.Triple.ite
  · exact fun _ => Prog.keeps_pure _
  · intro _
    apply switchover_triple (by simp)
    refine .bind ?_ fun succeeded => ?_
    · apply SwitchoverEngine.runStandbySteps_calls cfg (fun _ => .inl trivial)
        (fun _ => .inl trivial)
      · exact fun name => (SwitchoverEngine.undo_working name).mono fun _ =>
          steady_of_working trivial
      · exact fun step hstep => (SwitchoverEngine.standbySteps_working cfg step hstep).mono
          fun _ => steady_of_working trivial
    · refine .ite (.bind ?_ fun _ => trivial) trivial
      exact (emit_plain _ _).mono fun _ => .inl

/-! ## The threads that run a transition -/

/-- Stopping the service does not raise. -/
theorem efmStop_returns :
    Returns cfg i (At i stage running) (PgHaDaemon.efmStop cfg) (At i stage running) := by
  have hrun (verb : List String) :
      (Mgr.host (.run (.systemctl verb cfg.efm.serviceName))).Calls plain :=
    Prog.Calls.perform trivial
  apply Prog.Triple.ite
  · intro _
    apply ((keeps_of_plain own_at (hrun ["stop"])).attempted during_monotone).bind
      during_monotone
    intro _
    have hkill : Prog.Calls plain (do
        let result ← Mgr.host (.run (.systemctl ["is-active"] cfg.efm.serviceName))
        if strip result.stdout = "active" then
          let _ ← Mgr.host (.run (.systemctl ["kill", "-s", "SIGKILL"] cfg.efm.serviceName))
          pure ()) :=
      .bind (hrun _) fun result => .ite (.bind (hrun _) fun _ => trivial) trivial
    apply ((keeps_of_plain own_at hkill).attempted during_monotone).bind during_monotone
    exact fun _ => .pure fun _ => id
  · exact fun _ => .pure fun _ => id

/-- The flag is cleared however the switchover ends. -/
theorem runSwitchover_triple : Prog.Triple (during cfg i) (At i .started none)
    (PgHaDaemon.runSwitchover cfg) (fun _ => At i .idle none) (At i .idle none) := by
  apply (setFlag_returns true (by simp)).triple.bind during_monotone
  intro _
  have hmonitor : Returns cfg i (At i .flagged none) (Mgr.host (.pgMonSetActive false))
      (At i .flagged none) :=
    returns_of_plain own_at (.host (.pgMonSetActive false)) trivial
      fun _ _ _ hstep => ⟨(), hstep.1⟩
  apply hmonitor.triple.bind during_monotone
  intro _
  apply efmStop_returns.triple.bind during_monotone
  intro _
  -- the `finally` reads the clock and clears the flag, whatever has happened
  refine Prog.Triple.ensuring during_monotone (R := At i .flagged none) ?_ ?_
  · apply executeAsPrimary_keeps.bind during_monotone
    exact fun _ => Prog.keeps_pure _
  · have htime : Returns cfg i (At i .flagged none) (Mgr.host .time) (At i .flagged none) :=
      returns_of_plain own_at (.host .time) trivial fun _ _ _ hstep => hstep.1
    apply htime.triple.bind during_monotone
    intro now
    have hdemotion : Returns cfg i (At i .flagged none) (Mgr.host (.setLastDemotionTs now))
        (At i .flagged none) :=
      returns_of_plain own_at (.host (.setLastDemotionTs now)) trivial
        fun _ _ _ hstep => ⟨(), hstep.1⟩
    apply hdemotion.triple.bind during_monotone
    exact fun _ => (setFlag_returns false (by simp)).triple

theorem runSwitchoverAsStandby_triple : Prog.Triple (during cfg i) (At i .flagged none)
    (PgHaDaemon.runSwitchoverAsStandby cfg) (fun _ => At i .idle none) (At i .idle none) := by
  refine Prog.Triple.ensuring during_monotone (R := At i .flagged none) ?_
    (setFlag_returns false (by simp)).triple
  apply executeAsStandby_keeps.bind during_monotone
  intro promoted
  apply keeps_of_plain own_at
  exact .ite (PgHaDaemon.efmStart_calls cfg fun _ => trivial) trivial

theorem taskBody_triple (task : Task) : Prog.Triple (during cfg i)
    (fun s => At i (stageOf task) none s ∧ Fits s task) (PgHaDaemon.taskBody cfg task)
    (fun _ => At i .idle none) (At i .idle none) := by
  cases task with
  | runFailover skipFence => exact runFailover_triple skipFence
  | runSwitchover => exact fun s hs => runSwitchover_triple s hs.1
  | runSwitchoverAsStandby => exact fun s hs => runSwitchoverAsStandby_triple s hs.1

/-! ## The threads that decide -/

theorem isMaintenance_plain : (PgHaDaemon.isMaintenance cfg).Calls plain :=
  Prog.Calls.perform trivial

/-- A check of the role, for a thread that knows `f` already. -/
theorem isStandby_triple {f : Records → Prop}
    (hrole : ∀ seen role, f seen → f { seen with role := role }) :
    Prog.Triple (during cfg i) (Saw i f) LocalNode.isStandby
      (fun standby => Saw i fun seen => f seen ∧ (standby = true → seen.role = .standby))
      (At i .idle none) := by
  have hread : Prog.Triple (during cfg i) (Saw i f) (Mgr.host .role)
      (fun role => Saw i fun seen => f seen ∧ seen.role = role) (At i .idle none) :=
    look_triple .role trivial fun seen role hf => ⟨hrole seen role hf, rfl⟩
  apply hread.bind during_monotone
  intro role
  refine .pure fun s hs => ⟨hs.1, hs.2.1, fun hstandby => ?_⟩
  exact hs.2.2.trans (by simpa using hstandby)

theorem isPrimary_triple {f : Records → Prop}
    (hrole : ∀ seen role, f seen → f { seen with role := role }) :
    Prog.Triple (during cfg i) (Saw i f) LocalNode.isPrimary
      (fun primary => Saw i fun seen => f seen ∧ (primary = true → seen.role = .primary))
      (At i .idle none) := by
  have hread : Prog.Triple (during cfg i) (Saw i f) (Mgr.host .role)
      (fun role => Saw i fun seen => f seen ∧ seen.role = role) (At i .idle none) :=
    look_triple .role trivial fun seen role hf => ⟨hrole seen role hf, rfl⟩
  apply hread.bind during_monotone
  intro role
  refine .pure fun s hs => ⟨hs.1, hs.2.1, fun hprimary => ?_⟩
  exact hs.2.2.trans (by simpa using hprimary)

theorem switchoverActive_triple {f : Records → Prop}
    (hflag : ∀ seen active, f seen → f { seen with active := active }) :
    Prog.Triple (during cfg i) (Saw i f) (Mgr.host .switchoverActive)
      (fun active => Saw i fun seen => f seen ∧ seen.active = active) (At i .idle none) :=
  look_triple .switchoverActive trivial fun seen active hf => ⟨hflag seen active hf, rfl⟩

/-- A first look at the flag. -/
theorem flag_triple : Prog.Triple (during cfg i) (At i .idle none) (Mgr.host .switchoverActive)
    (fun active => Saw i fun seen => seen.active = active) (At i .idle none) :=
  of_saw (look_triple .switchoverActive trivial fun _ _ _ => rfl)

theorem isMaintenance_keeps {f : Records → Prop} :
    Prog.Triple (during cfg i) (Saw i f) (PgHaDaemon.isMaintenance cfg) (fun _ => Saw i f)
      (At i .idle none) :=
  look_keeps (.isfile cfg.cluster.maintenanceFile) trivial fun _ _ => rfl

/-- What a thread knows of the flag before it checks whether to fail over. -/
def Aware (skipFence : Bool) (seen : Records) : Prop := skipFence = true → seen.active = false

/-- The engine's check, by which a failover is started. -/
theorem shouldAttempt_triple (skipFence : Bool) :
    Prog.Triple (during cfg i) (Saw i (Aware skipFence)) FailoverEngine.shouldAttempt
      (fun permitted => Saw i fun seen => permitted = true → Ready skipFence seen)
      (At i .idle none) := by
  have hrefused {f : Records → Prop} : Prog.Triple (during cfg i) (Saw i f)
      (.pure false : Mgr Bool)
      (fun permitted => Saw i fun seen => permitted = true → Ready skipFence seen)
      (At i .idle none) := .pure fun s hs => ⟨hs.1, by simp⟩
  -- each look adds what it has found to what the thread has seen
  apply (isStandby_triple fun _ _ => id).bind during_monotone
  intro standby
  apply Prog.Triple.ite fun _ => hrefused
  intro hstandby
  have hstandby : standby = true := by simpa using hstandby
  have hattempts : Prog.Triple (during cfg i)
      (Saw i fun seen => Aware skipFence seen ∧ (standby = true → seen.role = .standby))
      (Mgr.host .attempts)
      (fun attempts => Saw i fun seen => Aware skipFence seen ∧ seen.role = .standby ∧
        seen.attempts = attempts) (At i .idle none) :=
    look_triple .attempts trivial fun seen attempts hf => ⟨hf.1, hf.2 hstandby, rfl⟩
  apply hattempts.bind during_monotone
  intro attempts
  apply Prog.Triple.ite fun _ => hrefused
  intro _
  have hclock : Prog.Triple (during cfg i)
      (Saw i fun seen => Aware skipFence seen ∧ seen.role = .standby ∧ seen.attempts = attempts)
      (Mgr.host .monotonic)
      (fun now => Saw i fun seen => Aware skipFence seen ∧ seen.role = .standby ∧
        seen.attempts = attempts ∧ seen.now = now) (At i .idle none) :=
    look_triple .monotonic trivial fun seen now hf => ⟨hf.1, hf.2.1, hf.2.2, rfl⟩
  apply hclock.bind during_monotone
  intro now
  have hlast : Prog.Triple (during cfg i)
      (Saw i fun seen => Aware skipFence seen ∧ seen.role = .standby ∧
        seen.attempts = attempts ∧ seen.now = now) (Mgr.host .lastAttemptTs)
      (fun lastAttempt => Saw i fun seen => Aware skipFence seen ∧ seen.role = .standby ∧
        seen.attempts = attempts ∧ seen.now = now ∧ seen.lastAttempt = lastAttempt)
      (At i .idle none) :=
    look_triple .lastAttemptTs trivial fun seen lastAttempt hf =>
      ⟨hf.1, hf.2.1, hf.2.2.1, hf.2.2.2, rfl⟩
  apply hlast.bind during_monotone
  intro lastAttempt
  refine .pure fun s ⟨hat, haware, hrole, hattempts, hnow, hlast⟩ => ⟨hat, fun hpermitted => ?_⟩
  refine ⟨hrole, haware, ?_⟩
  rw [hattempts, hnow, hlast]
  -- the back-off applies only where an attempt is on record
  by_cases hfirst : attempts = 0
  · exact .inl hfirst
  · have hlate : ¬ now - lastAttempt < FailoverEngine.retryBackoffMillis := by
      simpa [Nat.pos_of_ne_zero hfirst] using hpermitted
    exact .inr (Int.not_lt.mp hlate)

/-- A failover is started when the engine says that it may be attempted. -/
theorem attempt_triple (skipFence : Bool) :
    Prog.Triple (during cfg i) (Saw i (Aware skipFence)) (do
        if ← FailoverEngine.shouldAttempt then
          Mgr.host (.startThread (.runFailover skipFence)))
      (fun _ => At i .idle none) (At i .idle none) := by
  apply (shouldAttempt_triple skipFence).bind during_monotone
  intro permitted
  apply Prog.Triple.ite
  · intro hpermitted
    apply startThread_triple .idle _ Saw.unmoved at_of_saw rfl
    exact fun s hinv hs hinformed => failover_alone hinv (hs.2 hpermitted) hinformed
  · exact fun _ => declines

theorem release_keeps : Prog.Keeps (during cfg i) (At i .idle none)
    (Mgr.host .releaseFailoverLock) := perform_keeps own_at (.host .releaseFailoverLock) trivial

theorem withFailoverLock_triple {f : Records → Prop} {body : Mgr Unit}
    (hbody : Prog.Triple (during cfg i) (Saw i f) body (fun _ => At i .idle none)
      (At i .idle none)) :
    Prog.Triple (during cfg i) (Saw i f) (PgHaDaemon.withFailoverLock body)
      (fun _ => At i .idle none) (At i .idle none) := by
  apply (look_keeps (.acquireFailoverLock true) trivial fun _ _ => rfl).bind
    during_monotone
  exact fun _ => .ensuring during_monotone hbody release_keeps

/-! ### The main loop -/

/-- The reaction to PEER_DEAD does not look at the flag. -/
theorem handleEvent_keeps (evt : HaEvent) :
    Prog.Keeps (during cfg i) (At i .idle none) (PgHaDaemon.handleEvent cfg evt) := by
  apply Prog.Triple.ite _ fun _ => Prog.keeps_pure _
  intro _
  apply (keeps_of_plain own_at isStandby_plain).bind during_monotone
  intro standby
  apply Prog.Triple.ite _ fun _ => Prog.keeps_pure _
  intro _
  apply (keeps_of_plain own_at isMaintenance_plain).bind during_monotone
  intro maintenance
  apply Prog.Triple.ite fun _ => Prog.keeps_pure _
  intro _
  have hlocked : Prog.Triple (during cfg i) (Saw i (Aware false)) (PgHaDaemon.withFailoverLock do
      if ← FailoverEngine.shouldAttempt then
        Mgr.host (.startThread (.runFailover false))) (fun _ => At i .idle none)
      (At i .idle none) := withFailoverLock_triple (attempt_triple false)
  exact hlocked.conseq during_monotone (fun s hs => ⟨hs, by simp [Aware]⟩) (fun _ _ => id)
    fun _ => id

theorem drainEvents_keeps (fuel : ℕ) :
    Prog.Keeps (during cfg i) (At i .idle none) (PgHaDaemon.drainEvents cfg fuel) := by
  induction fuel with
  | zero => exact fun _ _ => trivial
  | succ fuel ih =>
      have hevent : Prog.Keeps (during cfg i) (At i .idle none) (Mgr.host .getEvent) :=
        perform_keeps own_at (.host .getEvent) trivial
      apply (hevent.attempted during_monotone).bind during_monotone
      intro result
      cases result with
      | ok evt => exact (handleEvent_keeps evt).bind during_monotone fun _ => ih
      | error exc => exact .ite (fun _ => Prog.keeps_pure _) fun _ => Prog.keeps_raise _

/-- The demotion itself decides nothing more, and gives up the role. -/
theorem demotion_keeps : Prog.Keeps (during cfg 0) (At 0 .demoting (some .selfDemotion)) (do
    PgHaDaemon.efmStop cfg
    PgHaDaemon.bestEffort (PgHaDaemon.demotionActions cfg)
    Mgr.host (.setRole .standby)
    Mgr.host (.setDiskState .detached)
    Mgr.host (.setPgState .stopped)
    Mgr.host (.setHealth .healthy)
    Mgr.host (.pgMonSetActive false)
    let now ← Mgr.host .time
    Mgr.host (.setLastDemotionTs now)
    let _ ← (PgHaDaemon.sendPgFailHandoff cfg).attempt
    pure ()) := by
  have hdone (op : Call) (hop : plain op) : steady .demoting op := .inl hop
  -- releasing the resources neither decides nor records anything
  have hactions : (PgHaDaemon.bestEffort (PgHaDaemon.demotionActions cfg)).Calls
      (steady .demoting) := by
    refine PgHaDaemon.bestEffort_calls fun action haction => ?_
    simp only [PgHaDaemon.demotionActions, List.mem_cons, List.not_mem_nil, or_false] at haction
    rcases haction with rfl | rfl | rfl | rfl | rfl <;> exact Prog.Calls.perform (hdone _ trivial)
  have hsignal : (PgHaDaemon.sendPgFailHandoff cfg).Calls (steady .demoting) := by
    refine .bind ?_ fun resp => .bind (Prog.calls_ofExcept _) fun _ => trivial
    exact .perform_bind (hdone _ trivial) fun _ => .perform_bind (hdone _ trivial) fun _ =>
      Prog.Calls.perform (hdone _ trivial)
  have hrole : steady .demoting (.host (.setRole .standby)) := .inr ⟨.standby, rfl, rfl⟩
  apply keeps_of_steady
  refine .bind (PgHaDaemon.efmStop_calls cfg fun _ => hdone _ trivial) fun _ =>
    .bind hactions fun _ => .perform_bind hrole fun _ => ?_
  exact .perform_bind (hdone _ trivial) fun _ => .perform_bind (hdone _ trivial) fun _ =>
    .perform_bind (hdone _ trivial) fun _ => .perform_bind (hdone _ trivial) fun _ =>
    .perform_bind (hdone _ trivial) fun now => .perform_bind (hdone _ trivial) fun _ =>
    .bind hsignal.attempt fun _ => trivial

/-- A self-demotion is decided on and run by the same thread. -/
theorem selfDemoteAfterPgFailure_triple : Prog.Triple (during cfg 0)
    (Saw 0 fun seen => seen.active = false) (PgHaDaemon.selfDemoteAfterPgFailure cfg)
    (fun _ => At 0 .idle none) (At 0 .idle none) := by
  apply (isPrimary_triple fun _ _ => id).bind during_monotone
  intro primary
  apply Prog.Triple.ite
  · exact fun _ => declines
  · intro hfound
    have hfound : primary = true := by simpa using hfound
    have hleave : Returns cfg 0 (At 0 .demoting (some .selfDemotion))
        (Mgr.host (.mark (.leave .selfDemotion))) (At 0 .idle none) :=
      leave_returns (by simp) (by simp)
    -- the main loop has found PRIMARY, and the flag clear
    have hsequence := inSequence_triple enter_demotion demotion_keeps hleave
    exact hsequence.conseq during_monotone (fun s hs => ⟨hs.1, hs.2.2 hfound, hs.2.1⟩)
      (fun _ _ => id) fun _ => id

theorem handlePgFailure_keeps :
    Prog.Keeps (during cfg 0) (At 0 .idle none) (PgHaDaemon.handlePgFailure cfg) := by
  apply (perform_keeps own_at (.host .pgMonConsecutiveFailures) trivial).bind during_monotone
  intro failures
  apply Prog.Triple.ite _ fun _ => Prog.keeps_pure _
  intro _
  apply (keeps_of_plain own_at isPrimary_plain).bind during_monotone
  intro primary
  apply Prog.Triple.ite _ fun _ => Prog.keeps_pure _
  intro _
  apply flag_triple.bind during_monotone
  intro active
  apply Prog.Triple.ite _ fun _ => declines
  intro hinactive
  -- what the demotion relies on, from here to its start
  obtain rfl : active = false := by simpa using hinactive
  apply isMaintenance_keeps.bind during_monotone
  intro maintenance
  apply Prog.Triple.ite fun _ => declines
  intro _
  have hhealth : Prog.Triple (during cfg 0) (Saw 0 fun seen => seen.active = false)
      (Mgr.host (.setHealth .failed)) (fun _ => Saw 0 fun seen => seen.active = false)
      (At 0 .idle none) := look_keeps (.setHealth .failed) trivial fun _ _ => rfl
  apply hhealth.bind during_monotone
  exact fun _ => selfDemoteAfterPgFailure_triple

theorem refreshState_keeps :
    Prog.Keeps (during cfg 0) (At 0 .idle none) (PgHaDaemon.refreshState cfg) := by
  apply (keeps_of_plain own_at isPrimary_plain).bind during_monotone
  intro primary
  apply (perform_keeps own_at (.host (.pgMonSetActive primary)) trivial).bind during_monotone
  intro _
  apply (perform_keeps own_at (.host .pgMonSnapshot) trivial).bind during_monotone
  intro pgSnap
  apply (perform_keeps own_at (.host .osMonSnapshot) trivial).bind during_monotone
  intro osSnap
  -- the snapshot of the operating system decides nothing
  have hdegraded : Prog.Keeps (during cfg 0) (At 0 .idle none)
      (PgHaDaemon.noteOsSnapshot osSnap) := by
    apply keeps_of_plain own_at
    cases osSnap with
    | some snap => exact .ite (Prog.Calls.perform trivial) trivial
    | none => trivial
  cases pgSnap with
  | none => exact hdegraded
  | some snap =>
      apply (perform_keeps own_at (.host (.setPgState snap.state)) trivial).bind during_monotone
      intro _
      apply Prog.Triple.ite
      · intro _
        exact handlePgFailure_keeps.bind during_monotone fun _ => hdegraded
      · intro _
        apply (perform_keeps own_at (.host .health) trivial).bind during_monotone
        intro health
        apply Prog.Triple.ite _ fun _ => hdegraded
        intro _
        apply (perform_keeps own_at (.host (.setHealth .healthy)) trivial).bind during_monotone
        exact fun _ => hdegraded

/-- The fallback goes on only if it has found the flag clear. -/
theorem fallbackAllowed_triple (inGrace : Bool) :
    Prog.Triple (during cfg i) (At i .idle none) (PgHaDaemon.fallbackAllowed cfg inGrace)
      (fun allowed => Saw i fun seen => allowed = true → seen.active = false)
      (At i .idle none) := by
  have hrefused : Prog.Triple (during cfg i) (At i .idle none) (.pure false : Mgr Bool)
      (fun allowed => Saw i fun seen => allowed = true → seen.active = false)
      (At i .idle none) := .pure fun s hs => ⟨hs, by simp⟩
  apply (keeps_of_plain own_at isStandby_plain).bind during_monotone
  intro standby
  apply Prog.Triple.ite _ fun _ => hrefused
  intro _
  apply (perform_keeps own_at (.host .isPeerAlive) trivial).bind during_monotone
  intro alive
  apply Prog.Triple.ite _ fun _ => hrefused
  intro _
  apply Prog.Triple.ite fun _ => hrefused
  intro _
  -- of all that is looked at here only the flag is needed later on
  apply flag_triple.bind during_monotone
  intro active
  apply Prog.Triple.ite fun _ => Saw.forget hrefused
  intro hinactive
  obtain rfl : active = false := by simpa using hinactive
  apply isMaintenance_keeps.bind during_monotone
  exact fun maintenance => .pure fun s hs => ⟨hs.1, fun _ => hs.2⟩

theorem heartbeatFallback_keeps :
    Prog.Keeps (during cfg i) (At i .idle none) (PgHaDaemon.heartbeatFallback cfg) := by
  apply (perform_keeps own_at (.host .time) trivial).bind during_monotone
  intro now
  apply (perform_keeps own_at (.host .lastDemotionTs) trivial).bind during_monotone
  intro lastDemotion
  apply (fallbackAllowed_triple _).bind during_monotone
  intro allowed
  apply Prog.Triple.ite _ fun _ => declines
  intro hallowed
  have hpeer : Prog.Triple (during cfg i)
      (Saw i fun seen => allowed = true → seen.active = false) (Mgr.host .peerSnapshot)
      (fun _ => Saw i (Aware true)) (At i .idle none) :=
    look_triple .peerSnapshot trivial fun seen _ hf _ => hf hallowed
  apply hpeer.bind during_monotone
  intro peerSnap
  apply Prog.Triple.ite _ fun _ => declines
  intro _
  have hlock : Prog.Triple (during cfg i) (Saw i (Aware true))
      (Mgr.host (.acquireFailoverLock false)) (fun _ => Saw i (Aware true)) (At i .idle none) :=
    look_keeps (.acquireFailoverLock false) trivial fun _ _ => rfl
  apply hlock.bind during_monotone
  intro acquired
  apply Prog.Triple.ite _ fun _ => declines
  intro _
  -- the lock is held until the thread has been started, and not longer
  refine .ensuring during_monotone ?_ release_keeps
  apply (isStandby_triple fun _ _ => id).bind during_monotone
  intro standby
  apply Prog.Triple.ite _ fun _ => declines
  intro _
  exact (attempt_triple true).conseq during_monotone (fun s hs => ⟨hs.1, hs.2.1⟩)
    (fun _ _ => id) fun _ => id

theorem mainLoopPass_keeps :
    Prog.Keeps (during cfg 0) (At 0 .idle none) (PgHaDaemon.mainLoopPass cfg) := by
  apply (drainEvents_keeps cfg.loopBound).bind during_monotone
  intro _
  apply refreshState_keeps.bind during_monotone
  exact fun _ => heartbeatFallback_keeps

/-! ### The commands -/

theorem mgmtSwitchover_keeps :
    Prog.Keeps (during cfg i) (At i .idle none) (mgmtSwitchover cfg) := by
  have hrefused (reply : List (String × String)) : Prog.Keeps (during cfg i) (At i .idle none)
      (.pure reply : Mgr (List (String × String))) := Prog.keeps_pure _
  have hdispatch : Prog.Keeps (during cfg i) (At i .idle none)
      (PgHaDaemon.dispatchSwitchover cfg) := by
    apply (keeps_of_plain own_at isMaintenance_plain).bind during_monotone
    intro maintenance
    apply Prog.Triple.ite fun _ => hrefused _
    intro _
    apply (of_saw (isPrimary_triple fun _ _ => id)).bind during_monotone
    intro primary
    apply Prog.Triple.ite fun _ => Saw.forget (hrefused _)
    intro hprimary
    have hprimary : primary = true := by simpa using hprimary
    apply (switchoverActive_triple fun _ _ => id).bind during_monotone
    intro active
    apply Prog.Triple.ite fun _ => Saw.forget (hrefused _)
    intro hinactive
    obtain rfl : active = false := by simpa using hinactive
    apply (startThread_triple .idle _ Saw.unmoved at_of_saw rfl ?_).bind
      during_monotone
    · exact fun _ => hrefused _
    · intro s hinv hs hinformed
      -- the two checks of the command, as they still hold when it decides
      have hserving : Serving (s.seen i) := ⟨hs.2.1.2 hprimary, hs.2.2⟩
      exact ⟨trivial, switchover_alone hinv hserving hinformed⟩
  exact hdispatch.bind during_monotone fun _ => Prog.keeps_pure _

/-- The flag is set only after the acceptance has been sent, and the thread that
is started takes the flag over. -/
theorem handleSwitchoverRequest_keeps :
    Prog.Keeps (during cfg i) (At i .idle none) PgHaDaemon.handleSwitchoverRequest := by
  have hreply : Prog.Keeps (during cfg i) (At i .idle none)
      (Mgr.host (.sendReply [("cmd", "SWITCHOVER_ACCEPT")])) :=
    perform_keeps own_at (.host (.sendReply [("cmd", "SWITCHOVER_ACCEPT")])) trivial
  apply hreply.bind during_monotone
  intro _
  apply (setFlag_returns true (by simp)).triple.bind during_monotone
  intro _
  apply startThread_triple .flagged _ own_at.unmoved (fun _ => id) rfl
  exact fun s hinv hs _ => ⟨trivial, hinv.others (by simp [hs.1])⟩

theorem handlePgFailHandoff_keeps :
    Prog.Keeps (during cfg i) (At i .idle none) (PgHaDaemon.handlePgFailHandoff cfg) := by
  have hreply : Prog.Keeps (during cfg i) (At i .idle none)
      (Mgr.host (.sendReply [("cmd", "PG_FAIL_HANDOFF_ACK")])) :=
    perform_keeps own_at (.host (.sendReply [("cmd", "PG_FAIL_HANDOFF_ACK")])) trivial
  apply flag_triple.bind during_monotone
  intro active
  apply Prog.Triple.ite fun _ => Saw.forget hreply
  intro hinactive
  obtain rfl : active = false := by simpa using hinactive
  apply isMaintenance_keeps.bind during_monotone
  intro maintenance
  apply Prog.Triple.ite fun _ => Saw.forget hreply
  intro _
  -- the acknowledgement is sent before anything is decided
  have hack : Prog.Triple (during cfg i) (Saw i fun seen => seen.active = false)
      (Mgr.host (.sendReply [("cmd", "PG_FAIL_HANDOFF_ACK")])) (fun _ => Saw i (Aware true))
      (At i .idle none) :=
    look_triple (.sendReply [("cmd", "PG_FAIL_HANDOFF_ACK")]) trivial fun _ _ hf _ => hf
  apply hack.bind during_monotone
  intro _
  apply withFailoverLock_triple
  apply (isStandby_triple fun _ _ => id).bind during_monotone
  intro standby
  apply Prog.Triple.ite _ fun _ => declines
  intro _
  exact (attempt_triple true).conseq during_monotone (fun s hs => ⟨hs.1, hs.2.1⟩)
    (fun _ _ => id) fun _ => id

theorem dispatchPeer_keeps (cmd : Option Json) :
    Prog.Keeps (during cfg i) (At i .idle none) (PgHaDaemon.dispatchPeer cfg cmd) := by
  have hreply (fields : List (String × String)) :
      (Mgr.host (.sendReply fields)).Calls plain := Prog.Calls.perform trivial
  apply Prog.Triple.ite fun _ => handleSwitchoverRequest_keeps
  intro _
  apply Prog.Triple.ite fun _ => handlePgFailHandoff_keeps
  intro _
  apply keeps_of_plain own_at
  refine .ite ?_ (.ite ?_ (hreply _))
  · refine .bind ?_ fun _ => hreply _
    exact .perform_bind trivial fun _ => .perform_bind trivial fun _ => trivial
  · refine .bind ?_ fun _ => hreply _
    exact .bind isMaintenance_plain fun present =>
      .ite (.perform_bind trivial fun _ => trivial) trivial

theorem handlePeerConn_keeps :
    Prog.Keeps (during cfg i) (At i .idle none) (PgHaDaemon.handlePeerConn cfg) := by
  have hreceive : PgHaDaemon.receiveCommand.Calls plain :=
    .perform_bind trivial fun req => .bind (Prog.calls_ofExcept _) fun _ => trivial
  apply ((keeps_of_plain own_at hreceive).attempted during_monotone).bind during_monotone
  intro received
  cases received with
  | error exc => exact keeps_of_plain own_at (.ite trivial trivial)
  | ok received =>
      have hauthenticated : (PgHaDaemon.authenticated cfg received.1).Calls plain := by
        refine .ite trivial (.bind (Prog.calls_ofExcept _) fun token => ?_)
        exact Prog.calls_ofExcept _
      apply (keeps_of_plain own_at hauthenticated).bind during_monotone
      intro accepted
      apply Prog.Triple.ite
      · exact fun _ => dispatchPeer_keeps received.2
      · exact fun _ => perform_keeps own_at (.host (.sendReply [("error", "auth_failed")])) trivial

/-! ## The system keeps the contract -/

theorem arrives_keeps {program : Mgr Unit} (h : Arrives cfg i program) :
    Prog.Keeps (during cfg i) (At i .idle none) program := by
  unfold Arrives at h
  split at h
  · subst i program
    exact mainLoopPass_keeps
  · rcases h with rfl | rfl
    · exact handlePeerConn_keeps
    · exact mgmtSwitchover_keeps

theorem transitionContract_holds : (transitionContract cfg).Holds where
  start := by
    intro i program s _ hstart
    have hended {P : World → Prop} (hs : P s) (h : Prog.Triple (during cfg i) P program
        (fun _ => At i .idle none) (At i .idle none)) :
        (transitionContract cfg).Safe i program s := by
      apply Prog.wp_mono during_monotone _ (h s hs)
      intro outcome s' hend hfinished
      cases outcome with
      | stuck => exact absurd rfl hfinished
      | _ => exact hend
    rcases hstart with ⟨harrives, hs⟩ | ⟨task, rfl, hs⟩
    · exact hended hs (arrives_keeps harrives)
    · exact hended hs (taskBody_triple task)
  arrive := by
    rintro i s program s' hinv ⟨harrives, rfl⟩ ⟨outcome, hended, hpost⟩
    refine ⟨hinv, fun j _ => (transitionContract cfg).refl j s', .inl ⟨harrives, hpost hended⟩⟩
  env s s' hinv henv :=
    ⟨Plain.exclusive henv.toPlain hinv, fun i => henv.toPlain.unmoved (congrFun henv.seen i)⟩

theorem sound_of_start {state : Threads ℕ Call.Ret Exc Unit World} (h : Start state) :
    (transitionContract cfg).Sound state := by
  refine ⟨⟨?_, fun i => recorded_of_idle (h.stage i) (h.running i)⟩, fun i => ?_⟩
  · exact fun i _ hi => absurd (h.stage i) hi
  · rw [h.prog i]
    exact fun _ => ⟨h.stage i, h.running i⟩

/-- **One transition at a time.**  When a thread decides on a transition only while what
it has read for the decision still is so, and while nothing is in progress that its
checks do not see, no two sequences are in progress together, and the flag is set
throughout both sides of a switchover. -/
theorem one_transition (cfg : Config) (start state : Threads ℕ Call.Ret Exc Unit World)
    (hstart : Start start) (h : ((transitionSystem cfg).restrict informed).Reach start state) :
    (∀ i j, state.shared.running i ≠ none → state.shared.running j ≠ none → i = j) ∧
      ∀ i, state.shared.running i = some .asPrimary ∨ state.shared.running i = some .asStandby →
        state.shared.daemon.switchoverActive = true := by
  have hexclusive : Exclusive state.shared :=
    (transitionContract_holds.reach h (sound_of_start hstart)).1
  constructor
  · intro i j hi hj
    have hrecorded := hexclusive.recorded
    exact hexclusive.one i j ((hrecorded i).running hi) ((hrecorded j).running hj)
  · intro i hi
    have hrecorded : Recorded i state.shared := hexclusive.recorded i
    exact hrecorded.flag (hrecorded.switching hi)

/-! ## Sample runs -/

/-- The peer has demoted itself: it says so in its command and in its heartbeat. -/
def obey (i : ℕ) : (op : Call) → World → Except Exc op.Ret × World
  | .disk _, s | .net _, s => (.error (.runtimeError "unreachable"), s)
  | .host .recvCommand, s =>
      let command : Json := .obj [("cmd", .str "PG_FAIL_HANDOFF")]
      (.ok command, s.after i .recvCommand (.ok command))
  | .host .time, s => (.ok 1000000, s.after i .time (.ok 1000000))
  | .host .peerSnapshot, s =>
      let peer : NodeState := { name := "pg-primary", role := .standby, diskState := .detached }
      (.ok peer, s.after i .peerSnapshot (.ok peer))
  | .host (.setSwitchoverActive active), s => (.ok (), s.setFlag i active)
  | .host (.setRole role), s => (.ok (), s.setRole i role)
  | .host (.setLastAttemptTs ts), s => (.ok (), s.attempt i ts)
  | .host (.mark (.enter sequence)), s => (.ok (), s.enter i sequence)
  | .host (.mark (.leave sequence)), s => (.ok (), s.leave i sequence)
  | .host call, s => (s.daemon.reply call, s.after i call (s.daemon.reply call))

/-- Stop before a decision, and where the failover lock is held. -/
def waits : Call → World → Bool
  | .host (.startThread _), _ | .host (.setSwitchoverActive _), _
  | .host (.mark (.enter .selfDemotion)), _ => true
  | .host (.acquireFailoverLock _), s => s.daemon.failoverLocked
  | _, _ => false

theorem transitionStep_obey (s : World) (op : Call) (hop : waits op s = false) :
    transitionStep i s ⟨op, (obey i op s).1⟩ (obey i op s).2 := by
  cases op with
  | disk call => exact rfl
  | net call => exact rfl
  | host call =>
      cases call
      case startThread => cases hop
      case setSwitchoverActive => cases hop
      case acquireFailoverLock => exact ⟨DaemonState.answers_reply _ _ fun _ _ => hop, rfl⟩
      case mark mark => cases mark <;> exact ⟨rfl, rfl⟩
      case recvCommand => exact ⟨trivial, rfl⟩
      case time => exact ⟨⟨_, rfl⟩, rfl⟩
      case setRole => exact ⟨rfl, rfl⟩
      case setLastAttemptTs => exact ⟨rfl, rfl⟩
      case peerSnapshot => exact ⟨⟨_, rfl⟩, rfl⟩
      all_goals exact ⟨DaemonState.answers_reply _ _ (by simp), rfl⟩

theorem informed_of_waits (s : World) (op : Call) (answer : Except Exc op.Ret)
    (hop : waits op s = false) : informed i s ⟨op, answer⟩ := by
  refine ⟨?_, fun j _ hhidden => ?_⟩
  · show Current s (s.seen i) op
    unfold Current
    split <;> first | cases hop | trivial
  · have hhidden : Hidden (s.seen i) op (s.stage j) (s.changed j) := hhidden
    unfold Hidden at hhidden
    split at hhidden <;> first | cases hop | exact hhidden

section Sample

abbrev Sample : Type := Threads ℕ Call.Ret Exc Unit World

def sampleStart : Sample where
  shared :=
    { daemon := ⟨{ name := "pg-standby", role := .standby }, 0, 0, "UNKNOWN", false, false, 0⟩
      stage := fun _ => .idle
      running := fun _ => none
      changed := fun _ => false
      seen := fun _ => ⟨.standby, false, 0, 0, 0⟩ }
  prog _ := .pure ()

theorem start_sampleStart : Start sampleStart := ⟨fun _ => rfl, fun _ => rfl, fun _ => rfl⟩

/-- The handler of the command is about to start a failover. -/
def commanded : Sample :=
  (sampleStart.arrived 1 sampleStart.shared (PgHaDaemon.handlePeerConn .sampleStandby)).advance
    (obey 1) waits 1 100

/-- It has started the failover, and has released the lock. -/
def released : Sample :=
  (commanded.forked 1 2 (.host (.startThread (.runFailover true))) (.ok ())
    (commanded.shared.start 1 2) (PgHaDaemon.runFailover .sampleStandby true)).advance
    (obey 1) waits 1 100

/-- The failover is in progress. -/
def underway : Sample := released.advance (obey 2) waits 2 1

theorem step_obey (i : ℕ) (s : World) (op : Call) (hop : waits op s = false) :
    ((transitionSystem .sampleStandby).restrict informed).step i s
      ⟨op, (obey i op s).1⟩ (obey i op s).2 :=
  ⟨informed_of_waits s op _ hop, transitionStep_obey s op hop⟩

theorem reach_released : ((transitionSystem .sampleStandby).restrict informed).Reach
    sampleStart released := by
  have hcommanded : ((transitionSystem .sampleStandby).restrict informed).Reach
      sampleStart commanded := by
    apply System.Reach.advance _ (step_obey 1) 100
    exact System.Reach.arrive .refl ⟨.inl rfl, rfl⟩ trivial
  have hidle : (commanded.prog 2).Finished := trivial
  apply System.Reach.advance _ (step_obey 1) 100
  apply hcommanded.fork (by decide) _ (by decide) hidle
  have hinformed : informed 1 commanded.shared
      ⟨.host (.startThread (.runFailover true)), .ok ()⟩ :=
    ⟨⟨rfl, rfl, fun _ => rfl⟩, fun _ _ => id⟩
  exact ⟨hinformed, by decide, .runFailover true, rfl, rfl, rfl⟩

theorem one_transition_underway : underway.shared.running 2 = some .failover ∧
    ∀ i j, underway.shared.running i ≠ none → underway.shared.running j ≠ none → i = j := by
  have hreach : ((transitionSystem .sampleStandby).restrict informed).Reach sampleStart
      underway := reach_released.advance (step_obey 2) 1
  exact ⟨by decide, (one_transition .sampleStandby sampleStart underway start_sampleStart hreach).1⟩

/-- The main loop has read the heartbeat, and is about to start a failover, too. -/
def fallback : Sample :=
  (released.arrived 0 released.shared (PgHaDaemon.mainLoopPass .sampleStandby)).advance
    (obey 0) waits 0 100

def twoFailovers : Sample :=
  ((fallback.forked 0 3 (.host (.startThread (.runFailover true))) (.ok ())
    (fallback.shared.start 0 3) (PgHaDaemon.runFailover .sampleStandby true)).advance
    (obey 2) waits 2 1).advance (obey 3) waits 3 1

theorem reach_twoFailovers :
    (transitionSystem .sampleStandby).Reach sampleStart twoFailovers := by
  have hstep (i : ℕ) (s : World) (op : Call) (hop : waits op s = false) :
      (transitionSystem .sampleStandby).step i s ⟨op, (obey i op s).1⟩ (obey i op s).2 :=
    transitionStep_obey s op hop
  have hfallback : (transitionSystem .sampleStandby).Reach sampleStart fallback := by
    apply System.Reach.advance _ (hstep 0) 100
    exact reach_released.unrestrict.arrive ⟨rfl, rfl⟩ trivial
  have hidle : (fallback.prog 3).Finished := trivial
  apply System.Reach.advance _ (hstep 3) 1
  apply System.Reach.advance _ (hstep 2) 1
  apply hfallback.fork (by decide) _ (by decide) hidle
  exact ⟨by decide, .runFailover true, rfl, rfl, rfl⟩

/-- Both failovers are in progress: neither had recorded its attempt when the
other one was started. -/
theorem not_one_transition : ¬ ∀ cfg start state, Start start →
    (transitionSystem cfg).Reach start state →
      (∀ i j, state.shared.running i ≠ none → state.shared.running j ≠ none → i = j) ∧
      ∀ i, state.shared.running i = some .asPrimary ∨ state.shared.running i = some .asStandby →
        state.shared.daemon.switchoverActive = true := by
  intro h
  have hone := (h .sampleStandby sampleStart twoFailovers start_sampleStart reach_twoFailovers).1
  exact absurd (hone 2 3 (by decide) (by decide)) (by decide)

end Sample

end PgHa.Transitions
