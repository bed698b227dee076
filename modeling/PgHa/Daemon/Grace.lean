import PgHa.Daemon
import PgHa.Effect.Threads
import PgHa.Model.Host

/-!
# The grace period after a demotion

For thirty seconds after the node has handed its role over, the heartbeat fallback is not
to start a failover: the peer may still be on its way to PRIMARY.  While the switchover
runs, its flag tells the main loop so, and afterwards `_last_demotion_ts` does.  The
switchover writes the time before it clears the flag, but the main loop also reads the
time before it reads the flag, so that both can miss a demotion.

`graceful` says that nothing else breaks the grace period: in every run in which a
fallback that was overtaken in this way starts nothing, and the main loop puts no time
older than a demotion back, the fallback keeps the distance to every demotion.
-/

namespace PgHa.Grace

open Effect

variable {cfg : Config}

/-! ## The system -/

/-- The main loop and the thread of a switchover on the primary side. -/
inductive Slot
  | mainLoop
  | switchover
  deriving DecidableEq, Repr

/-- What the grace period is about. -/
inductive Happening
  /-- A switchover sets the role to STANDBY. -/
  | demoted (time : Int)
  /-- The fallback starts a failover. -/
  | started (time : Int)
  deriving DecidableEq, Repr

/-- A demotion after the given time. -/
def Happening.demotedAfter (time : Int) : Happening → Bool
  | .demoted demotion => decide (time < demotion)
  | .started _ => false

/-- What the two threads share, what has happened, newest first, and how far the fallback
is: the demotion time that it has read last, whether it has found no switchover active
since, and whether a demotion has come that it sees neither by the time nor by the flag. -/
structure World where
  role : NodeRole
  switchoverActive : Bool
  lastDemotionTs : Int
  now : Int
  log : List Happening
  compared : Int
  unflagged : Bool
  overtaken : Bool

namespace World

/-- The role is set; a switchover sets it only to demote the node. -/
def enact (s : World) : Slot → NodeRole → World
  | .switchover, .standby =>
      { s with
        role := .standby
        log := .demoted s.now :: s.log
        overtaken := s.overtaken || s.unflagged }
  | _, role => { s with role := role }

/-- The flag is set or cleared. -/
def flag (s : World) (active : Bool) : World :=
  if active then { s with switchoverActive := true }
  else
    { s with
      switchoverActive := false
      overtaken := s.overtaken || !s.unflagged && s.log.any (Happening.demotedAfter s.compared) }

end World

/-- The operations of the host.  A failover that is started is not followed any further. -/
def hostStep (slot : Slot) (s : World) : (call : HostCall) → Except Exc call.Ret → World → Prop
  | .time, answer, s' => answer = .ok s.now ∧ s' = s
  | .role, answer, s' => answer = .ok s.role ∧ s' = s
  | .setRole role, answer, s' => answer = .ok () ∧ s' = s.enact slot role
  | .switchoverActive, answer, s' =>
      answer = .ok s.switchoverActive ∧ s' = { s with unflagged := !s.switchoverActive }
  | .setSwitchoverActive active, answer, s' => answer = .ok () ∧ s' = s.flag active
  | .lastDemotionTs, answer, s' =>
      answer = .ok s.lastDemotionTs ∧
        s' = { s with compared := s.lastDemotionTs, unflagged := false, overtaken := false }
  | .setLastDemotionTs ts, answer, s' => answer = .ok () ∧ s' = { s with lastDemotionTs := ts }
  | .startThread (.runFailover true), answer, s' =>
      s' = if answer.toBool then { s with log := .started s.now :: s.log } else s
  | _, _, s' => s' = s

/-- The managers, and the rest of the host, answer anything. -/
def graceStep (slot : Slot) (s : World) (event : Event Call.Ret Exc) (s' : World) : Prop :=
  match event with
  | ⟨.host call, answer⟩ => hostStep slot s call answer s'
  | _ => s' = s

/-- What happens outside of the two threads. -/
inductive Outside (s : World) : World → Prop
  /-- Another thread gives the node a role. -/
  | role (role : NodeRole) : Outside s { s with role := role }
  | time (now : Int) : s.now ≤ now → Outside s { s with now := now }

def graceSystem (cfg : Config) : System Slot Call.Ret Exc Unit World where
  step := graceStep
  fork _ _ _ _ _ _ := False
  arrive i s program s' := s' = s ∧
    (i = .mainLoop ∧ program = PgHaDaemon.mainLoopPass cfg ∨
      i = .switchover ∧ program = PgHaDaemon.runSwitchover cfg)
  env := Outside

abbrev State : Type := Threads Slot Call.Ret Exc Unit World

/-- The daemon has just been started, in the role that it was elected to. -/
def begin (role : NodeRole) (now : Int) : State where
  shared :=
    { role := role
      switchoverActive := false
      lastDemotionTs := 0
      now := now
      log := []
      compared := 0
      unflagged := false
      overtaken := false }
  prog _ := .pure ()

/-! ## The grace period -/

/-- The distance between two happenings, the later one first. -/
def Spaced : Happening → Happening → Prop
  | .started start, .demoted demotion => demotion + PgHaDaemon.demotionGraceMillis ≤ start
  | _, _ => True

/-- In every state that a run of the system reaches, the fallback has kept its distance to
the demotions before it. -/
def Graceful (S : System Slot Call.Ret Exc Unit World) : Prop :=
  ∀ role now state, S.Reach (begin role now) state → state.shared.log.Pairwise Spaced

/-- Every demotion was made at the given time or before. -/
def DemotedBy (s : World) (time : Int) : Prop :=
  ∀ demotion, .demoted demotion ∈ s.log → demotion ≤ time

/-- A fallback that was overtaken starts nothing, and the main loop records no time that is
older than a demotion. -/
def Timely (slot : Slot) (s : World) (event : Event Call.Ret Exc) : Prop :=
  match slot, event with
  | .mainLoop, ⟨.host (.startThread (.runFailover true)), .ok _⟩ => s.overtaken = false
  | .mainLoop, ⟨.host (.setLastDemotionTs ts), _⟩ => DemotedBy s ts
  | _, _ => True

/-! ## The contract of the threads -/

theorem demotedBy_mono {s : World} {time time' : Int} (h : DemotedBy s time) (hle : time ≤ time') :
    DemotedBy s time' := by
  intro demotion hmem
  exact Int.le_trans (h demotion hmem) hle

theorem demotedBy_iff {s : World} {time : Int} :
    DemotedBy s time ↔ s.log.any (Happening.demotedAfter time) = false := by
  rw [List.any_eq_false]
  constructor
  · intro h happening hmem
    cases happening with
    | demoted demotion =>
        have := h demotion hmem
        simp only [Happening.demotedAfter, decide_eq_true_eq]
        omega
    | started start => simp [Happening.demotedAfter]
  · intro h demotion hmem
    have := h _ hmem
    simp only [Happening.demotedAfter, decide_eq_true_eq] at this
    omega

/-- What holds throughout: the time or the flag tells of every demotion, and so does what
the fallback has read of them, unless it was overtaken. -/
structure Inv (s : World) : Prop where
  spaced : s.log.Pairwise Spaced
  past : DemotedBy s s.now
  told : DemotedBy s s.lastDemotionTs ∨ s.switchoverActive = true
  seen : s.overtaken = true ∨ DemotedBy s s.compared ∨
    s.unflagged = false ∧ s.switchoverActive = true

/-- How the other thread may change the state under the main loop: it leaves what the
fallback has read. -/
structure LoopRelies (s s' : World) : Prop where
  now : s.now ≤ s'.now
  compared : s'.compared = s.compared
  unflagged : s'.unflagged = s.unflagged

/-- How the main loop may change the state under a switchover: it leaves the flag, and makes
no demotion that the recorded time does not tell of. -/
structure SwitchoverRelies (s s' : World) : Prop where
  switchoverActive : s'.switchoverActive = s.switchoverActive
  demoted : ∀ time, DemotedBy s time → DemotedBy s' time
  told : DemotedBy s s.lastDemotionTs → DemotedBy s' s'.lastDemotionTs

def Relies : Slot → World → World → Prop
  | .mainLoop => LoopRelies
  | .switchover => SwitchoverRelies

theorem relies_refl (i : Slot) (s : World) : Relies i s s := by
  cases i with
  | mainLoop => exact ⟨Int.le_refl _, rfl, rfl⟩
  | switchover => exact ⟨rfl, fun _ => id, id⟩

theorem Relies.trans {i : Slot} {s s' s'' : World} (h : Relies i s s') (h' : Relies i s' s'') :
    Relies i s s'' := by
  cases i with
  | mainLoop =>
      have hcompared := h'.compared.trans h.compared
      exact ⟨Int.le_trans h.now h'.now, hcompared, h'.unflagged.trans h.unflagged⟩
  | switchover =>
      have hactive := h'.switchoverActive.trans h.switchoverActive
      exact ⟨hactive, fun time hs => h'.demoted time (h.demoted time hs), h'.told ∘ h.told⟩

/-- The system in which the condition is met. -/
abbrev timely (cfg : Config) : System Slot Call.Ret Exc Unit World :=
  (graceSystem cfg).restrict Timely

def graceContract (cfg : Config) : Contract (timely cfg) where
  inv := Inv
  rely := Relies
  refl := relies_refl
  trans _ _ _ _ := Relies.trans
  start i program _ := match i with
    | .mainLoop => program = PgHaDaemon.mainLoopPass cfg
    | .switchover => program = PgHaDaemon.runSwitchover cfg
  post _ _ _ := True
  stable _ _ _ _ _ _ _ := trivial

/-- A thread among the others. -/
abbrev among (cfg : Config) (i : Slot) : Transformer Call.Ret Exc World :=
  (graceContract cfg).thread i

variable {i : Slot} {α β : Type}

theorem among_monotone : (among cfg i).Monotone := (graceContract cfg).thread_monotone i

/-- A step as the rest of the system sees it, and what it leaves to the thread itself. -/
abbrev Keeping (cfg : Config) (i : Slot) (kept : Prop) (s s' : World) : Prop :=
  (graceContract cfg).Keeping i kept s s'

theorem triple_perform {op : Call} {P : World → Prop} {Q : op.Ret → World → Prop}
    (hstable : (graceContract cfg).Stable i P) (hstep : ∀ s answer s', Inv s → P s →
      Timely i s ⟨op, answer⟩ → graceStep i s ⟨op, answer⟩ s' →
        Keeping cfg i (Prog.ending Q (fun _ => True) (Prog.answered answer) s') s s') :
    Prog.Triple (among cfg i) P (Prog.perform op) Q fun _ => True := by
  refine Contract.triple_perform hstable (fun _ _ _ _ _ hfork => hfork.2) ?_
  exact fun s answer s' hinv hs h => hstep s answer s' hinv hs h.1 h.2

theorem keeps_of_step {P : World → Prop} (hstable : (graceContract cfg).Stable i P)
    {allowed : Call → Prop} (hstep : ∀ s event s', allowed event.op → Inv s → P s →
      Timely i s event → graceStep i s event s' → Keeping cfg i (P s') s s')
    {program : Mgr α} (hcalls : program.Calls allowed) : Prog.Keeps (among cfg i) P program := by
  refine Contract.keeps_of_step hstable (fun _ _ _ _ _ _ _ hfork => hfork.2) ?_ hcalls
  exact fun s event s' hop hinv hs h => hstep s event s' hop hinv hs h.1 h.2

theorem keeping_refl {s : World} {kept : Prop} (hinv : Inv s) (h : kept) :
    Keeping cfg i kept s s :=
  ⟨hinv, fun j _ => relies_refl j s, h⟩

/-- The operations that do not consult or change what tells of a demotion, and that start
no fallback. -/
def Aside : Call → Prop
  | .host (.setRole _) | .host .switchoverActive | .host (.setSwitchoverActive _)
  | .host .lastDemotionTs | .host (.setLastDemotionTs _)
  | .host (.startThread (.runFailover true)) => False
  | _ => True

theorem eq_of_aside {s s' : World} {event : Event Call.Ret Exc} (haside : Aside event.op)
    (h : graceStep i s event s') : s' = s := by
  obtain ⟨op, answer⟩ := event
  cases op with
  | disk call => exact h
  | net call => exact h
  | host call =>
      cases call
      case startThread task =>
        cases task with
        | runFailover skipFence => cases skipFence <;> first | exact haside.elim | exact h
        | _ => exact h
      all_goals first | exact haside.elim | exact h | exact h.2

/-! ## The main loop -/

section MainLoop

/-- The operations of the main loop around the fallback: it also demotes the node itself,
and records when. -/
def Upkeep : Call → Prop
  | .host (.setRole _) | .host (.setLastDemotionTs _) => True
  | op => Aside op

theorem upkeep_cases {op : Call} (hop : Upkeep op) : (∃ role, op = .host (.setRole role)) ∨
    (∃ ts, op = .host (.setLastDemotionTs ts)) ∨ Aside op := by
  unfold Upkeep at hop
  split at hop
  · exact .inl ⟨_, rfl⟩
  · exact .inr (.inl ⟨_, rfl⟩)
  · exact .inr (.inr hop)

/-- An assertion that holds as long as the other thread leaves what the fallback has read. -/
def Lasting (P : World → Prop) : Prop := ∀ s s', LoopRelies s s' → P s → P s'

theorem Lasting.stable {P : World → Prop} (h : Lasting P) :
    (graceContract cfg).Stable .mainLoop P :=
  fun s s' hs hrely _ => h s s' hrely hs

/-- A step of the main loop as the switchover sees it. -/
theorem keeping_mainLoop {s s' : World} {kept : Prop} (hinv : Inv s')
    (hrely : SwitchoverRelies s s') (h : kept) : Keeping cfg .mainLoop kept s s' := by
  refine ⟨hinv, fun j hj => ?_, h⟩
  cases j with
  | mainLoop => exact absurd rfl hj
  | switchover => exact hrely

theorem keeping_upkeep {P : World → Prop} (hP : Lasting P) {s s' : World}
    {event : Event Call.Ret Exc} (hop : Upkeep event.op) (hinv : Inv s) (hs : P s)
    (htimely : Timely .mainLoop s event) (hstep : graceStep .mainLoop s event s') :
    Keeping cfg .mainLoop (P s') s s' := by
  obtain ⟨op, answer⟩ := event
  rcases upkeep_cases hop with ⟨role, rfl⟩ | ⟨ts, rfl⟩ | haside
  · obtain ⟨-, rfl⟩ := hstep
    have hkept : P { s with role := role } := hP s _ ⟨Int.le_refl _, rfl, rfl⟩ hs
    exact keeping_mainLoop ⟨hinv.spaced, hinv.past, hinv.told, hinv.seen⟩
      ⟨rfl, fun _ => id, id⟩ hkept
  · obtain ⟨-, rfl⟩ := hstep
    have hkept : P { s with lastDemotionTs := ts } := hP s _ ⟨Int.le_refl _, rfl, rfl⟩ hs
    have hby : DemotedBy s ts := htimely
    exact keeping_mainLoop ⟨hinv.spaced, hinv.past, .inl hby, hinv.seen⟩
      ⟨rfl, fun _ => id, fun _ => hby⟩ hkept
  · obtain rfl := eq_of_aside haside hstep
    exact keeping_refl hinv hs

theorem upkeep_keeps {P : World → Prop} (hP : Lasting P) {program : Mgr α}
    (hcalls : program.Calls Upkeep) : Prog.Keeps (among cfg .mainLoop) P program :=
  keeps_of_step hP.stable (fun _ _ _ => keeping_upkeep hP) hcalls

/-- The flag is consulted. -/
theorem keeping_consulted {s : World} {kept : Prop} (hinv : Inv s) (h : kept) :
    Keeping cfg .mainLoop kept s { s with unflagged := !s.switchoverActive } := by
  refine keeping_mainLoop ⟨hinv.spaced, hinv.past, hinv.told, ?_⟩ ⟨rfl, fun _ => id, id⟩ h
  rcases hinv.seen with hovertaken | hby | ⟨-, hactive⟩
  · exact .inl hovertaken
  · exact .inr (.inl hby)
  · exact .inr (.inr ⟨by simp [hactive], hactive⟩)

theorem upkeep_of_tending {op : Call} (h : PgHaDaemon.Tending op) :
    Upkeep op ∨ op = .host .switchoverActive := by
  by_cases hflag : op = .host .switchoverActive
  · exact .inr hflag
  · refine .inl ?_
    unfold Upkeep
    split
    · trivial
    · trivial
    · unfold Aside
      split <;> first | exact h.elim | exact absurd rfl hflag | simp_all

theorem tending_keeps {program : Mgr α} (hcalls : program.Calls PgHaDaemon.Tending) :
    Prog.Keeps (among cfg .mainLoop) (fun _ => True) program := by
  refine keeps_of_step Contract.stable_true (fun s event s' hop hinv hs htimely hstep => ?_) hcalls
  rcases upkeep_of_tending hop with hupkeep | hflag
  · have hlasting : Lasting fun _ => True := fun _ _ _ => id
    exact keeping_upkeep hlasting hupkeep hinv hs htimely hstep
  · obtain ⟨op, answer⟩ := event
    subst hflag
    obtain ⟨-, rfl⟩ := hstep
    exact keeping_consulted hinv trivial

/-- The time of the last demotion is read. -/
theorem inv_compared {s : World} (hinv : Inv s) :
    Inv { s with compared := s.lastDemotionTs, unflagged := false, overtaken := false } := by
  refine ⟨hinv.spaced, hinv.past, hinv.told, ?_⟩
  rcases hinv.told with hby | hactive
  · exact .inr (.inl hby)
  · exact .inr (.inr ⟨rfl, hactive⟩)

/-- The fallback has read the clock and the time of the last demotion. -/
structure Compared (now lastDemotion : Int) (s : World) : Prop where
  now : now ≤ s.now
  compared : s.compared = lastDemotion

/-- Then it has found no switchover active. -/
structure Unflagged (now lastDemotion : Int) (s : World) : Prop
    extends Compared now lastDemotion s where
  unflagged : s.unflagged = true

theorem lasting_now {now : Int} : Lasting (now ≤ ·.now) :=
  fun _ _ hrely hs => Int.le_trans hs hrely.now

variable {now lastDemotion : Int}

theorem lasting_compared : Lasting (Compared now lastDemotion) := by
  intro s s' hrely hs
  exact ⟨Int.le_trans hs.now hrely.now, hrely.compared.trans hs.compared⟩

theorem lasting_unflagged : Lasting (Unflagged now lastDemotion) := by
  intro s s' hrely hs
  exact ⟨lasting_compared s s' hrely hs.toCompared, hrely.unflagged.trans hs.unflagged⟩

theorem time_triple : Prog.Triple (among cfg .mainLoop) (fun _ => True) (Mgr.host .time)
    (fun now s => now ≤ s.now) fun _ => True := by
  refine triple_perform Contract.stable_true fun s answer s' hinv _ _ hstep => ?_
  obtain ⟨rfl, rfl⟩ := hstep
  exact keeping_refl hinv (Int.le_refl _)

theorem lastDemotionTs_triple : Prog.Triple (among cfg .mainLoop) (now ≤ ·.now)
    (Mgr.host .lastDemotionTs) (Compared now) fun _ => True := by
  refine triple_perform lasting_now.stable fun s answer s' hinv hs _ hstep => ?_
  obtain ⟨rfl, rfl⟩ := hstep
  exact keeping_mainLoop (inv_compared hinv) ⟨rfl, fun _ => id, id⟩ ⟨hs, rfl⟩

theorem switchoverActive_triple : Prog.Triple (among cfg .mainLoop) (Compared now lastDemotion)
    (Mgr.host .switchoverActive)
    (fun active s => active = false → Unflagged now lastDemotion s) fun _ => True := by
  refine triple_perform lasting_compared.stable fun s answer s' hinv hs _ hstep => ?_
  obtain ⟨rfl, rfl⟩ := hstep
  refine keeping_consulted hinv fun hactive => ⟨⟨hs.now, hs.compared⟩, ?_⟩
  simp [hactive]

/-- A part that leaves what the fallback has read, followed by another. -/
theorem upkeep_bind {P : World → Prop} (hP : Lasting P) {program : Mgr α} {next : α → Mgr β}
    {Q : β → World → Prop} (hcalls : program.Calls Upkeep)
    (hnext : ∀ value, Prog.Triple (among cfg .mainLoop) P (next value) Q fun _ => True) :
    Prog.Triple (among cfg .mainLoop) P (program.bind next) Q fun _ => True :=
  .after_keeps among_monotone (upkeep_keeps hP hcalls) hnext fun _ _ => trivial

theorem isStandby_upkeep : LocalNode.isStandby.Calls Upkeep :=
  .perform_bind trivial fun _ => trivial

/-- The guard lets the fallback pass only out of the grace period. -/
theorem fallbackAllowed_triple (inGrace : Bool) :
    Prog.Triple (among cfg .mainLoop) (Compared now lastDemotion)
      (PgHaDaemon.fallbackAllowed cfg inGrace)
      (fun allowed s => allowed = true → inGrace = false ∧ Unflagged now lastDemotion s)
      fun _ => True := by
  have hrefused {P : World → Prop} : Prog.Triple (among cfg .mainLoop) P
      (Prog.pure false : Mgr Bool)
      (fun allowed s => allowed = true → inGrace = false ∧ Unflagged now lastDemotion s)
      fun _ => True := .pure fun _ _ h => by cases h
  refine upkeep_bind lasting_compared isStandby_upkeep fun standby => ?_
  refine .ite (fun _ => ?_) fun _ => hrefused
  refine upkeep_bind lasting_compared (Prog.Calls.perform trivial) fun alive => ?_
  refine .ite (fun _ => .ite (fun _ => hrefused) fun hgrace => ?_) fun _ => hrefused
  refine .bind among_monotone switchoverActive_triple fun active => ?_
  refine .ite (fun _ => hrefused) fun hactive => ?_
  have hunflagged : Prog.Triple (among cfg .mainLoop) (Unflagged now lastDemotion)
      ((PgHaDaemon.isMaintenance cfg).bind fun maintenance => Prog.pure !maintenance)
      (fun allowed s => allowed = true → inGrace = false ∧ Unflagged now lastDemotion s)
      fun _ => True :=
    upkeep_bind lasting_unflagged (Prog.Calls.perform trivial) fun maintenance =>
      .pure fun s hs _ => ⟨by simpa using hgrace, hs⟩
  exact hunflagged.conseq among_monotone (fun s hs => hs (by simpa using hactive))
    (fun _ _ => id) fun _ => id

/-- Every demotion lies far enough behind a start. -/
theorem spaced_of_unflagged {s : World} (hinv : Inv s) (hs : Unflagged now lastDemotion s)
    (hovertaken : s.overtaken = false)
    (hgrace : lastDemotion + PgHaDaemon.demotionGraceMillis ≤ now) :
    (Happening.started s.now :: s.log).Pairwise Spaced := by
  have hby : DemotedBy s s.compared := by
    rcases hinv.seen with h | hby | ⟨hflagged, -⟩
    · rw [hovertaken] at h
      cases h
    · exact hby
    · rw [hs.unflagged] at hflagged
      cases hflagged
  refine List.pairwise_cons.mpr ⟨fun happening hmem => ?_, hinv.spaced⟩
  cases happening with
  | started start => trivial
  | demoted demotion =>
      have hdemotion : demotion ≤ s.compared := hby demotion hmem
      have hcompared := hs.compared
      have hnow := hs.now
      show demotion + PgHaDaemon.demotionGraceMillis ≤ s.now
      omega

/-- A start is no demotion. -/
theorem demotedBy_started {s : World} {time start : Int} (h : DemotedBy s time) :
    DemotedBy { s with log := .started start :: s.log } time := by
  intro demotion hmem
  rcases List.mem_cons.mp hmem with hstart | hold
  · cases hstart
  · exact h demotion hold

/-- The fallback starts a failover. -/
theorem startThread_triple (hgrace : lastDemotion + PgHaDaemon.demotionGraceMillis ≤ now) :
    Prog.Triple (among cfg .mainLoop) (Unflagged now lastDemotion)
      (Mgr.host (.startThread (.runFailover true))) (fun _ _ => True) fun _ => True := by
  refine triple_perform lasting_unflagged.stable fun s answer s' hinv hs htimely hstep => ?_
  cases answer with
  | error exc =>
      obtain rfl : s' = s := hstep
      exact keeping_refl hinv trivial
  | ok _ =>
      obtain rfl : s' = { s with log := .started s.now :: s.log } := hstep
      have hovertaken : s.overtaken = false := htimely
      refine keeping_mainLoop ⟨spaced_of_unflagged hinv hs hovertaken hgrace, ?_, ?_, ?_⟩ ?_ trivial
      · exact demotedBy_started hinv.past
      · exact hinv.told.imp_left demotedBy_started
      · exact hinv.seen.imp_right (Or.imp_left demotedBy_started)
      · exact ⟨rfl, fun _ => demotedBy_started, demotedBy_started⟩

theorem upkeep_of_deciding {op : Call} (h : PgHaDaemon.Deciding op) : Upkeep op := by
  unfold Upkeep
  split
  · trivial
  · trivial
  · unfold Aside
    split <;> first | exact h.elim | cases h | trivial

/-- The attempt of the fallback, once its guard has let it pass. -/
theorem attempt_triple (hgrace : lastDemotion + PgHaDaemon.demotionGraceMillis ≤ now) :
    Prog.Triple (among cfg .mainLoop) (Unflagged now lastDemotion)
      (do
        let peerSnap ← Mgr.host .peerSnapshot
        if peerSnap.role = .standby ∧ peerSnap.diskState = .detached then
          if ← Mgr.host (.acquireFailoverLock false) then
            (do
                if ← LocalNode.isStandby then
                  if ← FailoverEngine.shouldAttempt then
                    Mgr.host (.startThread (.runFailover true))).ensuring
              (Mgr.host .releaseFailoverLock)) (fun _ _ => True) fun _ => True := by
  have hlast {op : Call} (hop : Upkeep op) : (Prog.perform op : Mgr op.Ret).Calls Upkeep :=
    Prog.Calls.perform hop
  have hdone : Prog.Triple (among cfg .mainLoop) (Unflagged now lastDemotion)
      (Prog.pure () : Mgr Unit) (fun _ _ => True) fun _ => True := .pure fun _ _ => trivial
  refine upkeep_bind lasting_unflagged (hlast trivial) fun peerSnap => ?_
  refine .ite (fun _ => ?_) fun _ => hdone
  refine upkeep_bind lasting_unflagged (hlast trivial) fun locked => ?_
  refine .ite (fun _ => ?_) fun _ => hdone
  refine .ensuring among_monotone (R := fun _ => True) ?_
    (upkeep_keeps (fun _ _ _ => id) (hlast trivial))
  refine upkeep_bind lasting_unflagged isStandby_upkeep fun standby => ?_
  refine .ite (fun _ => ?_) fun _ => hdone
  have hpermitted : FailoverEngine.shouldAttempt.Calls Upkeep :=
    PgHaDaemon.shouldAttempt_deciding.mono fun _ => upkeep_of_deciding
  refine upkeep_bind lasting_unflagged hpermitted fun permitted => ?_
  exact .ite (fun _ => startThread_triple hgrace) fun _ => hdone

theorem heartbeatFallback_triple : Prog.Triple (among cfg .mainLoop) (fun _ => True)
    (PgHaDaemon.heartbeatFallback cfg) (fun _ _ => True) fun _ => True := by
  refine .bind among_monotone time_triple fun (now : Int) => ?_
  refine .bind among_monotone lastDemotionTs_triple fun (lastDemotion : Int) => ?_
  refine .bind among_monotone (fallbackAllowed_triple _) fun allowed => ?_
  refine .ite (fun hallowed s hs => ?_) fun _ => .pure fun _ _ => trivial
  obtain ⟨hpassed, hunflagged⟩ := hs hallowed
  have hout : ¬ now - lastDemotion < PgHaDaemon.demotionGraceMillis := of_decide_eq_false hpassed
  exact attempt_triple (by omega) s hunflagged

theorem mainLoopPass_triple : Prog.Triple (among cfg .mainLoop) (fun _ => True)
    (PgHaDaemon.mainLoopPass cfg) (fun _ _ => True) fun _ => True := by
  have hdrain : (PgHaDaemon.drainEvents cfg cfg.loopBound).Calls Upkeep :=
    (PgHaDaemon.drainEvents_deciding cfg _).mono fun _ => upkeep_of_deciding
  refine upkeep_bind (fun _ _ _ => id) hdrain fun _ => ?_
  exact .bind among_monotone (tending_keeps (PgHaDaemon.refreshState_tending cfg))
    fun _ => heartbeatFallback_triple

end MainLoop

/-! ## The switchover -/

section Switchover

/-- The operations of a switchover before it records the time. -/
def Switching : Call → Prop
  | .host (.setRole role) => role = .standby
  | op => Aside op

theorem switching_cases {op : Call} (hop : Switching op) :
    op = .host (.setRole .standby) ∨ Aside op := by
  unfold Switching at hop
  split at hop
  · subst hop
    exact .inl rfl
  · exact .inr hop

def Active (s : World) : Prop := s.switchoverActive = true

theorem stable_active : (graceContract cfg).Stable .switchover Active :=
  fun _ _ hs hrely _ => hrely.switchoverActive.trans hs

/-- A step of the switchover as the main loop sees it. -/
theorem keeping_switchover {s s' : World} {kept : Prop} (hinv : Inv s')
    (hrely : LoopRelies s s') (h : kept) : Keeping cfg .switchover kept s s' := by
  refine ⟨hinv, fun j hj => ?_, h⟩
  cases j with
  | mainLoop => exact hrely
  | switchover => exact absurd rfl hj

/-- A demotion under the flag: the flag still tells the fallback of it, unless the fallback
has consulted the flag already. -/
theorem inv_demoted {s : World} (hinv : Inv s) (hactive : Active s) :
    Inv (s.enact .switchover .standby) := by
  refine ⟨List.pairwise_cons.mpr ⟨fun _ _ => trivial, hinv.spaced⟩, ?_, .inr hactive, ?_⟩
  · intro demotion hmem
    rcases List.mem_cons.mp hmem with hnew | hold
    · cases hnew
      exact Int.le_refl _
    · exact hinv.past demotion hold
  · cases hunflagged : s.unflagged with
    | false => exact .inr (.inr ⟨hunflagged, hactive⟩)
    | true => exact .inl (by simp [World.enact, hunflagged])

theorem switching_keeps {program : Mgr α} (hcalls : program.Calls Switching) :
    Prog.Keeps (among cfg .switchover) Active program := by
  refine keeps_of_step stable_active (fun s event s' hop hinv hs _ hstep => ?_) hcalls
  obtain ⟨op, answer⟩ := event
  rcases switching_cases hop with rfl | haside
  · obtain ⟨-, rfl⟩ := hstep
    exact keeping_switchover (inv_demoted hinv hs) ⟨Int.le_refl _, rfl, rfl⟩ hs
  · obtain rfl := eq_of_aside haside hstep
    exact keeping_refl hinv hs

theorem setActive_triple : Prog.Triple (among cfg .switchover) (fun _ => True)
    (Mgr.host (.setSwitchoverActive true)) (fun _ => Active) fun _ => True := by
  refine triple_perform Contract.stable_true fun s answer s' hinv _ _ hstep => ?_
  obtain ⟨rfl, rfl⟩ := hstep
  refine keeping_switchover ⟨hinv.spaced, hinv.past, .inr rfl, ?_⟩ ⟨Int.le_refl _, rfl, rfl⟩ rfl
  rcases hinv.seen with hovertaken | hby | ⟨hflagged, -⟩
  · exact .inl hovertaken
  · exact .inr (.inl hby)
  · exact .inr (.inr ⟨hflagged, rfl⟩)

/-- The clock has been read after every demotion. -/
structure Timed (now : Int) (s : World) : Prop where
  active : Active s
  demoted : DemotedBy s now

theorem stable_timed {now : Int} : (graceContract cfg).Stable .switchover (Timed now) := by
  intro s s' hs hrely _
  exact ⟨hrely.switchoverActive.trans hs.active, hrely.demoted now hs.demoted⟩

theorem clock_triple : Prog.Triple (among cfg .switchover) Active (Mgr.host .time)
    (fun now => Timed now) fun _ => True := by
  refine triple_perform stable_active fun s answer s' hinv hs _ hstep => ?_
  obtain ⟨rfl, rfl⟩ := hstep
  exact keeping_refl hinv ⟨hs, hinv.past⟩

/-- The recorded time tells of every demotion. -/
def Recorded (s : World) : Prop := DemotedBy s s.lastDemotionTs

theorem stable_recorded : (graceContract cfg).Stable .switchover Recorded :=
  fun _ _ hs hrely _ => hrely.told hs

theorem record_triple (now : Int) : Prog.Triple (among cfg .switchover) (Timed now)
    (Mgr.host (.setLastDemotionTs now)) (fun _ => Recorded) fun _ => True := by
  refine triple_perform stable_timed fun s answer s' hinv hs _ hstep => ?_
  obtain ⟨rfl, rfl⟩ := hstep
  have hinv' : Inv { s with lastDemotionTs := now } :=
    ⟨hinv.spaced, hinv.past, .inl hs.demoted, hinv.seen⟩
  exact keeping_switchover hinv' ⟨Int.le_refl _, rfl, rfl⟩ hs.demoted

/-- The flag is cleared: a fallback that has not consulted it yet is overtaken, unless the
time that it has read tells of every demotion. -/
theorem clear_triple : Prog.Triple (among cfg .switchover) Recorded
    (Mgr.host (.setSwitchoverActive false)) (fun _ _ => True) fun _ => True := by
  refine triple_perform stable_recorded fun s answer s' hinv hs _ hstep => ?_
  obtain ⟨rfl, rfl⟩ := hstep
  refine keeping_switchover ⟨hinv.spaced, hinv.past, .inl hs, ?_⟩ ⟨Int.le_refl _, rfl, rfl⟩ trivial
  rcases hinv.seen with hovertaken | hby | ⟨hflagged, -⟩
  · exact .inl (by simp [World.flag, hovertaken])
  · exact .inr (.inl hby)
  · cases hany : s.log.any (Happening.demotedAfter s.compared) with
    | false => exact .inr (.inl (demotedBy_iff.mpr hany))
    | true => exact .inl (by simp [World.flag, hflagged, hany])

theorem switching_of_handing {op : Call} (h : SwitchoverEngine.Handing op) : Switching op := by
  unfold Switching
  split
  · exact h
  · unfold Aside
    split <;> first | exact h.elim | trivial | simp_all

theorem runSwitchover_triple : Prog.Triple (among cfg .switchover) (fun _ => True)
    (PgHaDaemon.runSwitchover cfg) (fun _ _ => True) fun _ => True := by
  have hexecute : (SwitchoverEngine.executeAsPrimary cfg).Calls Switching :=
    SwitchoverEngine.executeAsPrimary_calls cfg (fun _ => switching_of_handing) trivial trivial
      trivial fun _ _ => trivial
  have hquiet : Prog.Calls Switching (Mgr.host (.pgMonSetActive false)) :=
    Prog.Calls.perform trivial
  refine .bind among_monotone setActive_triple fun _ => ?_
  have hefm : (PgHaDaemon.efmStop cfg).Calls Switching :=
    PgHaDaemon.efmStop_calls cfg fun _ => trivial
  refine .after_keeps among_monotone (switching_keeps hquiet) (fun _ => ?_) fun _ _ => trivial
  refine .after_keeps among_monotone (switching_keeps hefm) (fun _ => ?_) fun _ _ => trivial
  refine .ensuring among_monotone (R := Active) ?_ ?_
  · exact switching_keeps (.bind hexecute fun _ => trivial)
  · exact .bind among_monotone clock_triple fun now => .bind among_monotone (record_triple now)
      fun _ => clear_triple

end Switchover

/-! ## Both threads -/

theorem graceContract_holds : (graceContract cfg).Holds where
  start i program s _ hstart := by
    cases i with
    | mainLoop =>
        obtain rfl : program = PgHaDaemon.mainLoopPass cfg := hstart
        exact Prog.wp_mono among_monotone (fun _ _ _ => trivial) (mainLoopPass_triple s trivial)
    | switchover =>
        obtain rfl : program = PgHaDaemon.runSwitchover cfg := hstart
        exact Prog.wp_mono among_monotone (fun _ _ _ => trivial) (runSwitchover_triple s trivial)
  arrive i s program s' hinv harrive _ := by
    obtain ⟨rfl, hcase⟩ := harrive
    refine ⟨hinv, fun j _ => relies_refl j s', ?_⟩
    rcases hcase with ⟨rfl, rfl⟩ | ⟨rfl, rfl⟩ <;> exact rfl
  env s s' hinv henv := by
    cases henv with
    | role role =>
        refine ⟨⟨hinv.spaced, hinv.past, hinv.told, hinv.seen⟩, fun i => ?_⟩
        cases i with
        | mainLoop => exact ⟨Int.le_refl _, rfl, rfl⟩
        | switchover => exact ⟨rfl, fun _ => id, id⟩
    | time now hnow =>
        refine ⟨⟨hinv.spaced, demotedBy_mono hinv.past hnow, hinv.told, hinv.seen⟩, fun i => ?_⟩
        cases i with
        | mainLoop => exact ⟨hnow, rfl, rfl⟩
        | switchover => exact ⟨rfl, fun _ => id, id⟩

theorem sound_of_begin (role : NodeRole) (now : Int) :
    (graceContract cfg).Sound (begin role now) := by
  have hnone (time : Int) : DemotedBy (begin role now).shared time :=
    fun _ hmem => absurd hmem List.not_mem_nil
  exact ⟨⟨.nil, hnone _, .inl (hnone _), .inr (.inl (hnone _))⟩, fun _ => trivial⟩

/-- **The grace period.**  In every run in which no overtaken fallback starts a failover and
no older time is put back, the fallback keeps its distance to every demotion. -/
theorem graceful (cfg : Config) : Graceful (timely cfg) :=
  fun role now _ hreach => (graceContract_holds.reach hreach (sound_of_begin role now)).1.spaced

/-! ## Sample runs -/

section Sample

/-- Every operation succeeds, and the peer appears as a STANDBY without the disk. -/
def obey (slot : Slot) : (op : Call) → World → Except Exc op.Ret × World
  | .disk call, s => (call.reply, s)
  | .net _, s => (.ok (), s)
  | .host call, s =>
      let peer : DaemonState :=
        ⟨{ name := "", role := .standby, diskState := .detached }, 0, 0, "UNKNOWN", false, false, 0⟩
      match call with
      | .time => (.ok s.now, s)
      | .role => (.ok s.role, s)
      | .setRole role => (.ok (), s.enact slot role)
      | .switchoverActive =>
          (.ok s.switchoverActive, { s with unflagged := !s.switchoverActive })
      | .setSwitchoverActive active => (.ok (), s.flag active)
      | .lastDemotionTs =>
          (.ok s.lastDemotionTs,
            { s with compared := s.lastDemotionTs, unflagged := false, overtaken := false })
      | .setLastDemotionTs ts => (.ok (), { s with lastDemotionTs := ts })
      | .startThread (.runFailover true) => (.ok (), { s with log := .started s.now :: s.log })
      | call => (peer.reply call, s)

theorem graceStep_obey (slot : Slot) (op : Call) (s : World) :
    graceStep slot s ⟨op, (obey slot op s).1⟩ (obey slot op s).2 := by
  cases op with
  | disk call => rfl
  | net call => rfl
  | host call =>
      cases call
      case startThread task =>
        cases task with
        | runFailover skipFence => cases skipFence <;> rfl
        | _ => rfl
      all_goals first | rfl | exact ⟨rfl, rfl⟩

/-- A thread waits where the condition would not be met. -/
def waits : Call → World → Bool
  | .host (.startThread (.runFailover true)), s => s.overtaken
  | .host (.setLastDemotionTs ts), s => s.log.any (Happening.demotedAfter ts)
  | _, _ => false

theorem timely_obey {slot : Slot} {op : Call} {s : World} (h : waits op s = false) :
    Timely slot s ⟨op, (obey slot op s).1⟩ := by
  cases slot with
  | switchover => trivial
  | mainLoop =>
      cases op with
      | disk call => trivial
      | net call => trivial
      | host call =>
          cases call
          case startThread task =>
            cases task with
            | runFailover skipFence => cases skipFence <;> first | exact h | trivial
            | _ => trivial
          case setLastDemotionTs ts => exact demotedBy_iff.mpr h
          all_goals trivial

/-- Time goes on. -/
def later (millis : Int) (state : State) : State :=
  ⟨{ state.shared with now := state.shared.now + millis }, state.prog⟩

/-- The main loop begins a pass. -/
def passing (state : State) : State :=
  state.arrived .mainLoop state.shared (PgHaDaemon.mainLoopPass .samplePrimary)

/-- A switchover is requested, and runs to its end. -/
def handedOver (stop : Call → World → Bool) (state : State) : State :=
  (state.arrived .switchover state.shared (PgHaDaemon.runSwitchover .samplePrimary)).advance
    (obey .switchover) stop .switchover 100

section

variable {allowed : Slot → World → Event Call.Ret Exc → Prop} {stop : Call → World → Bool}
  {start state : State}

/-- The runs of the sample primary in which a condition is met. -/
abbrev sampleRuns (allowed : Slot → World → Event Call.Ret Exc → Prop) :
    System Slot Call.Ret Exc Unit World :=
  (graceSystem .samplePrimary).restrict allowed

/-- The condition lets the threads obey. -/
def Lenient (allowed : Slot → World → Event Call.Ret Exc → Prop)
    (stop : Call → World → Bool) : Prop :=
  ∀ slot op s, stop op s = false → allowed slot s ⟨op, (obey slot op s).1⟩

theorem Lenient.reach_advance (hallowed : Lenient allowed stop) {slot : Slot} {count : ℕ}
    (h : (sampleRuns allowed).Reach start state) :
    (sampleRuns allowed).Reach start (state.advance (obey slot) stop slot count) :=
  h.advance (fun s op hop => ⟨hallowed slot op s hop, graceStep_obey slot op s⟩) count

theorem reach_passing (h : (sampleRuns allowed).Reach start state)
    (hidle : (state.prog .mainLoop).Finished) :
    (sampleRuns allowed).Reach start (passing state) :=
  h.arrive ⟨rfl, .inl ⟨rfl, rfl⟩⟩ hidle

theorem Lenient.reach_handedOver (hallowed : Lenient allowed stop)
    (h : (sampleRuns allowed).Reach start state) (hidle : (state.prog .switchover).Finished) :
    (sampleRuns allowed).Reach start (handedOver stop state) :=
  hallowed.reach_advance (h.arrive ⟨rfl, .inr ⟨rfl, rfl⟩⟩ hidle)

end

/-- The node hands over, and the next pass of the main loop comes thirty seconds later. -/
def patient : State :=
  (passing (later 30000 (handedOver waits (begin .primary 1000000)))).advance (obey .mainLoop) waits
    .mainLoop 100

/-- The fallback may start a failover when the grace period is over. -/
theorem graceful_patient : ∃ state,
    (timely .samplePrimary).Reach (begin .primary 1000000) state ∧
      state.shared.log = [.started 1030000, .demoted 1000000] ∧
        state.shared.log.Pairwise Spaced := by
  have hlenient : Lenient Timely waits := fun _ _ _ => timely_obey
  have hidle : ((begin .primary 1000000).prog .switchover).Finished := trivial
  have hover := hlenient.reach_handedOver .refl hidle
  have hlater : (timely .samplePrimary).Reach (begin .primary 1000000)
      (later 30000 (handedOver waits (begin .primary 1000000))) :=
    hover.env (.time _ (Int.le_add_of_nonneg_right (by decide)))
  have hfree : ((handedOver waits (begin .primary 1000000)).prog .mainLoop).Finished := trivial
  have hreach : (timely .samplePrimary).Reach (begin .primary 1000000) patient :=
    hlenient.reach_advance (reach_passing hlater hfree)
  exact ⟨patient, hreach, by decide, graceful .samplePrimary _ _ _ hreach⟩

/-- A pass of the main loop has read the clock and the time of the last demotion. -/
def looking : State :=
  (passing (begin .primary 1000000)).advance (obey .mainLoop) (fun _ _ => false) .mainLoop 7

/-- The node has handed over in between. -/
def rushed : State :=
  (handedOver (fun _ _ => false) looking).advance (obey .mainLoop) (fun _ _ => false) .mainLoop 100

/-- The fallback reads the time before the switchover records it, and the flag after the
switchover has cleared it. -/
theorem not_graceful : ¬ Graceful (graceSystem .samplePrimary) := by
  intro h
  have hlenient : Lenient (fun _ _ _ => True) fun _ _ => false := fun _ _ _ _ => trivial
  have hfree : ((begin .primary 1000000).prog .mainLoop).Finished := trivial
  have hlooking : (sampleRuns fun _ _ _ => True).Reach (begin .primary 1000000) looking :=
    hlenient.reach_advance (reach_passing .refl hfree)
  have hidle : (looking.prog .switchover).Finished := trivial
  have hreach : (sampleRuns fun _ _ _ => True).Reach (begin .primary 1000000) rushed :=
    hlenient.reach_advance (hlenient.reach_handedOver hlooking hidle)
  have hlog : rushed.shared.log = [.started 1000000, .demoted 1000000] := by decide
  have hspaced := h _ _ _ hreach.unrestrict
  rw [hlog] at hspaced
  have hgrace : (1000000 : Int) + PgHaDaemon.demotionGraceMillis ≤ 1000000 :=
    (List.pairwise_cons.mp hspaced).1 _ List.mem_cons_self
  exact absurd hgrace (by decide)

end Sample

end PgHa.Grace
