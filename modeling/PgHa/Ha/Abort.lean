import PgHa.Effect.Triple
import PgHa.Ha.Switchover
import PgHa.Model.Resources

/-!
# What an aborted switchover leaves behind

Both sides of a switchover stop at the first step that raises.  The primary side
undoes nothing: once the address has been released, the node does not serve any
more, whatever the later steps do (`serving_iff`).  The standby side undoes the
steps that it has completed, in reverse order, but not the step that raised: what
an operation has acquired although it raised stays (`undone_iff`).
-/

namespace PgHa.Abort

open Effect SwitchoverEngine

variable {cfg : Config}

/-- What a node says of its role, its database and its disk. -/
def Says (role : NodeRole) (pgState : PgState) (diskState : DiskState) (node : NodeState) : Prop :=
  node.role = role ∧ node.pgState = pgState ∧ node.diskState = diskState

theorem says_after {role : NodeRole} {pgState : PgState} {diskState : DiskState} {s : DaemonState}
    {call : HostCall} (hcall : Call.passive (.host call)) (h : Says role pgState diskState s.node) :
    Says role pgState diskState (s.after call).node := by
  cases call <;> first | exact hcall.elim | exact h

/-! ## The primary side -/

/-- An operation that raises has had no effect. -/
structure AllOrNothing (s : NodeWorld) (event : Event Call.Ret Exc) (s' : NodeWorld) : Prop where
  daemon : DaemonState.alone s.daemon event s'.daemon
  returned : ∀ value, event.answer = .ok value → s'.held = event.op.done s.held
  raised : ∀ exc, event.answer = .error exc → s'.held = s.held

/-- The node is PRIMARY, holds everything and says so. -/
structure Serving (s : NodeWorld) : Prop where
  held : ∀ r, s.held r = true
  report : Says .primary .runningPrimary .attachedRw s.daemon.node

/-- The address has been released. -/
def vipReleased (log : List (Event Call.Ret Exc)) : Prop :=
  (⟨.net .releaseVip, .ok ()⟩ : Event Call.Ret Exc) ∈ log

/-- A node among its events. -/
abbrev Logged : Type := NodeWorld × List (Event Call.Ret Exc)

/-- The hand-off has not begun to release anything. -/
def Untouched (s : Logged) : Prop := Serving s.1 ∧ ¬ vipReleased s.2

/-- The address is gone. -/
def Torn (s : Logged) : Prop := s.1.held .vip = false ∧ vipReleased s.2

abbrev allOrNothing : Transformer Call.Ret Exc Logged := demonic (logged AllOrNothing)

theorem allOrNothing_monotone : allOrNothing.Monotone := demonic_monotone _

theorem AllOrNothing.held_of_passive {s s' : NodeWorld} {event : Event Call.Ret Exc}
    (h : AllOrNothing s event s') (hop : event.op.passive) : s'.held = s.held := by
  cases hanswer : event.answer with
  | ok value => rw [h.returned value hanswer, Call.done_of_passive hop]
  | error exc => exact h.raised exc hanswer

theorem AllOrNothing.serving {s s' : NodeWorld} {event : Event Call.Ret Exc}
    (h : AllOrNothing s event s') (hop : event.op.passive) (hs : Serving s) : Serving s' := by
  have hheld : s'.held = s.held := h.held_of_passive hop
  refine ⟨fun r => by rw [hheld, hs.held r], ?_⟩
  obtain ⟨op, answer⟩ := event
  cases op with
  | host call =>
      have hafter : s'.daemon = s.daemon.after call := h.daemon.2
      rw [hafter]
      exact says_after hop hs.report
  | disk call =>
      have hsame : s'.daemon = s.daemon := h.daemon
      exact hsame ▸ hs.report
  | net call =>
      have hsame : s'.daemon = s.daemon := h.daemon
      exact hsame ▸ hs.report

theorem untouched_keeps {α : Type} {program : Mgr α} (hcalls : program.Calls Call.passive) :
    Prog.Keeps allOrNothing Untouched program := by
  apply Prog.Triple.of_calls allOrNothing_monotone _ hcalls
  rintro op hop ⟨s, log⟩ ⟨hserving, hnot⟩
  refine demonic_logged_iff.mpr ?_
  intro answer s' hstep
  refine ⟨hstep.serving hop hserving, fun hmem => ?_⟩
  rcases List.mem_append.mp hmem with hold | hnew
  · exact hnot hold
  · obtain ⟨rfl, -⟩ := Event.mk.inj (List.mem_singleton.mp hnew)
    exact hop

/-- The operations that acquire nothing. -/
def gives (op : Call) : Prop := op.acquires = none

theorem torn_keeps {α : Type} {program : Mgr α} (hcalls : program.Calls gives) :
    Prog.Keeps allOrNothing Torn program := by
  apply Prog.Triple.of_calls allOrNothing_monotone _ hcalls
  rintro op hop ⟨s, log⟩ ⟨hgone, hmem⟩
  refine demonic_logged_iff.mpr ?_
  intro answer s' hstep
  refine ⟨?_, List.mem_append_left _ hmem⟩
  have hop : op.acquires = none := hop
  cases answer with
  | error exc => rw [hstep.raised exc rfl]; exact hgone
  | ok value =>
      have hgone : s.held .vip = false := hgone
      rw [hstep.returned value rfl]
      simp [Call.done, hop, hgone]

theorem gives_of_passive {op : Call} (h : op.passive) : gives op := Call.acquires_of_passive h

theorem gives_of_minor {op : Call} (h : op.minor) : gives op := by
  cases op with
  | host call => rfl
  | _ => exact h.elim

/-- The node serves as before, or it has lost its address. -/
def Left (s : Logged) : Prop := Untouched s ∨ Torn s

theorem left_keeps {α : Type} {program : Mgr α} (hcalls : program.Calls Call.passive) :
    Prog.Keeps allOrNothing Left program := by
  rintro s (huntouched | htorn)
  · apply Prog.wp_mono allOrNothing_monotone _ (untouched_keeps hcalls s huntouched)
    intro outcome s' hend
    cases outcome with
    | stuck => trivial
    | _ => exact .inl hend
  · have hgives : program.Calls gives := hcalls.mono fun _ => gives_of_passive
    apply Prog.wp_mono allOrNothing_monotone _ (torn_keeps hgives s htorn)
    intro outcome s' hend
    cases outcome with
    | stuck => trivial
    | _ => exact .inr hend

theorem emit_passive (eventType : HaEventType) (message : String) :
    (emit cfg eventType message).Calls Call.passive := emit_calls (fun _ => trivial) _ _

/-- A release of the address that raises has had no effect. -/
theorem releaseVip_triple : Prog.Triple allOrNothing Untouched (Mgr.net .releaseVip)
    (fun _ => Torn) Untouched := by
  apply Prog.Triple.perform
  rintro ⟨s, log⟩ ⟨hserving, hnot⟩
  refine demonic_logged_iff.mpr ?_
  intro answer s' hstep
  cases answer with
  | ok value =>
      refine ⟨?_, List.mem_append_right _ (List.mem_singleton.mpr rfl)⟩
      rw [hstep.returned value rfl]
      rfl
  | error exc =>
      have hheld : s'.held = s.held := hstep.raised exc rfl
      have hdaemon : s'.daemon = s.daemon := hstep.daemon
      refine ⟨⟨fun r => by rw [hheld, hserving.held r], hdaemon ▸ hserving.report⟩, fun hmem => ?_⟩
      rcases List.mem_append.mp hmem with hold | hnew
      · exact hnot hold
      · cases List.mem_singleton.mp hnew

/-- Nothing that comes after the release of the address acquires anything. -/
theorem laterSteps_give : ∀ step ∈ (primarySteps cfg).drop 2, step.2.Calls gives := by
  intro step hstep
  have hemit (eventType : HaEventType) (message : String) :
      (emit cfg eventType message).Calls gives := (emit_minor _ _ _).mono fun _ => gives_of_minor
  simp only [primarySteps, List.drop_succ_cons, List.drop_zero, List.mem_cons, List.not_mem_nil,
    or_false] at hstep
  rcases hstep with rfl | rfl | rfl | rfl | rfl
  · exact .perform_bind rfl fun _ => Prog.Calls.perform rfl
  · exact Prog.Calls.perform rfl
  · exact .perform_bind rfl fun _ => .perform_bind rfl fun _ => hemit _ _
  · exact .perform_bind rfl fun _ => .perform_bind rfl fun _ => .perform_bind rfl fun resp =>
      .bind (Prog.calls_ofExcept _) fun cmd => .ite trivial trivial
  · exact .perform_bind rfl fun _ => .perform_bind rfl fun _ => hemit _ _

/-- The loop of the primary side: the address is released in the second step. -/
theorem primarySteps_triple : Prog.Triple allOrNothing Untouched
    (runPrimarySteps cfg (primarySteps cfg)) (fun _ => Left) Left := by
  have hfail (message : String) : Prog.Calls Call.passive (do
      emit cfg .switchoverFailed message
      pure false) := .bind (emit_passive _ _) fun _ => trivial
  have hleft {P : Logged → Prop} {α : Type} {program : Mgr α} {Q : α → Logged → Prop}
      (hP : ∀ s, P s → Left s) (h : Prog.Triple allOrNothing P program Q P) :
      Prog.Triple allOrNothing P program Q Left :=
    h.conseq allOrNothing_monotone (fun _ => id) (fun _ _ => id) hP
  have hmark (name : StepName) :
      Prog.Keeps allOrNothing Untouched (Mgr.host (.mark (.step name))) :=
    untouched_keeps (Prog.Calls.perform trivial)
  have hpreCheck : Prog.Keeps allOrNothing Untouched (stepPreCheck cfg) := by
    apply untouched_keeps
    refine .perform_bind trivial fun now => ?_
    exact pollPeer_calls cfg trivial (fun _ _ _ => trivial) (fun _ => trivial) _ _
  have hlater : Prog.Keeps allOrNothing Torn (runPrimarySteps cfg ((primarySteps cfg).drop 2)) :=
    torn_keeps
      (runPrimarySteps_calls cfg (fun _ => gives_of_minor trivial) (fun _ _ => rfl) laterSteps_give)
  have hvip : Prog.Triple allOrNothing Untouched (stepReleaseVip cfg) (fun _ => Torn) Left := by
    apply (hleft (fun _ => .inl) releaseVip_triple).bind allOrNothing_monotone
    intro _
    apply hleft fun _ => .inr
    exact torn_keeps ((emit_minor _ _ _).mono fun _ => gives_of_minor)
  apply (hleft (fun _ => .inl) (hmark .preCheck)).bind allOrNothing_monotone
  intro _
  apply (hpreCheck.attempted allOrNothing_monotone).bind allOrNothing_monotone
  intro result
  cases result with
  | error exc =>
      -- the check has failed before anything was given up
      exact (untouched_keeps (hfail _)).conseq allOrNothing_monotone (fun _ => id)
        (fun _ _ => .inl) fun _ => .inl
  | ok _ =>
      apply (hleft (fun _ => .inl) (hmark .vipRelease)).bind allOrNothing_monotone
      intro _
      apply (hvip.attempt allOrNothing_monotone).bind allOrNothing_monotone
      intro result
      cases result with
      | error exc => exact left_keeps (hfail _)
      | ok _ =>
          -- the address is gone, whatever the later steps do
          exact hlater.conseq allOrNothing_monotone (fun _ => id) (fun _ _ => .inr) fun _ => .inr

theorem executeAsPrimary_triple : Prog.Triple allOrNothing Untouched (executeAsPrimary cfg)
    (fun _ => Left) Left := by
  have huntouched {α : Type} {program : Mgr α} (hcalls : program.Calls Call.passive) :
      Prog.Triple allOrNothing Untouched program (fun _ => Untouched) Left :=
    (untouched_keeps hcalls).conseq allOrNothing_monotone (fun _ => id)
      (fun _ _ => id) fun _ => .inl
  have hrole : LocalNode.isPrimary.Calls Call.passive := .perform_bind trivial fun _ => trivial
  apply (huntouched hrole).bind allOrNothing_monotone
  intro primary
  apply Prog.Triple.ite
  · exact fun _ => .pure fun _ => .inl
  · intro _
    have hmark (mark : Mark) : (Mgr.host (.mark mark)).Calls Call.passive :=
      Prog.Calls.perform trivial
    apply (huntouched (hmark (.enter .asPrimary))).bind allOrNothing_monotone
    intro _
    refine Prog.Triple.ensuring allOrNothing_monotone (R := Left) ?_ (left_keeps (hmark _))
    apply (huntouched (emit_passive _ _)).bind allOrNothing_monotone
    intro _
    apply primarySteps_triple.bind allOrNothing_monotone
    intro succeeded
    exact left_keeps (.ite (.bind (emit_passive _ _) fun _ => trivial) trivial)

/-- **A failed hand-off.**  However `execute_as_primary` ends, the node still
serves if and only if no release of its address has succeeded. -/
theorem serving_iff (cfg : Config) (s s' : NodeWorld) (trace : List (Event Call.Ret Exc))
    (outcome : Outcome Exc Bool) (hs : Serving s) (hended : outcome ≠ .stuck)
    (htrace : (executeAsPrimary cfg).Trace trace outcome)
    (hhistory : History AllOrNothing s trace s') : Serving s' ↔ ¬ vipReleased trace := by
  have hlogged : History (logged AllOrNothing) (s, []) trace (s', [] ++ trace) :=
    hhistory.logged []
  have huntouched : Untouched (s, []) := ⟨hs, by simp [vipReleased]⟩
  have hend := Prog.trace_wp (executeAsPrimary_triple (s, []) huntouched) htrace hlogged
  have hleft : Left (s', trace) := by
    cases outcome with
    | stuck => exact absurd rfl hended
    | _ => exact hend
  rcases hleft with ⟨hserving, hnot⟩ | ⟨hgone, hreleased⟩
  · exact iff_of_true hserving hnot
  · refine iff_of_false (fun hserving => ?_) (fun hnot => hnot hreleased)
    have hheld : s'.held .vip = true := hserving.held .vip
    rw [hgone] at hheld
    cases hheld

section Sample

/-- A node on which operations do their work, except for those that raise. -/
def obey (raises : Call → Bool) : (op : Call) → NodeWorld → Except Exc op.Ret × NodeWorld
  | .host call, s => (s.daemon.reply call, ⟨s.daemon.after call, (Call.host call).done s.held⟩)
  | .disk call, s =>
      if raises (.disk call) then (.error (.runtimeError ""), s)
      else (call.reply, ⟨s.daemon, (Call.disk call).done s.held⟩)
  | .net call, s =>
      if raises (.net call) then (.error (.runtimeError ""), s)
      else (.ok (), ⟨s.daemon, (Call.net call).done s.held⟩)

/-- Nothing can be said of the failover lock. -/
def lockFree : Call → Bool
  | .host (.acquireFailoverLock _) => false
  | _ => true

variable {raises : Call → Bool}

theorem allOrNothing_obey (s : NodeWorld) (op : Call) (hop : lockFree op = true) :
    AllOrNothing s ⟨op, (obey raises op s).1⟩ (obey raises op s).2 := by
  cases op with
  | host call =>
      refine ⟨⟨?_, rfl⟩, fun _ _ => rfl, ?_⟩
      · apply DaemonState.answers_reply
        rintro blocking rfl
        cases hop
      · intro exc hraised
        cases call <;> first | rfl | cases hraised
  | disk call =>
      by_cases hraises : raises (.disk call) = true
      · have hobey : obey raises (.disk call) s = (.error (.runtimeError ""), s) := if_pos hraises
        rw [hobey]
        exact ⟨rfl, by simp, fun _ _ => rfl⟩
      · have hobey : obey raises (.disk call) s =
            (call.reply, ⟨s.daemon, (Call.disk call).done s.held⟩) := if_neg hraises
        rw [hobey]
        refine ⟨rfl, fun _ _ => rfl, fun exc hraised => ?_⟩
        cases call <;> cases hraised
  | net call =>
      by_cases hraises : raises (.net call) = true
      · have hobey : obey raises (.net call) s = (.error (.runtimeError ""), s) := if_pos hraises
        rw [hobey]
        exact ⟨rfl, by simp, fun _ _ => rfl⟩
      · have hobey : obey raises (.net call) s =
            (.ok (), ⟨s.daemon, (Call.net call).done s.held⟩) := if_neg hraises
        rw [hobey]
        exact ⟨rfl, fun _ _ => rfl, by simp⟩

/-- A PRIMARY that holds everything. -/
def primaryNode : NodeWorld where
  daemon :=
    ⟨{ name := "pg-primary", role := .primary, pgState := .runningPrimary,
        diskState := .attachedRw },
      0, 0, "UNKNOWN", false, false, 0⟩
  held _ := true

theorem serving_primaryNode : Serving primaryNode := ⟨fun _ => rfl, rfl, rfl, rfl⟩

/-- A hand-off during which one operation raises. -/
def handOff (op : Call) : Run Call.Ret Exc Bool NodeWorld :=
  (executeAsPrimary .samplePrimary).run (obey (· == op)) primaryNode

theorem history_handOff {op : Call}
    (hlog : (handOff op).log.all (fun event => lockFree event.op) = true) :
    History AllOrNothing primaryNode (handOff op).log (handOff op).final :=
  history_run_of_log allOrNothing_obey _ _ hlog

theorem not_vipReleased {log : List (Event Call.Ret Exc)}
    (h : log.all (fun event => event.op != .net .releaseVip || event.answer.toBool.not) = true) :
    ¬ vipReleased log := by
  intro hmem
  have hevent := List.all_eq_true.mp h _ hmem
  simp [Except.toBool] at hevent

/-- The address cannot be released: nothing is lost. -/
theorem serving_iff_vipRaises : Serving (handOff (.net .releaseVip)).final := by
  have htrace : (executeAsPrimary .samplePrimary).Trace (handOff (.net .releaseVip)).log
      (handOff (.net .releaseVip)).outcome := trace_run _ _ _
  apply (serving_iff .samplePrimary primaryNode _ _ _ serving_primaryNode (by decide) htrace
    (history_handOff (by decide))).mpr
  exact not_vipReleased (by decide)

/-- No request has reached the peer. -/
def unsent (log : List (Event Call.Ret Exc)) : Prop :=
  ∀ request, (⟨.host (.sendRequest request), .ok ()⟩ : Event Call.Ret Exc) ∉ log

theorem unsent_of_all {log : List (Event Call.Ret Exc)} (h : log.all (fun event =>
    match event.op with
    | .host (.sendRequest _) => false
    | _ => true) = true) : unsent log := by
  intro request hmem
  have hevent := List.all_eq_true.mp h _ hmem
  cases hevent

/-- PostgreSQL cannot be stopped, and the node has lost its address. -/
theorem not_serving : ¬ ∀ cfg s s' trace, Serving s →
    (executeAsPrimary cfg).Trace trace (.returned false) → History AllOrNothing s trace s' →
      unsent trace → Serving s' := by
  intro h
  have htrace : (executeAsPrimary .samplePrimary).Trace
      (handOff (.disk (.stopPostgres .fast))).log (.returned false) := trace_run _ _ _
  have hserving := h .samplePrimary primaryNode _ _ serving_primaryNode htrace
    (history_handOff (by decide)) (unsent_of_all (by decide))
  exact absurd (hserving.held .vip) (by decide)

end Sample

/-! ## The standby side -/

/-- A node.  `leaked` records what is held because an operation that raised has had
its effect, and no operation reads it. -/
structure LeakWorld where
  daemon : DaemonState
  held : Resource → Bool
  leaked : Resource → Bool

/-- An operation that raises may have had its effect or not, and what is to be
undone is undone. -/
structure Leaky (s : LeakWorld) (event : Event Call.Ret Exc) (s' : LeakWorld) : Prop where
  daemon : DaemonState.alone s.daemon event s'.daemon
  returned : ∀ r value, event.op.acquires = some r → event.answer = .ok value →
    s'.held = event.op.done s.held ∧ s'.leaked = Function.update s.leaked r false
  raised : ∀ r exc, event.op.acquires = some r → event.answer = .error exc →
    (s'.held = event.op.done s.held ∨ s'.held = s.held) ∧
      s'.leaked = Function.update s.leaked r (s'.held r)
  released : ∀ r, event.op.releases = some r → (∃ value, event.answer = .ok value) ∧
    s'.held = event.op.done s.held ∧ s'.leaked = s.leaked
  other : event.op.acquires = none → event.op.releases = none →
    s'.held = s.held ∧ s'.leaked = s.leaked

abbrev leaky : Transformer Call.Ret Exc LeakWorld := demonic Leaky

theorem leaky_monotone : leaky.Monotone := demonic_monotone _

/-- The step that acquires a resource. -/
def stepFor : Resource → StepName
  | .disk => .attach
  | .filesystem => .mount
  | .postgres => .pgStart
  | .vip => .vip

theorem stepFor_injective {r r' : Resource} (h : stepFor r = stepFor r') : r = r' := by
  cases r <;> cases r' <;> first | rfl | cases h

/-- The node holds what the steps of `completed` have acquired, and what has leaked.
The local state may still show the steps of `recorded`. -/
structure Failing (completed recorded : List StepName) (s : LeakWorld) : Prop where
  held : ∀ r, s.held r = (decide (stepFor r ∈ completed) || s.leaked r)
  clean : ∀ r, stepFor r ∈ completed → s.leaked r = false
  role : s.daemon.node.role = .standby
  pgState : s.daemon.node.pgState = .stopped ∨ .pgStart ∈ recorded
  diskState : s.daemon.node.diskState = .detached ∨ .attach ∈ recorded

/-- Only `r` has leaked. -/
def Trying (r : Resource) (completed : List StepName) (s : LeakWorld) : Prop :=
  Failing completed completed s ∧ ∀ r', r' ≠ r → s.leaked r' = false

/-- Nothing has leaked. -/
def Built (completed : List StepName) (s : LeakWorld) : Prop :=
  Failing completed completed s ∧ ∀ r, s.leaked r = false

/-- A STANDBY node that holds nothing. -/
structure Idle (s : LeakWorld) : Prop where
  held : ∀ r, s.held r = false
  leaked : ∀ r, s.leaked r = false
  report : Says .standby .stopped .detached s.daemon.node

/-- The promotion has been undone. -/
structure Undone (s : LeakWorld) : Prop where
  held : ∀ r, s.held r = false
  report : Says .standby .stopped .detached s.daemon.node

theorem built_of_idle {s : LeakWorld} (hs : Idle s) : Built [] s := by
  refine ⟨⟨fun r => ?_, fun r _ => hs.leaked r, hs.report.1, .inl hs.report.2.1,
    .inl hs.report.2.2⟩, hs.leaked⟩
  simp [hs.held r, hs.leaked r]

/-- What is left of a promotion whose completed steps have been undone. -/
theorem Failing.undone_iff_clean {s : LeakWorld} (hs : Failing [] [] s) :
    Undone s ↔ ∀ r, s.leaked r = false := by
  have hheld (r : Resource) : s.held r = s.leaked r := by simpa using hs.held r
  constructor
  · intro h r
    rw [← hheld r, h.held r]
  · intro h
    refine ⟨fun r => by rw [hheld r, h r], hs.role, ?_, ?_⟩
    · simpa using hs.pgState
    · simpa using hs.diskState

theorem Failing.of_same {completed recorded : List StepName} {s s' : LeakWorld}
    (hs : Failing completed recorded s) (hheld : s'.held = s.held) (hleaked : s'.leaked = s.leaked)
    (hnode : Says s.daemon.node.role s.daemon.node.pgState s.daemon.node.diskState
      s'.daemon.node) : Failing completed recorded s' := by
  obtain ⟨hrole, hpg, hdisk⟩ := hnode
  refine ⟨?_, ?_, hrole.trans hs.role, ?_, ?_⟩
  · rw [hheld, hleaked]
    exact hs.held
  · rw [hleaked]
    exact hs.clean
  · rw [hpg]
    exact hs.pgState
  · rw [hdisk]
    exact hs.diskState

/-- Later steps may be recorded as well. -/
theorem Failing.weaken {completed recorded recorded' : List StepName} {s : LeakWorld}
    (hs : Failing completed recorded s)
    (hpg : StepName.pgStart ∈ recorded → StepName.pgStart ∈ recorded')
    (hdisk : StepName.attach ∈ recorded → StepName.attach ∈ recorded') :
    Failing completed recorded' s :=
  ⟨hs.held, hs.clean, hs.role, hs.pgState.imp_right hpg, hs.diskState.imp_right hdisk⟩

/-- The managers do not write the node. -/
theorem Leaky.node {s s' : LeakWorld} {op : Call} {answer : Except Exc op.Ret}
    (h : Leaky s ⟨op, answer⟩ s') (hhost : ∀ call, op ≠ .host call) : s'.daemon = s.daemon := by
  cases op with
  | host call => exact absurd rfl (hhost call)
  | disk call => exact h.daemon
  | net call => exact h.daemon

/-- A passive operation changes nothing that is spoken about. -/
theorem Leaky.passive {s s' : LeakWorld} {event : Event Call.Ret Exc} (h : Leaky s event s')
    (hop : event.op.passive) : s'.held = s.held ∧ s'.leaked = s.leaked ∧
      Says s.daemon.node.role s.daemon.node.pgState s.daemon.node.diskState s'.daemon.node := by
  obtain ⟨hheld, hleaked⟩ := h.other (Call.acquires_of_passive hop) (Call.releases_of_passive hop)
  refine ⟨hheld, hleaked, ?_⟩
  obtain ⟨op, answer⟩ := event
  cases op with
  | host call =>
      have hafter : s'.daemon = s.daemon.after call := h.daemon.2
      rw [hafter]
      exact says_after hop ⟨rfl, rfl, rfl⟩
  | disk call =>
      have hsame : s'.daemon = s.daemon := h.daemon
      exact hsame ▸ ⟨rfl, rfl, rfl⟩
  | net call =>
      have hsame : s'.daemon = s.daemon := h.daemon
      exact hsame ▸ ⟨rfl, rfl, rfl⟩

/-- What only speaks of the resources and of the local state. -/
def Stable (P : LeakWorld → Prop) : Prop :=
  ∀ s s', P s → s'.held = s.held → s'.leaked = s.leaked →
    Says s.daemon.node.role s.daemon.node.pgState s.daemon.node.diskState s'.daemon.node → P s'

theorem stable_failing {completed recorded : List StepName} :
    Stable (Failing completed recorded) := fun _ _ hs => hs.of_same

theorem stable_trying {r : Resource} {completed : List StepName} :
    Stable (Trying r completed) := by
  rintro s s' ⟨hs, hclean⟩ hheld hleaked hnode
  exact ⟨hs.of_same hheld hleaked hnode, by rw [hleaked]; exact hclean⟩

theorem stable_built {completed : List StepName} : Stable (Built completed) := by
  rintro s s' ⟨hs, hclean⟩ hheld hleaked hnode
  exact ⟨hs.of_same hheld hleaked hnode, by rw [hleaked]; exact hclean⟩

theorem Stable.keeps {P : LeakWorld → Prop} (hP : Stable P) {α : Type} {program : Mgr α}
    (hcalls : program.Calls Call.passive) : Prog.Keeps leaky P program := by
  apply Prog.Triple.of_calls leaky_monotone _ hcalls
  intro op hop s hs answer s' hstep
  obtain ⟨hheld, hleaked, hnode⟩ := hstep.passive hop
  exact hP s s' hs hheld hleaked hnode

/-- An operation that acquires the resource of the step under way. -/
theorem acquire_triple {r : Resource} {completed : List StepName} (hnew : stepFor r ∉ completed)
    (op : Call) (hacquires : op.acquires = some r) (hhost : ∀ call, op ≠ .host call) :
    Prog.Triple leaky (Trying r completed) (Prog.perform op)
      (fun _ => Built (stepFor r :: completed)) (Trying r completed) := by
  apply Prog.Triple.perform
  rintro s ⟨hs, hclean⟩ answer s' hstep
  have hnode := hstep.node hhost
  -- only one resource is concerned
  have hother (r' : Resource) (hr : r' ≠ r) : op.done s.held r' = s.held r' := by
    have hreleases : op.releases = none := by
      cases hop : op.releases with
      | none => rfl
      | some r'' => rw [Call.acquires_of_releases hop] at hacquires; cases hacquires
    simp [Call.done, hacquires, hreleases, hr.symm]
  have hself : op.done s.held r = true := by simp [Call.done, hacquires]
  cases answer with
  | ok value =>
      obtain ⟨hheld, hleaked⟩ := hstep.returned r value hacquires rfl
      have hnone (r' : Resource) : s'.leaked r' = false := by
        rw [hleaked]
        by_cases hr : r' = r
        · rw [hr, Function.update_self]
        · rw [Function.update_of_ne hr, hclean r' hr]
      refine ⟨⟨fun r' => ?_, fun r' _ => hnone r', hnode ▸ hs.role, ?_, ?_⟩, hnone⟩
      · rw [hnone r', hheld]
        by_cases hr : r' = r
        · rw [hr, hself]
          simp
        · have hne : stepFor r' ≠ stepFor r := fun h => hr (stepFor_injective h)
          rw [hother r' hr, hs.held r', hclean r' hr]
          simp [hne]
      · exact (hnode ▸ hs.pgState).imp_right (List.mem_cons_of_mem _)
      · exact (hnode ▸ hs.diskState).imp_right (List.mem_cons_of_mem _)
  -- an acquisition that raises may have had its effect, and then it is leaked
  | error exc =>
      obtain ⟨hheld, hleaked⟩ := hstep.raised r exc hacquires rfl
      have hleft (r' : Resource) (hr : r' ≠ r) : s'.held r' = s.held r' ∧
          s'.leaked r' = s.leaked r' := by
        refine ⟨?_, by rw [hleaked, Function.update_of_ne hr]⟩
        rcases hheld with hdone | hsame
        · rw [hdone, hother r' hr]
        · rw [hsame]
      refine ⟨⟨fun r' => ?_, fun r' hr' => ?_, hnode ▸ hs.role, hnode ▸ hs.pgState,
        hnode ▸ hs.diskState⟩, fun r' hr => (hleft r' hr).2.trans (hclean r' hr)⟩
      · by_cases hr : r' = r
        · rw [hr, hleaked, Function.update_self]
          simp [hnew]
        · rw [(hleft r' hr).1, (hleft r' hr).2, hs.held r']
      · have hr : r' ≠ r := by
          rintro rfl
          exact hnew hr'
        rw [(hleft r' hr).2, hs.clean r' hr']

/-! ### The steps -/

/-- A step that raises leaves no more than its own resource behind. -/
abbrev Builds (completed : List StepName) (name : StepName) (step : Mgr Unit) : Prop :=
  Prog.Triple leaky (Built completed) step (fun _ => Built (name :: completed))
    (Failing completed completed)

theorem Built.trying {completed : List StepName} {s : LeakWorld} (hs : Built completed s)
    (r : Resource) : Trying r completed s :=
  ⟨hs.1, fun r' _ => hs.2 r'⟩

/-- A step that acquires its resource and then records that. -/
theorem acquire_builds {r : Resource} {completed : List StepName} (hnew : stepFor r ∉ completed)
    (op : Call) (hacquires : op.acquires = some r) (hhost : ∀ call, op ≠ .host call) :
    Prog.Triple leaky (Built completed) (Prog.perform op)
      (fun _ => Built (stepFor r :: completed)) (Failing completed completed) :=
  (acquire_triple hnew op hacquires hhost).conseq leaky_monotone (fun _ hs => hs.trying r)
    (fun _ _ => id) fun _ hs => hs.1

theorem setDiskState_triple {completed : List StepName} {E : LeakWorld → Prop} :
    Prog.Triple leaky (Built (.attach :: completed)) (Mgr.host (.setDiskState .attachedRw))
      (fun _ => Built (.attach :: completed)) E := by
  apply Prog.Triple.perform
  rintro s ⟨hs, hclean⟩ answer s' hstep
  obtain ⟨hheld, hleaked⟩ := hstep.other rfl rfl
  obtain ⟨rfl, hdaemon⟩ := hstep.daemon
  refine ⟨⟨?_, ?_, hdaemon ▸ hs.role, hdaemon ▸ hs.pgState, .inr List.mem_cons_self⟩, ?_⟩
  · rw [hheld, hleaked]
    exact hs.held
  · rw [hleaked]
    exact hs.clean
  · rw [hleaked]
    exact hclean

theorem setPgState_triple {completed : List StepName} {E : LeakWorld → Prop} :
    Prog.Triple leaky (Built (.pgStart :: completed)) (Mgr.host (.setPgState .runningPrimary))
      (fun _ => Built (.pgStart :: completed)) E := by
  apply Prog.Triple.perform
  rintro s ⟨hs, hclean⟩ answer s' hstep
  obtain ⟨hheld, hleaked⟩ := hstep.other rfl rfl
  obtain ⟨rfl, hdaemon⟩ := hstep.daemon
  refine ⟨⟨?_, ?_, hdaemon ▸ hs.role, .inr List.mem_cons_self, hdaemon ▸ hs.diskState⟩, ?_⟩
  · rw [hheld, hleaked]
    exact hs.held
  · rw [hleaked]
    exact hs.clean
  · rw [hleaked]
    exact hclean

theorem stepAttachDisk_builds : Builds [] .attach (stepAttachDisk cfg) := by
  have hpassive : (Mgr.disk .currentRwHolder).Calls Call.passive :=
    Prog.Calls.perform trivial
  have hholder : Prog.Triple leaky (Built []) (Mgr.disk .currentRwHolder) (fun _ => Built [])
      (Failing [] []) :=
    (stable_built.keeps hpassive).conseq leaky_monotone (fun _ => id) (fun _ _ => id)
      fun _ hs => hs.1
  apply hholder.bind leaky_monotone
  intro holder
  apply Prog.Triple.ite
  · exact fun _ => .raise fun _ hs => hs.1
  · intro _
    have hattach : Builds [] .attach (Mgr.disk .attachDiskRw) :=
      acquire_builds (r := .disk) (by simp) (.disk .attachDiskRw) rfl (by simp)
    apply hattach.bind leaky_monotone
    exact fun _ => setDiskState_triple

/-- The retry loop, by induction on the attempts that are left: an attempt that
raised may have left the database running. -/
theorem startPostgresFrom_triple (left : ℕ) (hleft : left ≠ 0) :
    Prog.Triple leaky (Trying .postgres [.mount, .attach]) (startPostgresFrom cfg left)
      (fun _ => Built [.pgStart, .mount, .attach]) (Trying .postgres [.mount, .attach]) := by
  induction left with
  | zero => exact absurd rfl hleft
  | succ left ih =>
      have hstart : Prog.Triple leaky (Trying .postgres [.mount, .attach]) (Mgr.disk .startPostgres)
          (fun _ => Built [.pgStart, .mount, .attach]) (Trying .postgres [.mount, .attach]) :=
        acquire_triple (by decide) (.disk .startPostgres) rfl (by simp)
      refine Prog.Triple.except leaky_monotone (R := Trying .postgres [.mount, .attach]) ?_ ?_
      · apply hstart.bind leaky_monotone
        exact fun _ => setPgState_triple
      · intro exc
        apply Prog.Triple.ite _ fun _ => Prog.Triple.raise fun _ => id
        rintro ⟨-, hagain⟩
        have hcleanup : (removeStalePidFile cfg).Calls Call.passive :=
          removeStalePidFile_calls (fun _ => trivial) fun _ => trivial
        apply (stable_trying.keeps hcleanup).bind leaky_monotone
        intro _
        have hsleep : (Mgr.host (.sleep 3000)).Calls Call.passive :=
          Prog.Calls.perform trivial
        apply (stable_trying.keeps hsleep).bind leaky_monotone
        exact fun _ => ih hagain

theorem stepStartPostgres_builds : Builds [.mount, .attach] .pgStart (stepStartPostgres cfg) :=
  (startPostgresFrom_triple 3 (by decide)).conseq leaky_monotone (fun _ hs => hs.trying .postgres)
    (fun _ _ => id) fun _ hs => hs.1

theorem stepMountDisk_builds : Builds [.attach] .mount stepMountDisk :=
  acquire_builds (r := .filesystem) (by decide) (.disk .mountDisk) rfl (by simp)

/-- Events are dropped when the queue is full. -/
theorem emit_triple {P E : LeakWorld → Prop} (hP : Stable P) (eventType : HaEventType)
    (message : String) : Prog.Triple leaky P (emit cfg eventType message) (fun _ => P) E := by
  intro s hs
  rw [emit, Prog.wp_except, Prog.wp_perform]
  intro answer s' hstep
  obtain ⟨hheld, hleaked, hnode⟩ := hstep.passive trivial
  have hs' : P s' := hP s s' hs hheld hleaked hnode
  cases answer with
  | ok _ => exact hs'
  | error exc =>
      have hfull : exc.cls = .queueFull := hstep.daemon.1 exc rfl
      rw [Prog.answered_error, Prog.handled_raised, if_pos hfull]
      exact hs'

theorem stepAcquireVip_builds :
    Builds [.pgStart, .mount, .attach] .vip (stepAcquireVip cfg) := by
  have hacquire : Builds [.pgStart, .mount, .attach] .vip (Mgr.net .acquireVip) :=
    acquire_builds (r := .vip) (by decide) (.net .acquireVip) rfl (by simp)
  apply hacquire.bind leaky_monotone
  exact fun _ => emit_triple stable_built _ _

/-- The last step does not raise. -/
theorem stepPromote_triple {P E : LeakWorld → Prop} :
    Prog.Triple leaky P (stepPromote cfg) (fun _ _ => True) E := by
  have hrole : Prog.Triple leaky P (Mgr.host (.setRole .primary)) (fun _ _ => True) E := by
    apply Prog.Triple.perform
    intro s hs answer s' hstep
    obtain ⟨rfl, -⟩ := hstep.daemon
    trivial
  have hhealth : Prog.Triple leaky (fun _ => True) (Mgr.host (.setHealth .healthy))
      (fun _ _ => True) E := by
    apply Prog.Triple.perform
    intro s hs answer s' hstep
    obtain ⟨rfl, -⟩ := hstep.daemon
    trivial
  apply hrole.bind leaky_monotone
  intro _
  apply hhealth.bind leaky_monotone
  exact fun _ => emit_triple (fun _ _ _ _ _ _ => trivial) _ _

/-! ### The rollback -/

/-- To undo a step is to hold its resource no longer. -/
theorem release_triple {r : Resource} {rest recorded : List StepName} (hnew : stepFor r ∉ rest)
    {E : LeakWorld → Prop} (op : Call) (hreleases : op.releases = some r)
    (hhost : ∀ call, op ≠ .host call) :
    Prog.Triple leaky (Failing (stepFor r :: rest) recorded) (Prog.perform op)
      (fun _ => Failing rest recorded) E := by
  apply Prog.Triple.perform
  intro s hs answer s' hstep
  have hnode := hstep.node hhost
  obtain ⟨⟨value, hanswer⟩, hheld, hleaked⟩ := hstep.released r hreleases
  have hanswer : answer = .ok value := hanswer
  rw [hanswer]
  have hacquires : op.acquires = none := Call.acquires_of_releases hreleases
  refine ⟨fun r' => ?_, fun r' hr' => ?_, hnode ▸ hs.role, hnode ▸ hs.pgState, hnode ▸ hs.diskState⟩
  · rw [hheld, hleaked]
    by_cases hr : r' = r
    · rw [hr, hs.clean r List.mem_cons_self]
      simp [Call.done, hacquires, hreleases, hnew]
    · have hne : stepFor r' ≠ stepFor r := fun h => hr (stepFor_injective h)
      have hsame : op.done s.held r' = s.held r' := by
        simp [Call.done, hacquires, hreleases, Ne.symm hr]
      rw [hsame, hs.held r']
      simp [hne]
  · rw [hleaked]
    exact hs.clean r' (List.mem_cons_of_mem _ hr')

theorem undo_triple (name : StepName) {rest : List StepName} (hnew : name ∉ rest)
    {E : LeakWorld → Prop} : Prog.Triple leaky (Failing (name :: rest) (name :: rest)) (undo name)
      (fun _ => Failing rest rest) E := by
  -- a step that acquires nothing has nothing to undo
  have hnothing (hother : ∀ r, stepFor r ≠ name) (s : LeakWorld)
      (hs : Failing (name :: rest) (name :: rest) s) : Failing rest rest s := by
    refine ⟨fun r => ?_, fun r hr => hs.clean r (List.mem_cons_of_mem _ hr), hs.role, ?_, ?_⟩
    · rw [hs.held r]
      simp [hother r]
    · refine hs.pgState.imp_right fun hmem => (List.mem_cons.mp hmem).resolve_left ?_
      exact hother .postgres
    · refine hs.diskState.imp_right fun hmem => (List.mem_cons.mp hmem).resolve_left ?_
      exact hother .disk
  cases name with
  | pgStart =>
      apply (release_triple (r := .postgres) hnew (.disk (.stopPostgres .immediate)) rfl
        (by simp)).bind leaky_monotone
      intro _
      apply Prog.Triple.perform
      intro s hs answer s' hstep
      obtain ⟨hheld, hleaked⟩ := hstep.other rfl rfl
      obtain ⟨rfl, hdaemon⟩ := hstep.daemon
      have hdisk : s'.daemon.node.diskState = s.daemon.node.diskState := by rw [hdaemon]; rfl
      refine ⟨?_, ?_, hdaemon ▸ hs.role, hdaemon ▸ .inl rfl, ?_⟩
      · rw [hheld, hleaked]
        exact hs.held
      · rw [hleaked]
        exact hs.clean
      · rw [hdisk]
        exact hs.diskState.imp_right fun h => (List.mem_cons.mp h).resolve_left (by decide)
  | attach =>
      apply (release_triple (r := .disk) hnew (.disk .detachDisk) rfl (by simp)).bind leaky_monotone
      intro _
      apply Prog.Triple.perform
      intro s hs answer s' hstep
      obtain ⟨hheld, hleaked⟩ := hstep.other rfl rfl
      obtain ⟨rfl, hdaemon⟩ := hstep.daemon
      have hpg : s'.daemon.node.pgState = s.daemon.node.pgState := by rw [hdaemon]; rfl
      refine ⟨?_, ?_, hdaemon ▸ hs.role, ?_, hdaemon ▸ .inl rfl⟩
      · rw [hheld, hleaked]
        exact hs.held
      · rw [hleaked]
        exact hs.clean
      · rw [hpg]
        exact hs.pgState.imp_right fun h => (List.mem_cons.mp h).resolve_left (by decide)
  | mount =>
      apply (release_triple (r := .filesystem) hnew (.disk .unmountDisk) rfl (by simp)).conseq
        leaky_monotone (fun _ => id) _ fun _ => id
      intro _ s hs
      exact hs.weaken (fun h => (List.mem_cons.mp h).resolve_left (by decide))
        fun h => (List.mem_cons.mp h).resolve_left (by decide)
  | vip =>
      apply (release_triple (r := .vip) hnew (.net .releaseVip) rfl (by simp)).conseq
        leaky_monotone (fun _ => id) _ fun _ => id
      intro _ s hs
      exact hs.weaken (fun h => (List.mem_cons.mp h).resolve_left (by decide))
        fun h => (List.mem_cons.mp h).resolve_left (by decide)
  | _ => exact .pure (hnothing (fun r => by cases r <;> decide))

/-- The rollback, by induction on the completed steps that are left. -/
theorem rollbackPromotion_triple (completed : List StepName) (hnodup : completed.Nodup)
    {E : LeakWorld → Prop} : Prog.Triple leaky (Failing completed completed)
      (rollbackPromotion completed) (fun _ => Failing [] []) E := by
  induction completed with
  | nil => exact .pure fun _ => id
  | cons name rest ih =>
      obtain ⟨hnew, hrest⟩ := List.nodup_cons.mp hnodup
      have hundo : Prog.Triple leaky (Failing (name :: rest) (name :: rest)) (undo name)
          (fun _ => Failing rest rest) (Failing rest rest) := undo_triple name hnew
      apply (hundo.attempted leaky_monotone).bind leaky_monotone
      exact fun _ => ih hrest

/-! ### The sequence -/

/-- A promotion that has failed has been undone but for what has leaked. -/
abbrev Fails (succeeded : Bool) (s : LeakWorld) : Prop := succeeded = false → Failing [] [] s

theorem stable_fails (succeeded : Bool) : Stable (Fails succeeded) :=
  fun _ _ hs hheld hleaked hnode hfailed => (hs hfailed).of_same hheld hleaked hnode

/-- One pass of the loop of `execute_as_standby`. -/
theorem runStandbySteps_cons {completed : List StepName} {name : StepName} {step : Mgr Unit}
    {rest : List (StepName × Mgr Unit)} (hnodup : completed.Nodup)
    (hstep : Builds completed name step)
    (hrest : Prog.Triple leaky (Built (name :: completed))
      (runStandbySteps cfg (name :: completed) rest) Fails fun _ => True) :
    Prog.Triple leaky (Built completed) (runStandbySteps cfg completed ((name, step) :: rest)) Fails
      fun _ => True := by
  have hmark : (Mgr.host (.mark (.step name))).Calls Call.passive :=
    Prog.Calls.perform trivial
  apply Prog.Triple.after_keeps leaky_monotone (stable_built.keeps hmark) _ fun _ _ => trivial
  intro _
  apply (hstep.attempt leaky_monotone).bind leaky_monotone
  intro result
  cases result with
  | ok _ => exact hrest
  | error exc =>
      -- the step that has raised is not among the completed ones that are undone
      apply (emit_triple stable_failing _ _).bind leaky_monotone
      intro _
      apply (rollbackPromotion_triple completed hnodup).bind leaky_monotone
      exact fun _ => .pure fun _ hs _ => hs

theorem standbySteps_triple : Prog.Triple leaky (Built [])
    (runStandbySteps cfg [] (standbySteps cfg)) Fails fun _ => True := by
  apply runStandbySteps_cons (by decide) stepAttachDisk_builds
  apply runStandbySteps_cons (by decide) stepMountDisk_builds
  apply runStandbySteps_cons (by decide) stepStartPostgres_builds
  apply runStandbySteps_cons (by decide) stepAcquireVip_builds
  -- the promotion itself always succeeds
  have hmark : (Mgr.host (.mark (.step .promote))).Calls Call.passive :=
    Prog.Calls.perform trivial
  apply Prog.Triple.after_keeps leaky_monotone (stable_built.keeps hmark) _ fun _ _ => trivial
  intro _
  have hpromote : Prog.Triple leaky (Built [.vip, .pgStart, .mount, .attach]) (stepPromote cfg)
      (fun _ _ => True) fun _ => False := stepPromote_triple
  apply (hpromote.attempt leaky_monotone).bind leaky_monotone
  intro result
  cases result with
  | ok _ => exact .pure fun _ _ h => by cases h
  | error exc => exact fun _ h => h.elim

theorem executeAsStandby_triple : Prog.Triple leaky (Built []) (executeAsStandby cfg) Fails
    fun _ => True := by
  have hkeeps {P : LeakWorld → Prop} (hP : Stable P) {α : Type} {program : Mgr α}
      (hcalls : program.Calls Call.passive) :
      Prog.Triple leaky P program (fun _ => P) fun _ => True :=
    (hP.keeps hcalls).conseq leaky_monotone (fun _ => id) (fun _ _ => id) fun _ _ => trivial
  have hrole : LocalNode.isStandby.Calls Call.passive := .perform_bind trivial fun _ => trivial
  have hmark (mark : Mark) : (Mgr.host (.mark mark)).Calls Call.passive :=
    Prog.Calls.perform trivial
  apply (hkeeps stable_built hrole).bind leaky_monotone
  intro standby
  apply Prog.Triple.ite
  · exact fun _ => .pure fun _ hs _ => hs.1
  · intro _
    apply (hkeeps stable_built (hmark (.enter .asStandby))).bind leaky_monotone
    intro _
    have hbody : Prog.Triple leaky (Built []) (do
        if ← runStandbySteps cfg [] (standbySteps cfg) then
          emit cfg .switchoverCompleted s!"{cfg.cluster.nodeName} promoted to PRIMARY"
          pure true
        else
          pure false) Fails fun _ => True := by
      apply standbySteps_triple.bind leaky_monotone
      intro succeeded
      apply Prog.Triple.ite
      · intro _
        apply (emit_triple (stable_fails succeeded) _ _).bind leaky_monotone
        exact fun _ => .pure fun _ _ h => by cases h
      · intro hfailed
        exact .pure fun _ hs _ => hs (by simpa using hfailed)
    apply (hbody.attempt leaky_monotone).bind leaky_monotone
    intro result
    -- the end of the sequence is recorded whether it has failed or raised
    have hleave (P : LeakWorld → Prop) (hP : Stable P) := hkeeps hP (hmark (.leave .asStandby))
    cases result with
    | ok succeeded =>
        apply (hleave _ (stable_fails succeeded)).bind leaky_monotone
        exact fun _ => .pure fun _ => id
    | error exc =>
        apply (hleave (fun _ => True) fun _ _ _ _ _ _ => trivial).bind leaky_monotone
        exact fun _ => .raise fun _ => id

/-- **A failed promotion.**  When `execute_as_standby` returns False, the promotion
has been undone if and only if no operation that raised has left anything behind. -/
theorem undone_iff (cfg : Config) (s s' : LeakWorld) (trace : List (Event Call.Ret Exc))
    (hs : Idle s) (htrace : (executeAsStandby cfg).Trace trace (.returned false))
    (hhistory : History Leaky s trace s') : Undone s' ↔ ∀ r, s'.leaked r = false := by
  have hfailing : Failing [] [] s' :=
    Prog.trace_wp (executeAsStandby_triple s (built_of_idle hs)) htrace hhistory rfl
  exact hfailing.undone_iff_clean

section StandbySample

/-- A node on which operations do their work; those that raise do it if they are
`effective`. -/
def leakyObey (raises effective : Call → Bool) (op : Call) (s : LeakWorld) :
    Except Exc op.Ret × LeakWorld :=
  let done := obey (fun _ => false) op ⟨s.daemon, s.held⟩
  match op.acquires with
  | some r =>
      if raises op then
        let held := if effective op then op.done s.held else s.held
        (.error ⟨.subprocessTimeout, "timed out"⟩,
          ⟨s.daemon, held, Function.update s.leaked r (held r)⟩)
      else (done.1, ⟨s.daemon, op.done s.held, Function.update s.leaked r false⟩)
  | none => (done.1, ⟨done.2.daemon, op.done s.held, s.leaked⟩)

variable {raises effective : Call → Bool}

theorem done_of_neither {op : Call} (hacquires : op.acquires = none)
    (hreleases : op.releases = none) (held : Resource → Bool) : op.done held = held := by
  funext r
  simp [Call.done, hacquires, hreleases]

/-- An operation that acquires nothing. -/
theorem leaky_of_other (s : LeakWorld) (op : Call) (hop : lockFree op = true)
    (hacquires : op.acquires = none) :
    Leaky s ⟨op, (leakyObey raises effective op s).1⟩ (leakyObey raises effective op s).2 := by
  have hobey : leakyObey raises effective op s =
      ((obey (fun _ => false) op ⟨s.daemon, s.held⟩).1,
        ⟨(obey (fun _ => false) op ⟨s.daemon, s.held⟩).2.daemon, op.done s.held, s.leaked⟩) := by
    simp only [leakyObey, hacquires]
  rw [hobey]
  refine ⟨(allOrNothing_obey _ op hop).daemon, ?_, ?_, ?_, ?_⟩
  · intro r value h
    rw [hacquires] at h
    cases h
  · intro r exc h
    rw [hacquires] at h
    cases h
  · intro r hreleases
    refine ⟨?_, rfl, rfl⟩
    cases op with
    | host call => cases call <;> first | exact ⟨_, rfl⟩ | cases hreleases
    | disk call => cases call <;> exact ⟨_, rfl⟩
    | net call => exact ⟨_, rfl⟩
  · exact fun _ hreleases => ⟨done_of_neither hacquires hreleases _, rfl⟩

/-- An operation that acquires a resource, with the answer and the effect that are chosen
for it. -/
theorem leaky_of_acquires {s : LeakWorld} {op : Call} {r : Resource}
    (hacquires : op.acquires = some r) {answer : Except Exc op.Ret} {held : Resource → Bool}
    (hheld : held = op.done s.held ∨ held = s.held)
    (hanswer : answer.toBool = true → held = op.done s.held) :
    Leaky s ⟨op, answer⟩
      ⟨s.daemon, held, Function.update s.leaked r (!answer.toBool && held r)⟩ := by
  refine ⟨?_, ?_, ?_, ?_, ?_⟩
  · cases op with
    | host call => cases hacquires
    | disk call => exact rfl
    | net call => exact rfl
  · intro r' value h hreturned
    obtain rfl : r = r' := Option.some.inj (hacquires.symm.trans h)
    have hok : answer = .ok value := hreturned
    exact ⟨hanswer (by rw [hok]; rfl), by simp [hok, Except.toBool]⟩
  · intro r' exc h hraised
    obtain rfl : r = r' := Option.some.inj (hacquires.symm.trans h)
    have herror : answer = .error exc := hraised
    exact ⟨hheld, by simp [herror, Except.toBool]⟩
  · intro r' h
    rw [Call.acquires_of_releases h] at hacquires
    cases hacquires
  · intro h
    cases hacquires.symm.trans h

theorem leaky_leakyObey (s : LeakWorld) (op : Call) (hop : lockFree op = true) :
    Leaky s ⟨op, (leakyObey raises effective op s).1⟩ (leakyObey raises effective op s).2 := by
  cases hacquires : op.acquires with
  | none => exact leaky_of_other s op hop hacquires
  | some r =>
      by_cases hraises : raises op = true
      · have hobey : leakyObey raises effective op s =
            (.error ⟨.subprocessTimeout, "timed out"⟩,
              ⟨s.daemon, if effective op then op.done s.held else s.held,
                Function.update s.leaked r
                  ((if effective op then op.done s.held else s.held) r)⟩) := by
          simp only [leakyObey, hacquires, hraises, if_true]
        rw [hobey]
        refine leaky_of_acquires hacquires ?_ fun h => by cases h
        -- it raises before it takes effect, or after
        by_cases heffective : effective op = true
        · exact .inl (if_pos heffective)
        · exact .inr (if_neg heffective)
      · obtain ⟨value, hvalue⟩ :
            ∃ value, (obey (fun _ => false) op ⟨s.daemon, s.held⟩).1 = .ok value := by
          cases op with
          | host call => cases hacquires
          | disk call => cases call <;> exact ⟨_, rfl⟩
          | net call => exact ⟨_, rfl⟩
        have hobey : leakyObey raises effective op s =
            (.ok value, ⟨s.daemon, op.done s.held, Function.update s.leaked r false⟩) := by
          simp only [leakyObey, hacquires, hraises]
          rw [hvalue]
          rfl
        rw [hobey]
        exact leaky_of_acquires hacquires (.inl rfl) fun _ => rfl

/-- A STANDBY that holds nothing. -/
def standbyNode : LeakWorld where
  daemon :=
    ⟨{ name := "pg-standby", role := .standby, pgState := .stopped, diskState := .detached },
      0, 0, "UNKNOWN", false, false, 0⟩
  held _ := false
  leaked _ := false

theorem idle_standbyNode : Idle standbyNode := ⟨fun _ => rfl, fun _ => rfl, rfl, rfl, rfl⟩

/-- A promotion during which one operation raises, with or without its effect. -/
def promotion (op : Call) (effective : Bool) : Run Call.Ret Exc Bool LeakWorld :=
  (executeAsStandby .sampleStandby).run (leakyObey (· == op) fun _ => effective) standbyNode

theorem history_promotion {op : Call} {effective : Bool}
    (hlog : (promotion op effective).log.all (fun event => lockFree event.op) = true) :
    History Leaky standbyNode (promotion op effective).log (promotion op effective).final :=
  history_run_of_log leaky_leakyObey _ _ hlog

/-- The filesystem cannot be mounted, and is not: the attachment is undone. -/
theorem undone_iff_mountRaises : Undone (promotion (.disk .mountDisk) false).final := by
  have htrace : (executeAsStandby .sampleStandby).Trace (promotion (.disk .mountDisk) false).log
      (.returned false) := trace_run _ _ _
  apply (undone_iff .sampleStandby standbyNode _ _ idle_standbyNode htrace
    (history_promotion (by decide))).mpr
  intro r
  cases r <;> decide

/-- `pg_ctl start` times out, and PostgreSQL comes up: it is not stopped. -/
theorem not_undone : ¬ ∀ cfg s s' trace, Idle s →
    (executeAsStandby cfg).Trace trace (.returned false) → History Leaky s trace s' →
      Undone s' := by
  intro h
  have htrace : (executeAsStandby .sampleStandby).Trace
      (promotion (.disk .startPostgres) true).log (.returned false) := trace_run _ _ _
  have hundone := h .sampleStandby standbyNode _ _ idle_standbyNode htrace
    (history_promotion (by decide))
  exact absurd (hundone.held .postgres) (by decide)

end StandbySample

end PgHa.Abort
