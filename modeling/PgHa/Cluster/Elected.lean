import PgHa.Cluster.Election
import PgHa.Effect.Triple
import PgHa.Gcp.Network
import PgHa.Model.Resources

/-!
# How an election ends

An election that competes for the disk attaches it under a handler for RuntimeError
only, while `attach_disk_rw` also raises what waiting for an operation and refreshing
the credentials raise.  Every other exception of an operation is handled, and the node
falls back to STANDBY (`elected_iff`).
-/

namespace PgHa.Elected

open Effect ElectionManager

variable {cfg : Config}

/-- The implementation of the operation can come to this answer. -/
def Possible (cfg : Config) (event : Event Call.Ret Exc) : Prop :=
  ∃ trace, (managers cfg event.op).Trace trace (Prog.answered event.answer)

/-- An operation of the election, which runs alone: it answers what its implementation
can come to, and a sleep returns. -/
structure ElectStep (cfg : Config) (s : DaemonState) (event : Event Call.Ret Exc)
    (s' : DaemonState) : Prop where
  alone : s.alone event s'
  possible : Possible cfg event
  slept : ∀ duration, event.op = .host (.sleep duration) → event.answer.toBool = true

/-- The operation has succeeded. -/
def succeeded (op : Call) (trace : List (Event Call.Ret Exc)) : Prop :=
  ∃ event ∈ trace, event.op = op ∧ event.answer.toBool = true

@[simp] theorem succeeded_nil (op : Call) : ¬ succeeded op [] := by simp [succeeded]

@[simp] theorem succeeded_cons {op : Call} {event : Event Call.Ret Exc}
    {trace : List (Event Call.Ret Exc)} : succeeded op (event :: trace) ↔
      event.op = op ∧ event.answer.toBool = true ∨ succeeded op trace := by
  simp [succeeded]

@[simp] theorem succeeded_append {op : Call} {first second : List (Event Call.Ret Exc)} :
    succeeded op (first ++ second) ↔ succeeded op first ∨ succeeded op second := by
  simp [succeeded, or_and_right, exists_or]

/-- The node holds the disk: it has found that it does, or it has attached it. -/
def HoldsDisk (cfg : Config) (trace : List (Event Call.Ret Exc)) : Prop :=
  (⟨.disk .currentRwHolder, .ok (some cfg.cluster.nodeName)⟩ : Event Call.Ret Exc) ∈ trace ∨
    succeeded (.disk .attachDiskRw) trace

/-- Mounting, starting PostgreSQL and acquiring the address have succeeded. -/
def Equipped (trace : List (Event Call.Ret Exc)) : Prop :=
  succeeded (.disk .mountDisk) trace ∧ succeeded (.disk .startPostgres) trace ∧
    succeeded (.net .acquireVip) trace

/-- The election has ended with a role: the node has it, and it is PRIMARY exactly when
the node holds the disk and everything else has succeeded. -/
def EndsWithRole (cfg : Config) (trace : List (Event Call.Ret Exc))
    (outcome : Outcome Exc NodeRole) (s' : DaemonState) : Prop :=
  ∃ role, outcome = .returned role ∧ (role = .primary ∨ role = .standby) ∧ s'.node.role = role ∧
    (role = .primary ↔ HoldsDisk cfg trace ∧ Equipped trace)

/-! ## What the operations can answer -/

theorem holderAmong_raises (users : List String) :
    (DiskManager.holderAmong cfg users).Raises fun _ => False := by
  induction users with
  | nil => trivial
  | cons userUrl rest ih =>
      unfold DiskManager.holderAmong
      cases hzone : DiskManager.zoneForInstance cfg (lastSegment userUrl) with
      | none => simpa [hzone] using ih
      | some zone =>
          simp only [hzone]
          refine .bind (Prog.raises_attempt _) fun result => ?_
          cases result with
          | error exc => exact ih
          | ok inst =>
              show Prog.Raises _ (if DiskManager.showsRw cfg inst = true then _ else _)
              split
              · trivial
              · exact ih

/-- The query for the holder of the disk does not raise. -/
theorem currentRwHolder_possible {answer : Except Exc (Option String)}
    (h : Possible cfg ⟨.disk .currentRwHolder, answer⟩) : ∃ holder, answer = .ok holder := by
  obtain ⟨trace, htrace⟩ := h
  cases answer with
  | ok holder => exact ⟨holder, rfl⟩
  | error exc =>
      have hraises : (DiskManager.currentRwHolder cfg).Raises fun _ => False := by
        refine .bind (Prog.raises_attempt _) fun result => ?_
        cases result with
        | error exc => trivial
        | ok disk => exact holderAmong_raises disk.users
      exact (hraises.of_trace htrace).elim

/-! ## Falling back -/

/-- The operations that gain nothing. -/
def gainless (op : Call) : Prop := op.acquires = none ∧ op ≠ .disk .currentRwHolder

theorem gainless_host (call : HostCall) : gainless (.host call) := ⟨rfl, by simp⟩

theorem not_succeeded {op : Call} {trace : List (Event Call.Ret Exc)}
    (h : ∀ event ∈ trace, gainless event.op) (hop : ¬ gainless op) : ¬ succeeded op trace := by
  rintro ⟨event, hmem, rfl, -⟩
  exact hop (h event hmem)

/-- The program has returned a role that the node has, and nothing has been gained on
the way. -/
structure Becomes (role : NodeRole) (outcome : Outcome Exc NodeRole)
    (trace : List (Event Call.Ret Exc)) (s' : DaemonState) : Prop where
  returned : outcome = .returned role
  role : s'.node.role = role
  gained : ∀ event ∈ trace, gainless event.op

abbrev elects (cfg : Config) : Transformer Call.Ret Exc DaemonState := demonic (ElectStep cfg)

theorem elects_monotone : (elects cfg).Monotone := demonic_monotone _

/-- An operation of the host that always succeeds. -/
theorem host_triple {P Q E : DaemonState → Prop} (call : HostCall)
    (hanswer : ∀ (s : DaemonState) (answer : Except Exc call.Ret), s.Answers call answer →
      ∃ value, answer = .ok value) (h : ∀ s, P s → Q (s.after call)) :
    Prog.Triple (elects cfg) P (Mgr.host call) (fun _ => Q) E := by
  apply Prog.Triple.perform
  intro s hs answer s' hstep
  obtain ⟨hanswers, rfl⟩ := hstep.alone
  obtain ⟨value, rfl⟩ := hanswer s answer hanswers
  exact h s hs

/-- The node has this role. -/
def Has (role : NodeRole) (s : DaemonState) : Prop := s.node.role = role

/-- A program that always returns the role that the node then has, without gaining
anything. -/
theorem becomes_of_triple {role : NodeRole} {program : Mgr NodeRole}
    (h : Prog.Triple (elects cfg) (fun _ => True) program
      (fun value s => value = role ∧ Has role s) fun _ => False)
    (hbounded : program.Bounded) (hcalls : program.Calls gainless) :
    Spec (ElectStep cfg) program fun _ outcome trace s' => Becomes role outcome trace s' := by
  intro s trace outcome s' htrace hhistory
  have hend := Prog.trace_wp (h s trivial) htrace hhistory
  have hgainless : ∀ event ∈ trace, gainless event.op := hcalls.trace htrace
  cases outcome with
  | stuck => exact absurd rfl (hbounded.not_stuck htrace)
  | raised exc => exact hend.elim
  | returned value =>
      obtain ⟨rfl, hrole⟩ := hend
      exact ⟨rfl, hrole, hgainless⟩

/-- The node records a role, and what goes with it. -/
def assume (role : NodeRole) (diskState : DiskState) (pgState : PgState) : Mgr NodeRole := do
  Mgr.host (.setRole role)
  Mgr.host (.setDiskState diskState)
  Mgr.host (.setPgState pgState)
  Mgr.host (.setHealth .healthy)
  pure role

section Assume

variable (role : NodeRole) (diskState : DiskState) (pgState : PgState)

theorem assume_triple : Prog.Triple (elects cfg) (fun _ => True) (assume role diskState pgState)
    (fun value s => value = role ∧ Has role s) fun _ => False := by
  have hkeeps (call : HostCall) (hanswer : ∀ (s : DaemonState) (answer : Except Exc call.Ret),
      s.Answers call answer → ∃ value, answer = .ok value)
      (h : ∀ s, Has role s → Has role (s.after call)) :
      Prog.Triple (elects cfg) (Has role) (Mgr.host call) (fun _ => Has role) fun _ => False :=
    host_triple call hanswer h
  have hrole : Prog.Triple (elects cfg) (fun _ => True) (Mgr.host (.setRole role))
      (fun _ => Has role) fun _ => False :=
    host_triple (.setRole role) (fun _ _ h => ⟨(), h⟩) fun _ _ => rfl
  apply hrole.bind elects_monotone
  intro _
  apply (hkeeps (.setDiskState diskState) (fun _ _ h => ⟨(), h⟩) fun _ => id).bind elects_monotone
  intro _
  apply (hkeeps (.setPgState pgState) (fun _ _ h => ⟨(), h⟩) fun _ => id).bind elects_monotone
  intro _
  apply (hkeeps (.setHealth .healthy) (fun _ _ h => ⟨(), h⟩) fun _ => id).bind elects_monotone
  exact fun _ => .pure fun _ hs => ⟨rfl, hs⟩

theorem assume_bounded : (assume role diskState pgState).Bounded :=
  (Prog.bounded_perform _).bind fun _ => (Prog.bounded_perform _).bind fun _ =>
    (Prog.bounded_perform _).bind fun _ => (Prog.bounded_perform _).bind fun _ => trivial

theorem assume_gainless : (assume role diskState pgState).Calls gainless :=
  .perform_bind (gainless_host _) fun _ => .perform_bind (gainless_host _) fun _ =>
    .perform_bind (gainless_host _) fun _ => .perform_bind (gainless_host _) fun _ => trivial

theorem assume_spec : Spec (ElectStep cfg) (assume role diskState pgState)
    fun _ outcome trace s' => Becomes role outcome trace s' :=
  becomes_of_triple (assume_triple _ _ _) (assume_bounded _ _ _) (assume_gainless _ _ _)

end Assume

theorem becomeStandby_eq : becomeStandby = assume .standby .detached .stopped := rfl

/-- What follows an exception while the node becomes PRIMARY. -/
def fallBack : Mgr NodeRole := do
  Mgr.host (.setHealth .failed)
  rollbackPrimary
  becomeStandby

theorem fallBack_spec :
    Spec (ElectStep cfg) fallBack fun _ outcome trace s' => Becomes .standby outcome trace s' := by
  have hattempt (op : Call) : Prog.Triple (elects cfg) (fun _ => True)
      (Prog.perform op : Mgr op.Ret).attempt (fun _ _ => True) fun _ => False := by
    have hany : Prog.Keeps (elects cfg) (fun _ => True) (Prog.perform op : Mgr op.Ret) :=
      Prog.Triple.of_forall elects_monotone (fun _ _ _ _ _ _ => trivial) _
    exact hany.attempted elects_monotone
  apply becomes_of_triple
  -- the two releases of the rollback may fail, and are caught
  · have hhealth : Prog.Triple (elects cfg) (fun _ => True) (Mgr.host (.setHealth .failed))
        (fun _ _ => True) fun _ => False :=
      host_triple (.setHealth .failed) (fun _ _ h => ⟨(), h⟩) fun _ _ => trivial
    apply hhealth.bind elects_monotone
    intro _
    have hrollback : Prog.Triple (elects cfg) (fun _ => True) rollbackPrimary (fun _ _ => True)
        fun _ => False :=
      (hattempt (.disk (.stopPostgres .immediate))).bind elects_monotone fun _ =>
        (hattempt (.disk .unmountDisk)).bind elects_monotone fun _ => .pure fun _ _ => trivial
    exact hrollback.bind elects_monotone fun _ => assume_triple _ _ _
  · have hrollback : rollbackPrimary.Bounded :=
      (Prog.bounded_perform _).attempt.bind fun _ => (Prog.bounded_perform _).attempt.bind fun _ =>
        trivial
    exact (Prog.bounded_perform _).bind fun _ => hrollback.bind fun _ => assume_bounded _ _ _
  · have hop (op : Call) (h : gainless op) : (Prog.perform op : Mgr op.Ret).Calls gainless :=
      Prog.Calls.perform h
    have hrollback : rollbackPrimary.Calls gainless :=
      (hop (.disk (.stopPostgres .immediate)) ⟨rfl, by simp⟩).attempt.bind fun _ =>
        (hop (.disk .unmountDisk) ⟨rfl, by simp⟩).attempt.bind fun _ => trivial
    exact .perform_bind (gainless_host _) fun _ => hrollback.bind fun _ => assume_gainless _ _ _

/-! ## Taking over -/

/-- How becoming PRIMARY ends. -/
structure TakesOver (outcome : Outcome Exc NodeRole) (trace : List (Event Call.Ret Exc))
    (s' : DaemonState) : Prop where
  returned : outcome = .returned s'.node.role
  role : s'.node.role = .primary ∨ s'.node.role = .standby
  primary : s'.node.role = .primary ↔ Equipped trace
  -- the disk is not touched
  others : ∀ event ∈ trace, event.op ≠ .disk .attachDiskRw ∧ event.op ≠ .disk .currentRwHolder

/-- The fallback after one of the three operations has raised. -/
theorem fallBack_takesOver {op : Call} {past : List (Event Call.Ret Exc)} {exc : Exc}
    (s : DaemonState)
    (hop : op = .disk .mountDisk ∨ op = .disk .startPostgres ∨ op = .net .acquireVip)
    (hpast : ∀ event ∈ past, event.op ≠ op ∧ event.op ≠ .disk .attachDiskRw ∧
      event.op ≠ .disk .currentRwHolder) :
    fallBack.wp (demonic (logged (ElectStep cfg)))
      (fun outcome s' => TakesOver outcome s'.2 s'.1) (s, past ++ [⟨op, .error exc⟩]) := by
  apply fallBack_spec.wp
  intro outcome trace s' h
  -- what has raised is not tried again
  have hnot : ¬ succeeded op (past ++ [⟨op, .error exc⟩] ++ trace) := by
    have hafter : ¬ succeeded op trace := by
      apply not_succeeded h.gained
      rcases hop with rfl | rfl | rfl <;> simp [gainless, Call.acquires]
    have hbefore : ¬ succeeded op past := by
      rintro ⟨event, hmem, hevent, -⟩
      exact (hpast event hmem).1 hevent
    simp [hafter, hbefore, Except.toBool]
  have hequipped : ¬ Equipped (past ++ [⟨op, .error exc⟩] ++ trace) := by
    rintro ⟨hmount, hstart, hvip⟩
    rcases hop with rfl | rfl | rfl
    · exact hnot hmount
    · exact hnot hstart
    · exact hnot hvip
  refine ⟨by rw [h.returned, h.role], .inr h.role, ?_, fun event hmem => ?_⟩
  · exact iff_of_false (by simp [h.role]) hequipped
  · rcases List.mem_append.mp hmem with hmem | hmem
    · rcases List.mem_append.mp hmem with hmem | hmem
      · exact (hpast event hmem).2
      · rw [List.mem_singleton.mp hmem]
        rcases hop with rfl | rfl | rfl <;> simp
    · have hevent := h.gained event hmem
      refine ⟨fun hattach => ?_, hevent.2⟩
      rw [hattach] at hevent
      cases hevent.1

theorem becomePrimary_spec : Spec (ElectStep cfg) (becomePrimary false)
    fun _ outcome trace s' => TakesOver outcome trace s' := by
  refine Spec.of_wp fun s => ?_
  rw [becomePrimary, takeOver, Prog.wp_except]
  simp only [Bool.false_eq_true, if_false, Prog.pure_eq, Prog.bind_eq,
    Prog.wp_bind, Prog.wp_perform, demonic_logged_iff]
  intro mounted s₁ _
  cases mounted with
  | error exc => exact fallBack_takesOver s₁ (.inl rfl) (by simp)
  | ok _ =>
      rw [Prog.answered_ok, Prog.andThen_returned, Prog.wp_bind, Prog.wp_perform]
      refine demonic_logged_iff.mpr ?_
      intro started s₂ _
      cases started with
      | error exc => exact fallBack_takesOver s₂ (.inr (.inl rfl)) (by simp)
      | ok _ =>
          rw [Prog.answered_ok, Prog.andThen_returned, Prog.wp_bind, Prog.wp_perform]
          refine demonic_logged_iff.mpr ?_
          intro acquired s₃ _
          cases acquired with
          | error exc => exact fallBack_takesOver s₃ (.inr (.inr rfl)) (by simp)
          | ok _ =>
              rw [Prog.answered_ok, Prog.andThen_returned]
              apply (assume_spec .primary .attachedRw .runningPrimary).wp
              intro outcome trace s' h
              -- none of the three has raised, so the handler is not run
              rw [h.returned, Prog.handled_returned]
              refine ⟨by rw [h.role], .inl h.role, iff_of_true h.role ?_, fun event hmem => ?_⟩
              · simp [Equipped, Except.toBool]
              · simp only [List.nil_append, List.cons_append, List.mem_cons] at hmem
                rcases hmem with rfl | rfl | rfl | hmem
                · simp
                · simp
                · simp
                · refine ⟨fun hattach => ?_, (h.gained event hmem).2⟩
                  have hevent := (h.gained event hmem).1
                  rw [hattach] at hevent
                  cases hevent

/-! ## The election -/

/-- The only exceptions of the attachment are of the class that is handled. -/
def AttachHandled (trace : List (Event Call.Ret Exc)) : Prop :=
  ∀ exc, (⟨.disk .attachDiskRw, .error exc⟩ : Event Call.Ret Exc) ∈ trace →
    exc.isRuntimeError = true

/-- Nothing but the disk is gained by these events. -/
def Before (past : List (Event Call.Ret Exc)) : Prop :=
  ∀ event ∈ past, event.op ≠ .disk .mountDisk ∧ event.op ≠ .disk .startPostgres ∧
    event.op ≠ .net .acquireVip

theorem Before.equipped_append {past trace : List (Event Call.Ret Exc)} (h : Before past) :
    Equipped (past ++ trace) ↔ Equipped trace := by
  have hmount : ¬ succeeded (.disk .mountDisk) past := fun ⟨event, hmem, hop, _⟩ =>
    (h event hmem).1 hop
  have hstart : ¬ succeeded (.disk .startPostgres) past := fun ⟨event, hmem, hop, _⟩ =>
    (h event hmem).2.1 hop
  have hvip : ¬ succeeded (.net .acquireVip) past := fun ⟨event, hmem, hop, _⟩ =>
    (h event hmem).2.2 hop
  simp [Equipped, hmount, hstart, hvip]

/-- Once the node holds the disk, it ends with a role. -/
theorem TakesOver.endsWithRole {past trace : List (Event Call.Ret Exc)}
    {outcome : Outcome Exc NodeRole} {s' : DaemonState} (h : TakesOver outcome trace s')
    (hholds : HoldsDisk cfg past) (hbefore : Before past) (hhandled : AttachHandled past) :
    EndsWithRole cfg (past ++ trace) outcome s' ↔ AttachHandled (past ++ trace) := by
  have hkeeps : HoldsDisk cfg (past ++ trace) := by
    rcases hholds with hself | hattached
    · exact .inl (List.mem_append_left _ hself)
    · exact .inr (succeeded_append.mpr (.inl hattached))
  refine iff_of_true ⟨s'.node.role, h.returned, h.role, rfl, ?_⟩ fun exc hmem => ?_
  · rw [hbefore.equipped_append, h.primary]
    exact (and_iff_right hkeeps).symm
  · rcases List.mem_append.mp hmem with hmem | hmem
    · exact hhandled exc hmem
    · exact absurd rfl (h.others _ hmem).1

/-- A node that does not hold the disk ends as a STANDBY. -/
theorem Becomes.endsWithRole {past trace : List (Event Call.Ret Exc)}
    {outcome : Outcome Exc NodeRole} {s' : DaemonState} (h : Becomes .standby outcome trace s')
    (hbefore : Before past) (hhandled : AttachHandled past) :
    EndsWithRole cfg (past ++ trace) outcome s' ↔ AttachHandled (past ++ trace) := by
  have hmount : ¬ succeeded (.disk .mountDisk) trace :=
    not_succeeded h.gained (by simp [gainless, Call.acquires])
  have hstandby : NodeRole.standby ≠ .primary := by decide
  refine iff_of_true ⟨.standby, h.returned, .inr rfl, h.role, iff_of_false hstandby ?_⟩ ?_
  · rw [hbefore.equipped_append]
    exact fun hall => hmount hall.2.1
  · intro exc hmem
    rcases List.mem_append.mp hmem with hmem | hmem
    · exact hhandled exc hmem
    · cases (h.gained _ hmem).1

theorem elect_spec : Spec (ElectStep cfg) (elect cfg) fun _ outcome trace s' =>
    EndsWithRole cfg trace outcome s' ↔ AttachHandled trace := by
  refine Spec.of_wp fun s => ?_
  simp only [elect, Prog.bind_eq, Prog.wp_bind, Prog.wp_perform, demonic_logged_iff]
  intro answer s₁ hstep
  obtain ⟨holder, rfl⟩ := currentRwHolder_possible hstep.possible
  rw [Prog.answered_ok, Prog.andThen_returned, Prog.wp_ite]
  split_ifs with hself hother
  · -- the node already holds the disk
    apply becomePrimary_spec.wp
    intro outcome trace s' h
    apply h.endsWithRole
    · exact .inl (by simp [hself])
    · simp [Before]
    · simp [AttachHandled]
  · -- the peer holds it
    rw [becomeStandby_eq]
    apply (assume_spec .standby .detached .stopped).wp
    intro outcome trace s' h
    apply h.endsWithRole
    · simp [Before]
    · simp [AttachHandled]
  · -- nobody does, as far as it can tell
    simp only [competeForPrimary, Prog.bind_eq, Prog.wp_bind, Prog.wp_perform,
      demonic_logged_iff]
    intro answer s₂ hstep
    obtain ⟨⟨hash, rfl⟩, -⟩ := hstep.alone
    rw [Prog.answered_ok, Prog.andThen_returned, Prog.wp_bind, Prog.wp_perform]
    refine demonic_logged_iff.mpr ?_
    intro answer s₃ hstep
    have hslept : answer.toBool = true := hstep.slept _ rfl
    obtain exc | ⟨⟨⟩⟩ := answer
    · cases hslept
    rw [Prog.answered_ok, Prog.andThen_returned, Prog.wp_except, Prog.wp_bind, Prog.wp_perform]
    refine demonic_logged_iff.mpr ?_
    intro attached s₄ _
    -- how the election ends is decided by the class of what the attach has raised
    cases attached with
    | ok _ =>
        rw [Prog.answered_ok, Prog.andThen_returned]
        apply becomePrimary_spec.wp
        intro outcome trace s' h
        rw [h.returned, Prog.handled_returned, ← h.returned]
        apply h.endsWithRole
        · exact .inr (by simp [Except.toBool])
        · simp [Before]
        · simp [AttachHandled]
    | error exc =>
        rw [Prog.answered_error, Prog.andThen_raised, Prog.handled_raised, Prog.wp_ite]
        split_ifs with hruntime
        · rw [becomeStandby_eq]
          apply (assume_spec .standby .detached .stopped).wp
          intro outcome trace s' h
          apply h.endsWithRole
          · simp [Before]
          · simp [AttachHandled, hruntime]
        · -- an exception of another class is not caught, and the election has no result
          refine iff_of_false ?_ fun hhandled => hruntime (hhandled exc (by simp))
          rintro ⟨role, houtcome, -⟩
          cases houtcome

/-- **Every election ends with a role**, whatever the operations answer, if and only if
the attachment of the disk raises nothing but RuntimeErrors. -/
theorem elected_iff (cfg : Config) (s s' : DaemonState) (trace : List (Event Call.Ret Exc))
    (outcome : Outcome Exc NodeRole) (htrace : (elect cfg).Trace trace outcome)
    (hhistory : History (ElectStep cfg) s trace s') :
    EndsWithRole cfg trace outcome s' ↔ AttachHandled trace :=
  elect_spec s trace outcome s' htrace hhistory

section Sample

/-- The disk cannot be looked up, an attachment is answered with `resp`, and 40 seconds
pass between two looks at the clock. -/
def slowly (resp : Response Operation) : (op : SysCall) → ℕ → Except Exc op.Ret × ℕ
  | .gcp (.getDisk ..), n => (.error ⟨.requestException, "timed out"⟩, n)
  | .gcp (.attachDisk ..), n => (.ok resp, n)
  | .host .monotonic, n => (.ok (40000 * n), n + 1)
  | _, n => (.error ⟨.other, ""⟩, n)

/-- What the attachment then comes to. -/
def attachment (resp : Response Operation) : Run SysCall.Ret Exc Unit ℕ :=
  (managers .samplePrimary (.disk .attachDiskRw)).run (slowly resp) 0

/-- The exception that it ends with. -/
def exception : Outcome Exc Unit → Exc
  | .raised exc => exc
  | _ => ⟨.other, ""⟩

/-- Nobody holds the disk as far as the node can tell, the attachment raises, and every
other operation succeeds. -/
def contend (exc : Exc) : (op : Call) → DaemonState → Except Exc op.Ret × DaemonState
  | .disk .attachDiskRw, s => (.error exc, s)
  | .disk call, s => (call.reply, s)
  | .net _, s => (.ok (), s)
  | .host call, s => (s.reply call, s.after call)

/-- The operations of an election whose attachment raises. -/
def contends : Call → Bool
  | .disk .currentRwHolder | .disk .attachDiskRw => true
  | .host (.acquireFailoverLock _) | .disk _ | .net _ => false
  | .host _ => true

theorem possible_host {call : HostCall} (answer : Except Exc call.Ret) :
    Possible cfg ⟨.host call, answer⟩ := by
  refine ⟨[⟨.host call, answer⟩], .call ?_⟩
  cases answer with
  | ok value => exact .pure value
  | error exc => exact .raise exc

theorem electStep_contend {resp : Response Operation}
    (hraised : (attachment resp).outcome = .raised (exception (attachment resp).outcome))
    (s : DaemonState) (op : Call) (hop : contends op = true) :
    ElectStep .samplePrimary s ⟨op, (contend (exception (attachment resp).outcome) op s).1⟩
      (contend (exception (attachment resp).outcome) op s).2 := by
  cases op with
  | net call => cases hop
  | host call =>
      refine ⟨⟨s.answers_reply call ?_, rfl⟩, possible_host _, ?_⟩
      · rintro blocking rfl
        cases hop
      · rintro duration hsleep
        obtain rfl : call = .sleep duration := Call.host.inj hsleep
        rfl
  | disk call =>
      cases call with
      | currentRwHolder =>
          have htrace :=
            trace_run (slowly resp) (managers .samplePrimary (.disk .currentRwHolder)) 0
          exact ⟨rfl, ⟨_, htrace⟩, by simp⟩
      | attachDiskRw =>
          refine ⟨rfl, ⟨(attachment resp).log, ?_⟩, by simp⟩
          have htrace := trace_run (slowly resp) (managers .samplePrimary (.disk .attachDiskRw)) 0
          exact hraised ▸ htrace
      | _ => cases hop

/-- The node does not know its role yet. -/
def starting : DaemonState := ⟨{ name := "pg-primary" }, 0, 0, "UNKNOWN", false, false, 0⟩

/-- The election of that node. -/
def election (resp : Response Operation) : Run Call.Ret Exc NodeRole DaemonState :=
  (elect .samplePrimary).run (contend (exception (attachment resp).outcome)) starting

/-- The Compute API refuses the attachment. -/
def refused : Response Operation := ⟨400, "", .ok ⟨none, none, none⟩⟩

/-- The Compute API accepts the attachment. -/
def accepted : Response Operation := .ok ⟨some "operation-1", none, none⟩

theorem elected_refused : EndsWithRole .samplePrimary (election refused).log
    (election refused).outcome (election refused).final := by
  have hraised : (attachment refused).outcome = .raised (exception (attachment refused).outcome) :=
    rfl
  apply (elected_iff .samplePrimary starting _ _ _ (trace_run _ _ _)
    (history_run_of_log (electStep_contend hraised) _ _ (by decide))).mpr
  intro exc hmem
  obtain ⟨s, hanswer⟩ := answer_of_mem_log _ _ hmem
  have hexc : exc = exception (attachment refused).outcome := Except.error.inj hanswer
  rw [hexc]
  decide

/-- The attachment is accepted but takes longer than the node waits: the election ends with
a TimeoutError, and the node has no role. -/
theorem not_elected : ¬ ∀ cfg s s' trace outcome, (elect cfg).Trace trace outcome →
    History (ElectStep cfg) s trace s' → EndsWithRole cfg trace outcome s' := by
  intro h
  have hraised : (attachment accepted).outcome =
      .raised (exception (attachment accepted).outcome) := rfl
  obtain ⟨role, houtcome, -⟩ := h .samplePrimary starting _ _ _
    (trace_run (contend (exception (attachment accepted).outcome)) _ starting)
    (history_run_of_log (electStep_contend hraised) _ _ (by decide))
  cases houtcome

end Sample

end PgHa.Elected
