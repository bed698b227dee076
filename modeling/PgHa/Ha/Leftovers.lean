import PgHa.Ha.Abort

/-!
# What a failed failover leaves behind

`execute` of the failover engine stops at the first step that raises, and undoes
nothing.  A node that held nothing therefore holds nothing afterwards if and only if
no attachment of the disk has succeeded (`restored_iff`): from then on the disk stays
attached whatever the later steps do, and the local state says so.
-/

namespace PgHa.Leftovers

open Effect FailoverEngine Abort

variable {cfg : Config}

/-- A STANDBY that holds nothing, and says so. -/
structure Vacant (s : NodeWorld) : Prop where
  held : ∀ r, s.held r = false
  report : Says .standby .stopped .detached s.daemon.node

/-- An attachment of the disk has succeeded. -/
def attached (log : List (Event Call.Ret Exc)) : Prop :=
  (⟨.disk .attachDiskRw, .ok ()⟩ : Event Call.Ret Exc) ∈ log

/-- Nothing has been acquired so far. -/
def Clean (s : Logged) : Prop := Vacant s.1 ∧ ¬ attached s.2

/-- The disk has been attached, and still is. -/
def Burdened (s : Logged) : Prop := s.1.held .disk = true ∧ attached s.2

def Settled (s : Logged) : Prop := Clean s ∨ Burdened s

/-! ## Before the attachment -/

/-- The operations of the steps before ATTACH. -/
def early (op : Call) : Prop := op.passive ∨ op = .disk .forceDetachFromPeer

theorem Vacant.early {s s' : NodeWorld} {event : Event Call.Ret Exc} (hs : Vacant s)
    (h : AllOrNothing s event s') (hop : early event.op) : Vacant s' := by
  obtain ⟨op, answer⟩ := event
  have hheld : s'.held = s.held := by
    rcases hop with hpassive | hforce
    · exact h.held_of_passive hpassive
    · obtain rfl : op = .disk .forceDetachFromPeer := hforce
      cases answer with
      | ok value => exact h.returned value rfl
      | error exc => exact h.raised exc rfl
  refine ⟨fun r => by rw [hheld, hs.held r], ?_⟩
  cases op with
  | host call =>
      have hpassive : Call.passive (.host call) := hop.resolve_right (by simp)
      have hafter : s'.daemon = s.daemon.after call := h.daemon.2
      rw [hafter]
      exact says_after hpassive hs.report
  | disk call =>
      have hsame : s'.daemon = s.daemon := h.daemon
      exact hsame ▸ hs.report
  | net call =>
      have hsame : s'.daemon = s.daemon := h.daemon
      exact hsame ▸ hs.report

theorem clean_keeps {α : Type} {program : Mgr α} (hcalls : program.Calls early) :
    Prog.Keeps allOrNothing Clean program := by
  apply Prog.Triple.of_calls allOrNothing_monotone _ hcalls
  rintro op hop ⟨s, log⟩ ⟨hvacant, hnot⟩
  refine demonic_logged_iff.mpr ?_
  intro answer s' hstep
  refine ⟨hvacant.early hstep hop, fun hmem => ?_⟩
  rcases List.mem_append.mp hmem with hold | hnew
  · exact hnot hold
  · obtain ⟨rfl, -⟩ := Event.mk.inj (List.mem_singleton.mp hnew)
    rcases hop with hpassive | hforce
    · exact hpassive
    · cases hforce

/-! ## After the attachment -/

/-- The operations that leave the disk attached. -/
def keepsDisk (op : Call) : Prop := op.releases ≠ some .disk

theorem burdened_keeps {α : Type} {program : Mgr α} (hcalls : program.Calls keepsDisk) :
    Prog.Keeps allOrNothing Burdened program := by
  apply Prog.Triple.of_calls allOrNothing_monotone _ hcalls
  rintro op hop ⟨s, log⟩ ⟨hheld, hmem⟩
  refine demonic_logged_iff.mpr ?_
  intro answer s' hstep
  refine ⟨?_, List.mem_append_left _ hmem⟩
  have hdisk : s.held .disk = true := hheld
  cases answer with
  | error exc =>
      rw [hstep.raised exc rfl]
      exact hdisk
  | ok value =>
      have hop : op.releases ≠ some .disk := hop
      rw [hstep.returned value rfl]
      simp [Call.done, hop, hdisk]

theorem keepsDisk_of_passive {op : Call} (h : op.passive) : keepsDisk op := by
  have hnone : op.releases = none := Call.releases_of_passive h
  simp [keepsDisk, hnone]

theorem emit_keepsDisk (eventType : HaEventType) (message : String) :
    (emit cfg eventType message).Calls keepsDisk :=
  (emit_passive eventType message).mono fun _ => keepsDisk_of_passive

/-- Nothing that comes after the attachment detaches the disk. -/
theorem lateSteps_keepDisk : ∀ step ∈ (steps cfg).drop 4, step.2.Calls keepsDisk := by
  intro step hstep
  simp only [steps, List.drop_succ_cons, List.drop_zero, List.mem_cons, List.not_mem_nil,
    or_false] at hstep
  rcases hstep with rfl | rfl | rfl | rfl
  · exact Prog.Calls.perform (by simp [keepsDisk, Call.releases])
  · apply (startPostgresFrom_minor cfg 3).mono
    rintro op (hminor | rfl)
    · cases op with
      | host call => cases call <;> simp [keepsDisk, Call.releases]
      | _ => exact hminor.elim
    · simp [keepsDisk, Call.releases]
  · exact .perform_bind (by simp [keepsDisk, Call.releases]) fun _ => emit_keepsDisk _ _
  · have hhost (call : HostCall) : keepsDisk (.host call) := by
      cases call <;> simp [keepsDisk, Call.releases]
    exact .perform_bind (hhost _) fun _ => .perform_bind (hhost _) fun _ => emit_keepsDisk _ _

theorem lateRun_keepsDisk (skipFence : Bool) :
    (runSteps cfg skipFence ((steps cfg).drop 4)).Calls keepsDisk :=
  runSteps_calls cfg (fun _ => keepsDisk_of_passive trivial) (fun _ => keepsDisk_of_passive trivial)
    (fun _ => keepsDisk_of_passive trivial) skipFence lateSteps_keepDisk

/-! ## The attachment -/

/-- An attachment that raises has had no effect. -/
theorem attachDiskRw_triple : Prog.Triple allOrNothing Clean (Mgr.disk .attachDiskRw)
    (fun _ => Burdened) Clean := by
  apply Prog.Triple.perform
  rintro ⟨s, log⟩ ⟨hvacant, hnot⟩
  refine demonic_logged_iff.mpr ?_
  intro answer s' hstep
  cases answer with
  | ok value =>
      refine ⟨?_, List.mem_append_right _ (List.mem_singleton.mpr rfl)⟩
      rw [hstep.returned value rfl]
      rfl
  | error exc =>
      have hheld : s'.held = s.held := hstep.raised exc rfl
      have hdaemon : s'.daemon = s.daemon := hstep.daemon
      refine ⟨⟨fun r => by rw [hheld, hvacant.held r], hdaemon ▸ hvacant.report⟩, fun hmem => ?_⟩
      rcases List.mem_append.mp hmem with hold | hnew
      · exact hnot hold
      · cases List.mem_singleton.mp hnew

/-- Recording the attachment does not raise. -/
theorem recordAttachment_triple {E : Logged → Prop} : Prog.Triple allOrNothing Burdened (do
    Mgr.host (.setDiskState .attachedRw)
    emit cfg .diskAttached s!"RPD attached to {cfg.cluster.nodeName} in RW mode")
    (fun _ => Burdened) E := by
  have hset : Prog.Triple allOrNothing Burdened (Mgr.host (.setDiskState .attachedRw))
      (fun _ => Burdened) E := by
    apply Prog.Triple.perform
    rintro ⟨s, log⟩ ⟨hheld, hmem⟩
    refine demonic_logged_iff.mpr ?_
    intro answer s' hstep
    obtain ⟨rfl, -⟩ := hstep.daemon
    refine ⟨?_, List.mem_append_left _ hmem⟩
    rw [hstep.returned () rfl]
    exact hheld
  apply hset.bind allOrNothing_monotone
  rintro _ ⟨s, log⟩ ⟨hheld, hmem⟩
  rw [emit, Prog.wp_except, Prog.wp_perform]
  refine demonic_logged_iff.mpr ?_
  intro answer s' hstep
  have hburdened : Burdened (s', log ++ [⟨.host (.putEvent _), answer⟩]) := by
    refine ⟨?_, List.mem_append_left _ hmem⟩
    rw [hstep.held_of_passive trivial]
    exact hheld
  cases answer with
  | ok _ => exact hburdened
  | error exc =>
      have hfull : exc.cls = .queueFull := hstep.daemon.1 exc rfl
      rw [Prog.answered_error, Prog.handled_raised, if_pos hfull]
      exact hburdened

/-- The retry loop, by induction on the attempts that are left. -/
theorem attachFrom_triple (left : ℕ) (hleft : left ≠ 0) (backoff : Int) :
    Prog.Triple allOrNothing Clean (attachFrom cfg backoff left) (fun _ => Burdened) Clean := by
  induction left generalizing backoff with
  | zero => exact absurd rfl hleft
  | succ left ih =>
      refine Prog.Triple.except allOrNothing_monotone (R := Clean) ?_ ?_
      · apply attachDiskRw_triple.bind allOrNothing_monotone
        exact fun _ => recordAttachment_triple
      · intro exc
        apply Prog.Triple.ite _ fun _ => Prog.Triple.raise fun _ => id
        rintro ⟨-, hagain, -⟩
        have hsleep : (Mgr.host (.sleep backoff)).Calls early :=
          Prog.Calls.perform (.inl trivial)
        apply (clean_keeps hsleep).bind allOrNothing_monotone
        exact fun _ => ih hagain _

/-! ## The sequence -/

/-- What one step reports before it gives up. -/
theorem failed_passive (cfg : Config) (message : String) : Prog.Calls Call.passive (do
    Mgr.host (.setHealth .failed)
    emit cfg .failoverFailed message
    pure false) :=
  .perform_bind trivial fun _ => .bind (emit_passive _ _) fun _ => trivial

/-- What keeps nothing acquired, and what keeps the disk, leaves the node settled. -/
theorem settled_keeps {α : Type} {program : Mgr α} (hcalls : program.Calls Call.passive) :
    Prog.Keeps allOrNothing Settled program := by
  rintro s (hclean | hburdened)
  · have hearly : program.Calls early := hcalls.mono fun _ => .inl
    apply Prog.wp_mono allOrNothing_monotone _ (clean_keeps hearly s hclean)
    intro outcome s' hend
    cases outcome with
    | stuck => trivial
    | _ => exact .inl hend
  · have hlate : program.Calls keepsDisk := hcalls.mono fun _ => keepsDisk_of_passive
    apply Prog.wp_mono allOrNothing_monotone _ (burdened_keeps hlate s hburdened)
    intro outcome s' hend
    cases outcome with
    | stuck => trivial
    | _ => exact .inr hend

theorem settled_of_clean {α : Type} {program : Mgr α} {Q : α → Logged → Prop}
    (h : Prog.Triple allOrNothing Clean program Q Clean) :
    Prog.Triple allOrNothing Clean program Q Settled :=
  h.conseq allOrNothing_monotone (fun _ => id) (fun _ _ => id) fun _ => .inl

/-- One pass of the loop of `execute`, up to and including ATTACH: the step is
skipped, or it ends as `P` says, or the sequence ends here. -/
theorem runSteps_cons {P : Logged → Prop} {skipFence : Bool} {name : StepName} {step : Mgr Unit}
    {rest : List (StepName × Mgr Unit)}
    (hstep : Prog.Triple allOrNothing Clean step (fun _ => P) Clean)
    (hskipped : skipped skipFence name = true → ∀ s, Clean s → P s)
    (hrest : Prog.Triple allOrNothing P (runSteps cfg skipFence rest) (fun _ => Settled) Settled) :
    Prog.Triple allOrNothing Clean (runSteps cfg skipFence ((name, step) :: rest))
      (fun _ => Settled) Settled := by
  apply Prog.Triple.ite
  · intro hskip
    exact hrest.conseq allOrNothing_monotone (hskipped hskip) (fun _ _ => id) fun _ => id
  · intro _
    have hmark : (Mgr.host (.mark (.step name))).Calls early :=
      Prog.Calls.perform (.inl trivial)
    apply (settled_of_clean (clean_keeps hmark)).bind allOrNothing_monotone
    intro _
    apply (hstep.attempt allOrNothing_monotone).bind allOrNothing_monotone
    intro result
    cases result with
    | ok _ => exact hrest
    | error exc =>
        exact (settled_keeps (failed_passive cfg _)).conseq allOrNothing_monotone
          (fun _ => .inl) (fun _ _ => id) fun _ => id

theorem stepVerifyPeerState_early : (stepVerifyPeerState cfg).Calls early := by
  refine .perform_bind (.inl trivial) fun status => .perform_bind (.inl trivial) fun _ =>
    .ite trivial (.ite trivial ?_)
  refine .bind (.bind (.attempt (Prog.Calls.perform (.inl trivial))) fun result => ?_)
    fun _ => .ite trivial trivial
  cases result with
  | ok _ => trivial
  | error exc => exact .ite trivial trivial

theorem stepFence_early : (stepFence cfg).Calls early :=
  .perform_bind (.inl trivial) fun _ => .perform_bind (.inr rfl) fun _ =>
    (emit_passive _ _).mono fun _ => .inl

theorem steps_triple (skipFence : Bool) : Prog.Triple allOrNothing Clean
    (runSteps cfg skipFence (steps cfg)) (fun _ => Settled) Settled := by
  apply runSteps_cons (clean_keeps stepVerifyPeerState_early) fun _ _ => id
  apply runSteps_cons (clean_keeps stepFence_early) fun _ _ => id
  have hwait : (stepFenceWait cfg).Calls early := Prog.Calls.perform (.inl trivial)
  apply runSteps_cons (clean_keeps hwait) fun _ _ => id
  have hattach : Prog.Triple allOrNothing Clean (stepAttachDisk cfg) (fun _ => Burdened) Clean :=
    attachFrom_triple 5 (by decide) 3000
  apply runSteps_cons hattach
  · -- ATTACH is never skipped
    intro hskip
    simp [skipped] at hskip
  · exact (burdened_keeps (lateRun_keepsDisk skipFence)).conseq allOrNothing_monotone
      (fun _ => id) (fun _ _ => .inr) fun _ => .inr

theorem execute_triple (skipFence : Bool) : Prog.Triple allOrNothing Clean (execute cfg skipFence)
    (fun _ => Settled) Settled := by
  have hkeep {α : Type} {program : Mgr α} (hcalls : program.Calls Call.passive) :
      Prog.Triple allOrNothing Clean program (fun _ => Clean) Settled :=
    settled_of_clean (clean_keeps (hcalls.mono fun _ => .inl))
  have hhost (call : HostCall) (hcall : Call.passive (.host call)) :
      (Mgr.host call).Calls Call.passive := Prog.Calls.perform hcall
  apply (hkeep (hhost (.mark (.enter .failover)) trivial)).bind allOrNothing_monotone
  intro _
  have hleave := settled_keeps (hhost (.mark (.leave .failover)) trivial)
  refine Prog.Triple.ensuring allOrNothing_monotone (R := Settled) ?_ hleave
  apply (hkeep (hhost .attempts trivial)).bind allOrNothing_monotone
  intro attempts
  apply (hkeep (hhost (.setAttempts (attempts + 1)) trivial)).bind allOrNothing_monotone
  intro _
  apply (hkeep (hhost .monotonic trivial)).bind allOrNothing_monotone
  intro now
  apply (hkeep (hhost (.setLastAttemptTs now) trivial)).bind allOrNothing_monotone
  intro _
  apply (hkeep (hhost .attempts trivial)).bind allOrNothing_monotone
  intro current
  apply (hkeep (emit_passive _ _)).bind allOrNothing_monotone
  intro _
  apply (steps_triple skipFence).bind allOrNothing_monotone
  intro succeeded
  apply settled_keeps
  exact .ite (.perform_bind trivial fun _ => .bind (emit_passive _ _) fun _ => trivial) trivial

/-- **A failed failover.**  When `execute` returns False, the node is as it was, a
STANDBY that holds nothing, if and only if no attachment of the disk has succeeded. -/
theorem restored_iff (cfg : Config) (skipFence : Bool) (s s' : NodeWorld)
    (trace : List (Event Call.Ret Exc)) (hs : Vacant s)
    (htrace : (execute cfg skipFence).Trace trace (.returned false))
    (hhistory : History AllOrNothing s trace s') : Vacant s' ↔ ¬ attached trace := by
  have hlogged : History (logged AllOrNothing) (s, []) trace (s', [] ++ trace) :=
    hhistory.logged []
  have hclean : Clean (s, []) := ⟨hs, by simp [attached]⟩
  have hsettled : Settled (s', trace) :=
    Prog.trace_wp (execute_triple skipFence (s, []) hclean) htrace hlogged
  rcases hsettled with ⟨hvacant, hnot⟩ | ⟨hheld, hmem⟩
  · exact iff_of_true hvacant hnot
  · refine iff_of_false (fun hvacant => ?_) (fun hnot => hnot hmem)
    have hnone : s'.held .disk = false := hvacant.held .disk
    have hheld : s'.held .disk = true := hheld
    rw [hnone] at hheld
    cases hheld

section Sample

/-- A STANDBY that holds nothing. -/
def vacantNode : NodeWorld := ⟨standbyNode.daemon, fun _ => false⟩

theorem vacant_vacantNode : Vacant vacantNode := ⟨fun _ => rfl, rfl, rfl, rfl⟩

/-- A failover without fencing, during which one operation raises. -/
def failover (op : Call) : Run Call.Ret Exc Bool NodeWorld :=
  (execute .sampleStandby true).run (obey (· == op)) vacantNode

theorem history_failover {op : Call}
    (hlog : (failover op).log.all (fun event => lockFree event.op) = true) :
    History AllOrNothing vacantNode (failover op).log (failover op).final :=
  history_run_of_log allOrNothing_obey _ _ hlog

/-- The disk cannot be attached: nothing is left behind. -/
theorem restored_attachRaises : Vacant (failover (.disk .attachDiskRw)).final := by
  have htrace : (execute .sampleStandby true).Trace (failover (.disk .attachDiskRw)).log
      (.returned false) := trace_run _ _ _
  apply (restored_iff .sampleStandby true vacantNode _ _ vacant_vacantNode htrace
    (history_failover (by decide))).mpr
  intro hmem
  have hnone : (failover (.disk .attachDiskRw)).log.all (fun event =>
      event.op != .disk .attachDiskRw || event.answer.toBool.not) = true := by decide
  have hevent := List.all_eq_true.mp hnone _ hmem
  simp [Except.toBool] at hevent

/-- The filesystem cannot be mounted, and the disk stays attached. -/
theorem not_restored : ¬ ∀ cfg skipFence s s' trace, Vacant s →
    (execute cfg skipFence).Trace trace (.returned false) → History AllOrNothing s trace s' →
      Vacant s' := by
  intro h
  have htrace : (execute .sampleStandby true).Trace (failover (.disk .mountDisk)).log
      (.returned false) := trace_run _ _ _
  have hvacant := h .sampleStandby true vacantNode _ _ vacant_vacantNode htrace
    (history_failover (by decide))
  exact absurd (hvacant.held .disk) (by decide)

end Sample

end PgHa.Leftovers
