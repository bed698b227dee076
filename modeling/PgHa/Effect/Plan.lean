import Mathlib.Algebra.GroupWithZero.Nat
import PgHa.Effect.Trace

/-!
# Plans

A program follows a plan when what its operations show comes, on any answers, in
the order of the plan and no more often.  Which of the plan comes depends on the
answers, so a plan is a bound: on what a program does, on the order in which it
does it (`shown_sublist`), and on what it costs (`sum_le`).

What an operation shows is a list, so that an operation whose implementation
shows several things can stand for them (`Follows.lower`).
-/

namespace Effect

variable {Op Op' : Type} {Ret : Op → Type} {Ret' : Op' → Type} {ε α β τ : Type}

/-- What the operations of a trace show. -/
def shown (label : Op → List τ) (trace : List (Event Ret ε)) : List τ :=
  trace.flatMap fun event => label event.op

namespace Prog

def Follows (label : Op → List τ) : Prog Ret ε α → List τ → Prop
  | .call op rest, plan =>
      ∃ left, (label op ++ left).Sublist plan ∧ ∀ answer, (rest answer).Follows label left
  | _, _ => True

namespace Follows

variable {label : Op → List τ} {program : Prog Ret ε α} {plan plan' : List τ}

theorem mono (h : program.Follows label plan) (hle : plan.Sublist plan') :
    program.Follows label plan' := by
  cases program with
  | call op rest =>
      obtain ⟨left, hleft, hrest⟩ := h
      exact ⟨left, hleft.trans hle, hrest⟩
  | _ => trivial

theorem pure (value : α) : (Prog.pure value : Prog Ret ε α).Follows label plan := trivial

theorem ofExcept (result : Except ε α) : (ofExcept result : Prog Ret ε α).Follows label plan := by
  cases result <;> trivial

theorem perform (op : Op) : (perform op : Prog Ret ε (Ret op)).Follows label (label op) :=
  ⟨[], by simp, fun _ => ofExcept _⟩

/-- The plans of two programs that follow one another stand one after the other. -/
theorem bind {next : α → Prog Ret ε β} (first : program.Follows label plan)
    (rest : ∀ value, (next value).Follows label plan') :
    (program.bind next).Follows label (plan ++ plan') := by
  induction program generalizing plan with
  | pure value => exact (rest value).mono (List.sublist_append_right plan plan')
  | call op tail ih =>
      obtain ⟨left, hleft, htail⟩ := first
      refine ⟨left ++ plan', ?_, fun answer => ih answer (htail answer)⟩
      rw [← List.append_assoc]
      exact hleft.append (List.Sublist.refl plan')
  | _ => trivial

/-- A first program that shows nothing. -/
theorem silent_bind {next : α → Prog Ret ε β} (first : program.Follows label [])
    (rest : ∀ value, (next value).Follows label plan) : (program.bind next).Follows label plan :=
  first.bind rest

/-- A second program that shows nothing. -/
theorem bind_silent {next : α → Prog Ret ε β} (first : program.Follows label plan)
    (rest : ∀ value, (next value).Follows label []) : (program.bind next).Follows label plan := by
  have h := first.bind rest
  rwa [List.append_nil] at h

theorem ite {condition : Prop} [Decidable condition] {no : Prog Ret ε α}
    (hyes : program.Follows label plan) (hno : no.Follows label plan) :
    (if condition then program else no).Follows label plan := by
  split
  · exact hyes
  · exact hno

theorem attempt (h : program.Follows label plan) : program.attempt.Follows label plan := by
  induction program generalizing plan with
  | call op rest ih =>
      obtain ⟨left, hleft, hrest⟩ := h
      exact ⟨left, hleft, fun answer => ih answer (hrest answer)⟩
  | _ => trivial

/-- A handler can start wherever the program is, with all of its plan before it. -/
theorem except {handler : ε → Prog Ret ε α} (first : program.Follows label plan)
    (rest : ∀ error, (handler error).Follows label plan') :
    (program.except handler).Follows label (plan ++ plan') := by
  rw [except_eq_attempt_bind]
  refine first.attempt.bind fun result => ?_
  cases result with
  | ok value => trivial
  | error error => exact rest error

theorem except_silent {handler : ε → Prog Ret ε α} (first : program.Follows label plan)
    (rest : ∀ error, (handler error).Follows label []) :
    (program.except handler).Follows label plan := by
  have h := first.except rest
  rwa [List.append_nil] at h

theorem ensuring {cleanup : Prog Ret ε Unit} (first : program.Follows label plan)
    (last : cleanup.Follows label plan') :
    (program.ensuring cleanup).Follows label (plan ++ plan') := by
  refine first.attempt.bind fun result => ?_
  rw [← List.append_nil plan']
  exact last.bind fun _ => ofExcept result

/-- What shows nothing follows every plan. -/
theorem of_calls {allowed : Op → Prop} (hlabel : ∀ op, allowed op → label op = [])
    (hcalls : program.Calls allowed) : program.Follows label plan := by
  induction program generalizing plan with
  | call op rest ih =>
      exact ⟨plan, by simp [hlabel op hcalls.1], fun answer => ih answer (hcalls.2 answer)⟩
  | _ => trivial

/-- The implementation of a program follows its plan, if that of each operation shows no more than
the operation stands for. -/
theorem lower {impl : (op : Op) → Prog Ret' ε (Ret op)} {label' : Op' → List τ}
    (h : program.Follows label plan) (himpl : ∀ op, (impl op).Follows label' (label op)) :
    (program.lower impl).Follows label' plan := by
  induction program generalizing plan with
  | call op rest ih =>
      obtain ⟨left, hleft, hrest⟩ := h
      exact ((himpl op).attempt.bind fun answer => ih answer (hrest answer)).mono hleft
  | _ => trivial

theorem shown_sublist (h : program.Follows label plan) {trace : List (Event Ret ε)}
    {outcome : Outcome ε α} (htrace : program.Trace trace outcome) :
    (shown label trace).Sublist plan := by
  induction htrace generalizing plan with
  | @call op next answer trace outcome _ ih =>
      obtain ⟨left, hleft, hrest⟩ := h
      have htail : (shown label trace).Sublist left := ih (hrest answer)
      exact ((List.Sublist.refl (label op)).append htail).trans hleft
  | _ => exact List.nil_sublist plan

/-- A plan bounds what a program costs, whatever its operations cost. -/
theorem sum_le (h : program.Follows label plan) (price : τ → ℕ) {trace : List (Event Ret ε)}
    {outcome : Outcome ε α} (htrace : program.Trace trace outcome) :
    ((shown label trace).map price).sum ≤ (plan.map price).sum := by
  have hsublist := h.shown_sublist htrace
  clear h
  generalize shown label trace = list at hsublist
  induction hsublist with
  | slnil => exact Nat.le_refl _
  | cons item _ ih =>
      rw [List.map_cons, List.sum_cons]
      omega
  | cons_cons item _ ih =>
      rw [List.map_cons, List.map_cons, List.sum_cons, List.sum_cons]
      omega

end Follows

end Prog

end Effect
