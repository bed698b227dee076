import Mathlib.Logic.Function.Basic
import Mathlib.Tactic.Common

/-!
# Programs over an interface of operations

A program that talks to its environment is a tree: it has ended (with a value
or with an exception), or it performs an operation of its interface and goes on
with whatever the environment answers.  The interface is a type `Op` of
operations together with the type `Ret op` of the answers to each; an answer is
an `Except`, so that an operation may also raise.

`Prog` is that tree.  It is a monad, and `Prog.except` is the handler of an
exception.  Nothing is said here about what an operation does: traces
(`Trace.lean`), predicate transformers (`Wp.lean`) and interleavings of several
programs (`Threads.lean`) give the same program its meanings.

The tree is well founded, so a loop without a bound is written with fuel and
ends in `Prog.stuck` when the fuel is used up: a program that goes on but is
not followed any further.
-/

namespace Effect

/-- A program over the operations `Op`, whose answers have the types `Ret`,
with exceptions `ε` and results `α`. -/
inductive Prog {Op : Type} (Ret : Op → Type) (ε α : Type) : Type
  | pure (value : α)
  | raise (error : ε)
  /-- A loop that has used up its fuel. -/
  | stuck
  | call (op : Op) (next : Except ε (Ret op) → Prog Ret ε α)

/-- How a program ends. -/
inductive Outcome (ε α : Type) : Type
  | returned (value : α)
  | raised (error : ε)
  | stuck
  deriving DecidableEq

namespace Prog

variable {Op Op' : Type} {Ret : Op → Type} {Ret' : Op' → Type} {ε α β γ : Type}

/-- Run `program`, then `next` on its result. -/
def bind : Prog Ret ε α → (α → Prog Ret ε β) → Prog Ret ε β
  | .pure value, next => next value
  | .raise error, _ => .raise error
  | .stuck, _ => .stuck
  | .call op rest, next => .call op fun answer => (rest answer).bind next

instance : Monad (Prog Ret ε) where
  pure := .pure
  bind := .bind

/-- `try: program; except Exception as error: handler(error)`. -/
def except : Prog Ret ε α → (ε → Prog Ret ε α) → Prog Ret ε α
  | .pure value, _ => .pure value
  | .raise error, handler => handler error
  | .stuck, _ => .stuck
  | .call op rest, handler => .call op fun answer => (rest answer).except handler

/-- Run `program` and return how it ended, an exception included. -/
def attempt : Prog Ret ε α → Prog Ret ε (Except ε α)
  | .pure value => .pure (.ok value)
  | .raise error => .pure (.error error)
  | .stuck => .stuck
  | .call op rest => .call op fun answer => (rest answer).attempt

/-- The value, or the exception, that `result` holds. -/
def ofExcept : Except ε α → Prog Ret ε α
  | .ok value => .pure value
  | .error error => .raise error

/-- One operation on its own. -/
def perform (op : Op) : Prog Ret ε (Ret op) := .call op ofExcept

/-- `try: program; finally: cleanup`. -/
def ensuring (program : Prog Ret ε α) (cleanup : Prog Ret ε Unit) : Prog Ret ε α := do
  let result ← program.attempt
  cleanup
  ofExcept result

/-- The same program with every operation replaced by its implementation over
another interface. -/
def lower (impl : (op : Op) → Prog Ret' ε (Ret op)) : Prog Ret ε α → Prog Ret' ε α
  | .pure value => .pure value
  | .raise error => .raise error
  | .stuck => .stuck
  | .call op rest => (impl op).attempt.bind fun answer => (rest answer).lower impl

/-- A program that has ended.  A loop out of fuel has not: it goes on. -/
def Finished : Prog Ret ε α → Prop
  | .pure _ | .raise _ => True
  | .stuck | .call _ _ => False

/-- How an ended program ended. -/
def outcome? : Prog Ret ε α → Option (Outcome ε α)
  | .pure value => some (.returned value)
  | .raise error => some (.raised error)
  | .stuck => some .stuck
  | .call _ _ => none

/-! ## The monad laws -/

@[simp] theorem pure_eq (value : α) : (Pure.pure value : Prog Ret ε α) = .pure value := rfl

@[simp] theorem bind_eq (program : Prog Ret ε α) (next : α → Prog Ret ε β) :
    program >>= next = program.bind next := rfl

@[simp] theorem pure_bind (value : α) (next : α → Prog Ret ε β) :
    (Prog.pure value).bind next = next value := rfl

@[simp] theorem raise_bind (error : ε) (next : α → Prog Ret ε β) :
    (Prog.raise error).bind next = .raise error := rfl

@[simp] theorem call_bind (op : Op) (rest : Except ε (Ret op) → Prog Ret ε α)
    (next : α → Prog Ret ε β) :
    (Prog.call op rest).bind next = .call op fun answer => (rest answer).bind next := rfl

theorem bind_pure (program : Prog Ret ε α) : program.bind .pure = program := by
  induction program with
  | call op rest ih => exact congrArg (Prog.call op) (funext ih)
  | _ => rfl

theorem bind_assoc (program : Prog Ret ε α) (first : α → Prog Ret ε β)
    (second : β → Prog Ret ε γ) :
    (program.bind first).bind second = program.bind fun value => (first value).bind second := by
  induction program with
  | call op rest ih => exact congrArg (Prog.call op) (funext ih)
  | _ => rfl

/-! ## Handlers -/

@[simp] theorem attempt_pure (value : α) :
    (Prog.pure value : Prog Ret ε α).attempt = .pure (.ok value) := rfl

@[simp] theorem attempt_raise (error : ε) :
    (Prog.raise error : Prog Ret ε α).attempt = .pure (.error error) := rfl

/-- Outside of an attempted program nothing is left to raise. -/
theorem attempt_attempt_bind (program : Prog Ret ε α) (next : Except ε α → Prog Ret ε β) :
    (program.attempt.bind next).attempt = program.attempt.bind fun result =>
      (next result).attempt := by
  induction program with
  | call op rest ih => exact congrArg (Prog.call op) (funext ih)
  | _ => rfl

/-- A handler is `attempt` followed by a case distinction. -/
theorem except_eq_attempt_bind (program : Prog Ret ε α) (handler : ε → Prog Ret ε α) :
    program.except handler = program.attempt.bind fun result =>
      match result with
      | .ok value => .pure value
      | .error error => handler error := by
  induction program with
  | call op rest ih => exact congrArg (Prog.call op) (funext ih)
  | _ => rfl

/-! ## Lowering -/

@[simp] theorem lower_pure (impl : (op : Op) → Prog Ret' ε (Ret op)) (value : α) :
    (Prog.pure value : Prog Ret ε α).lower impl = .pure value := rfl

@[simp] theorem lower_raise (impl : (op : Op) → Prog Ret' ε (Ret op)) (error : ε) :
    (Prog.raise error : Prog Ret ε α).lower impl = .raise error := rfl

@[simp] theorem lower_bind (impl : (op : Op) → Prog Ret' ε (Ret op)) (program : Prog Ret ε α)
    (next : α → Prog Ret ε β) :
    (program.bind next).lower impl = (program.lower impl).bind fun value =>
      (next value).lower impl := by
  induction program with
  | call op rest ih =>
      simp only [call_bind, lower, bind_assoc]
      exact congrArg _ (funext ih)
  | _ => rfl

section LowerParts

variable (impl : (op : Op) → Prog Ret' ε (Ret op))

/-- An implementation is entered and left as a whole. -/
private theorem attempt_bind_ofExcept (program : Prog Ret ε α) :
    program.attempt.bind ofExcept = program := by
  induction program with
  | call op rest ih => exact congrArg (Prog.call op) (funext ih)
  | _ => rfl

@[simp] theorem lower_ofExcept (result : Except ε α) :
    (ofExcept result : Prog Ret ε α).lower impl = ofExcept result := by
  cases result <;> rfl

@[simp] theorem lower_perform (op : Op) :
    (perform op : Prog Ret ε (Ret op)).lower impl = impl op := by
  simp only [perform, lower, lower_ofExcept]
  exact attempt_bind_ofExcept (impl op)

@[simp] theorem lower_attempt (program : Prog Ret ε α) :
    program.attempt.lower impl = (program.lower impl).attempt := by
  induction program with
  | call op rest ih =>
      simp only [attempt, lower, attempt_attempt_bind]
      exact congrArg _ (funext ih)
  | _ => rfl

@[simp] theorem lower_except (program : Prog Ret ε α) (handler : ε → Prog Ret ε α) :
    (program.except handler).lower impl =
      (program.lower impl).except fun error => (handler error).lower impl := by
  simp only [except_eq_attempt_bind, lower_bind, lower_attempt]
  refine congrArg _ (funext fun result => ?_)
  cases result <;> rfl

@[simp] theorem lower_ite {condition : Prop} [Decidable condition] (yes no : Prog Ret ε α) :
    (if condition then yes else no).lower impl =
      if condition then yes.lower impl else no.lower impl := by
  split <;> rfl

end LowerParts

/-! ## The operations a program may perform -/

/-- Every operation of the program, on every answer, satisfies `allowed`. -/
def Calls (allowed : Op → Prop) : Prog Ret ε α → Prop
  | .call op rest => allowed op ∧ ∀ answer, (rest answer).Calls allowed
  | _ => True

variable {allowed : Op → Prop}

@[simp] theorem calls_pure (value : α) : (Prog.pure value : Prog Ret ε α).Calls allowed := trivial

@[simp] theorem calls_raise (error : ε) : (Prog.raise error : Prog Ret ε α).Calls allowed :=
  trivial

@[simp] theorem calls_stuck : (Prog.stuck : Prog Ret ε α).Calls allowed := trivial

/-- What every operation satisfies, every program performs. -/
theorem calls_of_forall (h : ∀ op, allowed op) (program : Prog Ret ε α) :
    program.Calls allowed := by
  induction program with
  | call op rest ih => exact ⟨h op, ih⟩
  | _ => trivial

@[simp] theorem calls_ofExcept (result : Except ε α) :
    (ofExcept result : Prog Ret ε α).Calls allowed := by
  cases result <;> trivial

@[simp] theorem calls_perform (op : Op) :
    (perform op : Prog Ret ε (Ret op)).Calls allowed ↔ allowed op :=
  ⟨fun h => h.1, fun h => ⟨h, fun _ => calls_ofExcept _⟩⟩

theorem Calls.bind {program : Prog Ret ε α} {next : α → Prog Ret ε β}
    (first : program.Calls allowed) (rest : ∀ value, (next value).Calls allowed) :
    (program.bind next).Calls allowed := by
  induction program with
  | pure value => exact rest value
  | call op next ih => exact ⟨first.1, fun answer => ih answer (first.2 answer)⟩
  | _ => trivial

/-- A program that starts with one operation. -/
theorem Calls.perform_bind {op : Op} {next : Ret op → Prog Ret ε β} (hop : allowed op)
    (rest : ∀ value, (next value).Calls allowed) : ((perform op).bind next).Calls allowed :=
  Calls.bind ((calls_perform op).mpr hop) rest

theorem Calls.perform {op : Op} (h : allowed op) :
    (perform op : Prog Ret ε (Ret op)).Calls allowed :=
  (calls_perform op).mpr h

theorem Calls.ite {condition : Prop} [Decidable condition] {yes no : Prog Ret ε α}
    (hyes : yes.Calls allowed) (hno : no.Calls allowed) :
    (if condition then yes else no).Calls allowed := by
  split
  · exact hyes
  · exact hno

theorem Calls.attempt {program : Prog Ret ε α} (h : program.Calls allowed) :
    program.attempt.Calls allowed := by
  induction program with
  | call op rest ih => exact ⟨h.1, fun answer => ih answer (h.2 answer)⟩
  | _ => trivial

theorem Calls.except {program : Prog Ret ε α} {handler : ε → Prog Ret ε α}
    (first : program.Calls allowed) (rest : ∀ error, (handler error).Calls allowed) :
    (program.except handler).Calls allowed := by
  induction program with
  | raise error => exact rest error
  | call op next ih => exact ⟨first.1, fun answer => ih answer (first.2 answer)⟩
  | _ => trivial

theorem Calls.mono {program : Prog Ret ε α} {weaker : Op → Prop} (h : program.Calls allowed)
    (himp : ∀ op, allowed op → weaker op) : program.Calls weaker := by
  induction program with
  | call op rest ih => exact ⟨himp op h.1, fun answer => ih answer (h.2 answer)⟩
  | _ => trivial

theorem Calls.ensuring {program : Prog Ret ε α} {cleanup : Prog Ret ε Unit}
    (first : program.Calls allowed) (last : cleanup.Calls allowed) :
    (program.ensuring cleanup).Calls allowed :=
  first.attempt.bind fun _ => last.bind fun _ => calls_ofExcept _

theorem Calls.lower {impl : (op : Op) → Prog Ret' ε (Ret op)} {allowed' : Op' → Prop}
    {program : Prog Ret ε α} (h : program.Calls allowed)
    (himpl : ∀ op, allowed op → (impl op).Calls allowed') :
    (program.lower impl).Calls allowed' := by
  induction program with
  | call op rest ih => exact (himpl op h.1).attempt.bind fun answer => ih answer (h.2 answer)
  | _ => trivial

/-! ## Programs whose loops end -/

/-- No loop of the program runs out of fuel, on any answers. -/
def Bounded : Prog Ret ε α → Prop
  | .stuck => False
  | .call _ rest => ∀ answer, (rest answer).Bounded
  | _ => True

theorem bounded_ofExcept (result : Except ε α) : (ofExcept result : Prog Ret ε α).Bounded := by
  cases result <;> trivial

theorem bounded_perform (op : Op) : (perform op : Prog Ret ε (Ret op)).Bounded :=
  fun _ => bounded_ofExcept _

theorem Bounded.bind {program : Prog Ret ε α} {next : α → Prog Ret ε β} (first : program.Bounded)
    (rest : ∀ value, (next value).Bounded) : (program.bind next).Bounded := by
  induction program with
  | pure value => exact rest value
  | raise error => trivial
  | stuck => exact first
  | call op tail ih => exact fun answer => ih answer (first answer)

theorem Bounded.ite {condition : Prop} [Decidable condition] {yes no : Prog Ret ε α}
    (hyes : yes.Bounded) (hno : no.Bounded) : (if condition then yes else no).Bounded := by
  split
  · exact hyes
  · exact hno

theorem Bounded.attempt {program : Prog Ret ε α} (h : program.Bounded) :
    program.attempt.Bounded := by
  induction program with
  | stuck => exact h
  | call op rest ih => exact fun answer => ih answer (h answer)
  | _ => trivial

theorem Bounded.except {program : Prog Ret ε α} {handler : ε → Prog Ret ε α}
    (first : program.Bounded) (rest : ∀ error, (handler error).Bounded) :
    (program.except handler).Bounded := by
  induction program with
  | pure value => trivial
  | raise error => exact rest error
  | stuck => exact first
  | call op tail ih => exact fun answer => ih answer (first answer)

theorem Bounded.lower {impl : (op : Op) → Prog Ret' ε (Ret op)} {program : Prog Ret ε α}
    (h : program.Bounded) (hcalls : program.Calls allowed)
    (himpl : ∀ op, allowed op → (impl op).Bounded) : (program.lower impl).Bounded := by
  induction program with
  | stuck => exact h
  | call op rest ih =>
      exact (himpl op hcalls.1).attempt.bind fun answer => ih answer (h answer) (hcalls.2 answer)
  | _ => trivial

/-! ## The values a program may return -/

/-- Every value that the program can return satisfies `P`. -/
def Yields (P : α → Prop) : Prog Ret ε α → Prop
  | .pure value => P value
  | .call _ rest => ∀ answer, (rest answer).Yields P
  | _ => True

theorem Yields.bind {P : β → Prop} {next : α → Prog Ret ε β} (program : Prog Ret ε α)
    (h : ∀ value, (next value).Yields P) : (program.bind next).Yields P := by
  induction program with
  | pure value => exact h value
  | call op rest ih => exact ih
  | _ => trivial

theorem Yields.lower {P : α → Prop} {program : Prog Ret ε α} (h : program.Yields P)
    (impl : (op : Op) → Prog Ret' ε (Ret op)) : (program.lower impl).Yields P := by
  induction program with
  | call op rest ih => exact Yields.bind _ fun answer => ih answer (h answer)
  | _ => exact h

/-! ## The exceptions a program may raise -/

/-- Every exception that the program can end with satisfies `P`. -/
def Raises (P : ε → Prop) : Prog Ret ε α → Prop
  | .raise error => P error
  | .call _ rest => ∀ answer, (rest answer).Raises P
  | _ => True

theorem Raises.bind {P : ε → Prop} {program : Prog Ret ε α} {next : α → Prog Ret ε β}
    (first : program.Raises P) (rest : ∀ value, (next value).Raises P) :
    (program.bind next).Raises P := by
  induction program with
  | pure value => exact rest value
  | raise error => exact first
  | stuck => trivial
  | call op tail ih => exact fun answer => ih answer (first answer)

theorem raises_attempt {P : ε → Prop} (program : Prog Ret ε α) : program.attempt.Raises P := by
  induction program with
  | call op rest ih => exact ih
  | _ => trivial

end Prog

end Effect
