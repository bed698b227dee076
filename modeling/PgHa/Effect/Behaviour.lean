import PgHa.Effect.Refine
import PgHa.Effect.Triple

/-!
# Interfaces whose effects are functions

Where what an operation does is a function of the state (`done`) and only its
answer is open (`answers`), a program can be followed from one state to the next:
`Leaves` and `Gives`, with a rule for each construct.  A clock runs beside the
state; nothing is said of it but where an operation looks (`timely`).

`Behaviour.refines` connects two such interfaces: the state of the lower one stands
for a state of the upper one, and the implementation of an operation leads from a
state to one that stands for what the operation leaves.
-/

namespace Effect

variable {Op Op' : Type} {Ret : Op → Type} {Ret' : Op' → Type} {ε α β σ τ : Type}

/-- A state at some time. -/
structure Moment (σ : Type) where
  state : σ
  now : Int

/-- What the operations of an interface do. -/
structure Behaviour (Ret : Op → Type) (ε σ : Type) where
  /-- Where an operation may be performed. -/
  ready : σ → Op → Prop
  /-- The answers it may have. -/
  answers : σ → (op : Op) → Except ε (Ret op) → Prop
  /-- What it leaves behind. -/
  done : σ → Op → σ
  /-- What it has to do with the time before and after it. -/
  timely : Int → Event Ret ε → Int → Prop

namespace Behaviour

structure Step (b : Behaviour Ret ε σ) (s : Moment σ) (event : Event Ret ε) (s' : Moment σ) :
    Prop where
  answers : b.answers s.state event.op event.answer
  done : s'.state = b.done s.state event.op
  timely : b.timely s.now event s'.now

/-- The operations of the interface, each where it may be performed. -/
abbrev transformer (b : Behaviour Ret ε σ) : Transformer Ret ε (Moment σ) :=
  guarded (fun s op => b.ready s.state op) b.Step

variable {b : Behaviour Ret ε σ} {x x' x'' : σ}

theorem transformer_monotone : b.transformer.Monotone := guarded_monotone _ _

/-- The state is as given, at whatever time. -/
def Is (x : σ) (s : Moment σ) : Prop := s.state = x

/-- Started in `x`, the program returns and leaves `x'` behind. -/
abbrev Leaves (b : Behaviour Ret ε σ) (x : σ) (program : Prog Ret ε α) (x' : σ) : Prop :=
  Prog.Returns b.transformer (Is x) program fun _ => Is x'

/-- Started in `x`, the program returns the value and leaves `x'` behind. -/
abbrev Gives (b : Behaviour Ret ε σ) (x : σ) (program : Prog Ret ε α) (value : α) (x' : σ) : Prop :=
  Prog.Returns b.transformer (Is x) program fun result s => result = value ∧ Is x' s

/-! ## Rules -/

theorem gives_pure (value : α) : b.Gives x (.pure value) value x := .pure fun _ h => ⟨rfl, h⟩

theorem leaves_pure (value : α) : b.Leaves x (.pure value) x := .pure fun _ h => h

/-- What holds of the state that is left behind holds of the state in the end. -/
theorem Leaves.returns {program : Prog Ret ε α} {P : σ → Prop} (h : b.Leaves x program x')
    (hP : P x') : Prog.Returns b.transformer (Is x) program fun _ s => P s.state := by
  refine h.conseq transformer_monotone (fun _ => id) fun _ s hs => ?_
  rwa [show s.state = x' from hs]

/-- An operation by what its answers have in common. -/
theorem returns_perform {op : Op} {Q : Ret op → σ → Prop} (hready : b.ready x op)
    (hanswer : ∀ answer, b.answers x op answer → ∃ value, answer = .ok value ∧
      Q value (b.done x op)) :
    Prog.Returns b.transformer (Is x) (.perform op) fun value s => Q value s.state := by
  refine .perform (fun s hs => ?_) fun s answer s' hs hstep => ?_
  · rw [show s.state = x from hs]
    exact hready
  · obtain ⟨hanswers, hdone, -⟩ := hstep
    rw [show s.state = x from hs] at hanswers hdone
    rw [show s'.state = b.done x op from hdone]
    exact hanswer answer hanswers

/-- An operation that has one answer. -/
theorem gives_perform {op : Op} {value : Ret op} (hready : b.ready x op)
    (hanswer : ∀ answer, b.answers x op answer → answer = .ok value) :
    b.Gives x (.perform op) value (b.done x op) :=
  returns_perform (Q := fun result y => result = value ∧ y = b.done x op) hready
    fun answer h => ⟨value, hanswer answer h, rfl, rfl⟩

/-- An operation that does not raise. -/
theorem leaves_perform {op : Op} (hready : b.ready x op)
    (hanswer : ∀ answer, b.answers x op answer → ∃ value, answer = .ok value) :
    b.Leaves x (.perform op) (b.done x op) :=
  returns_perform (Q := fun _ y => y = b.done x op) hready fun answer h => by
    obtain ⟨value, hvalue⟩ := hanswer answer h
    exact ⟨value, hvalue, rfl⟩

theorem Leaves.bind {program : Prog Ret ε α} {next : α → Prog Ret ε β} {Q : β → Moment σ → Prop}
    (first : b.Leaves x program x')
    (rest : ∀ value, Prog.Returns b.transformer (Is x') (next value) Q) :
    Prog.Returns b.transformer (Is x) (program.bind next) Q :=
  Prog.Returns.bind transformer_monotone first rest

theorem Gives.bind {program : Prog Ret ε α} {value : α} {next : α → Prog Ret ε β}
    {Q : β → Moment σ → Prop} (first : b.Gives x program value x')
    (rest : Prog.Returns b.transformer (Is x') (next value) Q) :
    Prog.Returns b.transformer (Is x) (program.bind next) Q := by
  refine Prog.Returns.bind transformer_monotone first fun result s hs => ?_
  obtain ⟨rfl, hs⟩ := hs
  exact rest s hs

theorem Leaves.attempt_bind {program : Prog Ret ε α} {next : Except ε α → Prog Ret ε β}
    {Q : β → Moment σ → Prop} (first : b.Leaves x program x')
    (rest : ∀ value, Prog.Returns b.transformer (Is x') (next (.ok value)) Q) :
    Prog.Returns b.transformer (Is x) (program.attempt.bind next) Q :=
  Prog.Returns.attempt_bind transformer_monotone first rest

theorem Gives.attempt_bind {program : Prog Ret ε α} {value : α} {next : Except ε α → Prog Ret ε β}
    {Q : β → Moment σ → Prop} (first : b.Gives x program value x')
    (rest : Prog.Returns b.transformer (Is x') (next (.ok value)) Q) :
    Prog.Returns b.transformer (Is x) (program.attempt.bind next) Q := by
  refine Prog.Returns.attempt_bind transformer_monotone first fun result s hs => ?_
  obtain ⟨rfl, hs⟩ := hs
  exact rest s hs

/-- An operation whose failure is not looked at. -/
theorem attempt_leaves {op : Op} (hready : b.ready x op) :
    b.Leaves x (Prog.perform op : Prog Ret ε (Ret op)).attempt (b.done x op) := by
  intro s hs
  have hstate : s.state = x := hs
  rw [Prog.wp_attempt, Prog.wp_perform]
  refine ⟨by rwa [← hstate] at hready, fun answer s' hstep => ?_⟩
  have hdone := hstep.done
  rw [hstate] at hdone
  cases answer <;> exact hdone

/-- What every operation of a program keeps, an attempt of it keeps; by induction on the program. -/
theorem attempt_keeps {P : σ → Prop} {program : Prog Ret ε α} (hbounded : program.Bounded)
    (hcalls : program.Calls fun op => ∀ x, P x → b.ready x op ∧ P (b.done x op)) :
    Prog.Returns b.transformer (fun s => P s.state) program.attempt fun _ s => P s.state := by
  intro s hs
  rw [Prog.wp_attempt]
  induction program generalizing s with
  | call op next ih =>
      obtain ⟨hready, hdone⟩ := hcalls.1 s.state hs
      refine ⟨hready, fun answer s' hstep => ?_⟩
      refine ih answer (hbounded answer) (hcalls.2 answer) s' ?_
      rw [hstep.done]
      exact hdone
  | stuck => exact hbounded.elim
  | _ => exact hs

/-- What leaves every state as it is keeps what is known of it. -/
theorem keeps_of_leaves {P : σ → Prop} {program : Prog Ret ε α} (h : ∀ x, b.Leaves x program x) :
    Prog.Returns b.transformer (fun s => P s.state) program fun _ s => P s.state := by
  intro s hs
  refine Prog.wp_mono transformer_monotone (fun outcome s' hend => ?_) (h s.state s rfl)
  cases outcome with
  | returned value =>
      have hsame : s'.state = s.state := hend
      show P s'.state
      rwa [hsame]
  | _ => exact hend

/-- Two looks at a clock in a row: the second one is before the deadline that the first one has
set. -/
theorem twice_returns {clock : Op} (shows : Ret clock → Int) {patience timeout : Int}
    (hready : b.ready x clock) (hdone : b.done x clock = x)
    (htimely : ∀ now answer now', b.timely now ⟨clock, answer⟩ now' →
      ∃ value, answer = .ok value ∧ shows value = now' ∧ now' < now + patience)
    (htimeout : patience ≤ timeout) {next : Ret clock → Ret clock → Prog Ret ε α}
    {Q : α → Moment σ → Prop}
    (h : ∀ first second, shows second < shows first + timeout →
      Prog.Returns b.transformer (Is x) (next first second) Q) :
    Prog.Returns b.transformer (Is x)
      ((Prog.perform clock).bind fun first => (Prog.perform clock).bind (next first)) Q := by
  have hread (P : Moment σ → Prop) (hP : ∀ s, P s → Is x s) :
      Prog.Returns b.transformer P (Prog.perform clock : Prog Ret ε (Ret clock)) fun value s' =>
        Is x s' ∧ s'.now = shows value ∧ ∃ s, P s ∧ shows value < s.now + patience := by
    refine .perform (fun s hs => ?_) fun s answer s' hs hstep => ?_
    · rwa [show s.state = x from hP s hs]
    · have hsame : s'.state = x := by rw [hstep.done, show s.state = x from hP s hs, hdone]
      obtain ⟨value, hanswer, hnow, hlate⟩ := htimely _ _ _ hstep.timely
      exact ⟨value, hanswer, hsame, hnow.symm, s, hs, by rwa [hnow]⟩
  refine Prog.Returns.bind transformer_monotone (hread (Is x) fun _ => id) fun first => ?_
  refine Prog.Returns.bind transformer_monotone (hread _ fun _ hs => hs.1) fun second s hs => ?_
  obtain ⟨hsame, -, before, ⟨-, hfirst, -⟩, hsecond⟩ := hs
  exact h first second (by omega) s hsame

/-! ## Implementations -/

/-- The implementation of an operation leads to a state that stands for what the operation
leaves. -/
def Lands (b : Behaviour Ret ε σ) (stands : τ → σ) (good : τ → Prop) (t : Moment τ) (op : Op)
    (outcome : Outcome ε (Ret op)) (t' : Moment τ) : Prop :=
  ∃ answer, outcome = Prog.answered answer ∧ b.answers (stands t.state) op answer ∧
    stands t'.state = b.done (stands t.state) op ∧ good t'.state ∧
      b.timely t.now ⟨op, answer⟩ t'.now

theorem refines {c : Behaviour Ret' ε τ} {stands : τ → σ} {good : τ → Prop}
    {impl : (op : Op) → Prog Ret' ε (Ret op)}
    (h : ∀ op t, good t.state → b.ready (stands t.state) op →
      (impl op).wp c.transformer (b.Lands stands good t op) t) :
    Refines (fun s t => s.state = stands t.state ∧ s.now = t.now ∧ good t.state)
      (fun s op => b.ready s.state op) b.Step c.transformer impl where
  monotone := transformer_monotone
  carries op s t hrel hready := by
    obtain ⟨hstate, hnow, hgood⟩ := hrel
    rw [hstate] at hready
    refine Prog.wp_mono transformer_monotone (fun outcome t' hend => ?_) (h op t hgood hready)
    obtain ⟨answer, houtcome, hanswer, hdone, hgood', htimely⟩ := hend
    refine ⟨answer, ⟨stands t'.state, t'.now⟩, houtcome, ⟨?_, ?_, ?_⟩, rfl, rfl, hgood'⟩
    · rwa [hstate]
    · rw [hdone, hstate]
    · rwa [hnow]

/-- An operation that nobody times, by an implementation that returns. -/
theorem lands_of_returns {c : Behaviour Ret' ε τ} {stands : τ → σ} {good : τ → Prop} {op : Op}
    {program : Prog Ret' ε (Ret op)} {t : Moment τ}
    (huntimed : ∀ now answer now', b.timely now ⟨op, answer⟩ now')
    (h : Prog.Returns c.transformer (Is t.state) program fun value t' =>
      b.answers (stands t.state) op (.ok value) ∧ stands t'.state = b.done (stands t.state) op ∧
        good t'.state) :
    program.wp c.transformer (b.Lands stands good t op) t := by
  refine Prog.wp_mono transformer_monotone (fun outcome t' hend => ?_) (h t rfl)
  cases outcome with
  | returned value =>
      obtain ⟨hanswer, hdone, hgood⟩ := hend
      exact ⟨.ok value, rfl, hanswer, hdone, hgood, huntimed _ _ _⟩
  | _ => exact hend.elim

end Behaviour

end Effect
