import PgHa.Effect.Wp

/-!
# Triples

`Triple transformer P program Q E`: started where `P` holds, the program
returns only where `Q` holds of its value, and raises only where `E` holds.  A
loop out of fuel goes on, and nothing is said of it.  The rules are those of a
Hoare logic with exceptions; `Keeps` is the case of an assertion that holds
before and after, however the program ends.
-/

namespace Effect

namespace Prog

variable {Op : Type} {Ret : Op → Type} {ε α β σ : Type} {transformer : Transformer Ret ε σ}

/-- A postcondition for programs that return, and one for those that raise. -/
def ending (Q : α → σ → Prop) (E : σ → Prop) : Outcome ε α → σ → Prop
  | .returned value, s => Q value s
  | .raised _, s => E s
  | .stuck, _ => True

def Triple (transformer : Transformer Ret ε σ) (P : σ → Prop) (program : Prog Ret ε α)
    (Q : α → σ → Prop) (E : σ → Prop) : Prop :=
  ∀ s, P s → program.wp transformer (ending Q E) s

/-- Started where `P` holds, the program ends where `P` holds, however it ends. -/
abbrev Keeps (transformer : Transformer Ret ε σ) (P : σ → Prop) (program : Prog Ret ε α) : Prop :=
  Triple transformer P program (fun _ => P) P

namespace Triple

variable {P P' E E' : σ → Prop} {Q Q' : α → σ → Prop} {program : Prog Ret ε α}

theorem conseq (hmono : transformer.Monotone) (h : Triple transformer P program Q E)
    (hP : ∀ s, P' s → P s) (hQ : ∀ value s, Q value s → Q' value s) (hE : ∀ s, E s → E' s) :
    Triple transformer P' program Q' E' := by
  intro s hs
  apply wp_mono hmono _ (h s (hP s hs))
  intro outcome s' hend
  cases outcome with
  | returned value => exact hQ value s' hend
  | raised error => exact hE s' hend
  | stuck => trivial

theorem pure {value : α} (h : ∀ s, P s → Q value s) :
    Triple transformer P (.pure value) Q E := h

theorem raise {error : ε} (h : ∀ s, P s → E s) : Triple transformer P (.raise error) Q E := h

theorem perform {op : Op} {Q : Ret op → σ → Prop}
    (h : ∀ s, P s → transformer op (fun answer s' => ending Q E (answered answer) s') s) :
    Triple transformer P (.perform op) Q E := by
  intro s hs
  rw [wp_perform]
  exact h s hs

theorem bind (hmono : transformer.Monotone) {R : α → σ → Prop} {Q : β → σ → Prop}
    {next : α → Prog Ret ε β} (first : Triple transformer P program R E)
    (rest : ∀ value, Triple transformer (R value) (next value) Q E) :
    Triple transformer P (program.bind next) Q E := by
  intro s hs
  rw [wp_bind]
  apply wp_mono hmono _ (first s hs)
  intro outcome s' hend
  cases outcome with
  | returned value => exact rest value s' hend
  | raised error => exact hend
  | stuck => trivial

theorem ite {condition : Prop} [Decidable condition] {no : Prog Ret ε α}
    (hyes : condition → Triple transformer P program Q E)
    (hno : ¬ condition → Triple transformer P no Q E) :
    Triple transformer P (if condition then program else no) Q E := by
  split
  · exact hyes ‹_›
  · exact hno ‹_›

/-- An attempt does not raise, and its value tells which postcondition holds. -/
theorem attempt (hmono : transformer.Monotone) (h : Triple transformer P program Q E) :
    Triple transformer P program.attempt (fun result => match result with
      | .ok value => Q value
      | .error _ => E) E' := by
  intro s hs
  rw [wp_attempt]
  apply wp_mono hmono _ (h s hs)
  intro outcome s' hend
  cases outcome <;> exact hend

/-- What holds however a program ends holds after an attempt of it. -/
theorem attempted (hmono : transformer.Monotone) {R : σ → Prop}
    (h : Triple transformer P program (fun _ => R) R) :
    Triple transformer P program.attempt (fun _ => R) E := by
  intro s hs
  rw [wp_attempt]
  apply wp_mono hmono _ (h s hs)
  intro outcome s' hend
  cases outcome <;> exact hend

theorem except (hmono : transformer.Monotone) {R : σ → Prop} {handler : ε → Prog Ret ε α}
    (first : Triple transformer P program Q R) (rest : ∀ error,
      Triple transformer R (handler error) Q E) :
    Triple transformer P (program.except handler) Q E := by
  intro s hs
  rw [wp_except]
  apply wp_mono hmono _ (first s hs)
  intro outcome s' hend
  cases outcome with
  | returned value => exact hend
  | raised error => exact rest error s' hend
  | stuck => trivial

theorem of_calls {allowed : Op → Prop} (hmono : transformer.Monotone)
    (hkeep : ∀ op, allowed op → ∀ s, P s → transformer op (fun _ s' => P s') s)
    (hcalls : program.Calls allowed) : Keeps transformer P program := by
  intro s hs
  apply wp_of_calls hmono hkeep hcalls hs
  intro outcome s' h
  cases outcome with
  | returned value => exact h
  | raised error => exact h
  | stuck => trivial

/-- What every operation keeps, every program keeps. -/
theorem of_forall (hmono : transformer.Monotone)
    (hkeep : ∀ op s, P s → transformer op (fun _ s' => P s') s) (program : Prog Ret ε α) :
    Keeps transformer P program := by
  have hcalls : program.Calls fun _ => True := calls_of_forall (fun _ => trivial) program
  exact of_calls hmono (fun op _ => hkeep op) hcalls

end Triple

section Keeps

variable {P : σ → Prop} {program : Prog Ret ε α}

theorem keeps_pure (value : α) : Keeps transformer P (.pure value : Prog Ret ε α) :=
  Triple.pure fun _ h => h

theorem keeps_raise (error : ε) : Keeps transformer P (.raise error : Prog Ret ε α) :=
  Triple.raise fun _ h => h

/-- A loop without a bound keeps what one pass of it keeps. -/
theorem keeps_passes (hmono : transformer.Monotone) {body : Prog Ret ε α} {loop : ℕ → Prog Ret ε β}
    (hzero : loop 0 = .stuck) (hsucc : ∀ fuel, loop (fuel + 1) = body.bind fun _ => loop fuel)
    (hbody : Keeps transformer P body) (fuel : ℕ) : Keeps transformer P (loop fuel) := by
  induction fuel with
  | zero =>
      rw [hzero]
      exact fun _ _ => trivial
  | succ fuel ih =>
      rw [hsucc]
      exact Triple.bind hmono hbody fun _ => ih

/-- What holds throughout a first program is known when a second one starts. -/
theorem Triple.after_keeps (hmono : transformer.Monotone) {next : α → Prog Ret ε β}
    {Q : β → σ → Prop} {E : σ → Prop} (first : Keeps transformer P program)
    (rest : ∀ value, Triple transformer P (next value) Q E) (hE : ∀ s, P s → E s) :
    Triple transformer P (program.bind next) Q E :=
  Triple.bind hmono (first.conseq hmono (fun _ => id) (fun _ _ => id) hE) rest

/-- The cleanup starts from what the program reaches, however that ends. -/
theorem Triple.ensuring (hmono : transformer.Monotone) {R R' : σ → Prop}
    {cleanup : Prog Ret ε Unit} (first : Triple transformer P program (fun _ => R) R)
    (last : Triple transformer R cleanup (fun _ => R') R') :
    Triple transformer P (program.ensuring cleanup) (fun _ => R') R' := by
  refine (first.attempted hmono).bind hmono fun result => .bind hmono last fun _ => ?_
  cases result with
  | ok value => exact keeps_pure value
  | error error => exact keeps_raise error

/-- The cleanup keeps what the program reaches, for each of its values and for its
exceptions. -/
theorem Triple.ensuring_each (hmono : transformer.Monotone) {Q Q' : α → σ → Prop} {E E' : σ → Prop}
    {cleanup : Prog Ret ε Unit} (first : Triple transformer P program Q E)
    (returned : ∀ value, Triple transformer (Q value) cleanup (fun _ => Q' value) E')
    (raised : Triple transformer E cleanup (fun _ => E') E') :
    Triple transformer P (program.ensuring cleanup) Q' E' := by
  refine (first.attempt hmono).bind hmono fun result => ?_
  cases result with
  | ok value => exact (returned value).bind hmono fun _ => .pure fun _ => id
  | error error => exact raised.bind hmono fun _ => .raise fun _ => id

end Keeps

/-! ## Loops out of fuel -/

/-- A postcondition that a loop out of fuel has to satisfy like one that has raised. -/
def bounding (Q : α → σ → Prop) (E : σ → Prop) : Outcome ε α → σ → Prop
  | .returned value, s => Q value s
  | .raised _, s => E s
  | .stuck, s => E s

/-- As `Triple`, where `E` also holds of a program that goes on but is not followed any
further: what it says of the past holds at every moment. -/
def Within (transformer : Transformer Ret ε σ) (P : σ → Prop) (program : Prog Ret ε α)
    (Q : α → σ → Prop) (E : σ → Prop) : Prop :=
  ∀ s, P s → program.wp transformer (bounding Q E) s

namespace Within

variable {P P' E E' : σ → Prop} {Q Q' : α → σ → Prop} {program : Prog Ret ε α}

theorem conseq (hmono : transformer.Monotone) (h : Within transformer P program Q E)
    (hP : ∀ s, P' s → P s) (hQ : ∀ value s, Q value s → Q' value s) (hE : ∀ s, E s → E' s) :
    Within transformer P' program Q' E' := by
  intro s hs
  apply wp_mono hmono _ (h s (hP s hs))
  intro outcome s' hend
  cases outcome with
  | returned value => exact hQ value s' hend
  | raised error => exact hE s' hend
  | stuck => exact hE s' hend

theorem pure {value : α} (h : ∀ s, P s → Q value s) :
    Within transformer P (.pure value) Q E := h

theorem raise {error : ε} (h : ∀ s, P s → E s) : Within transformer P (.raise error) Q E := h

theorem perform {op : Op} {Q : Ret op → σ → Prop}
    (h : ∀ s, P s → transformer op (fun answer s' => bounding Q E (answered answer) s') s) :
    Within transformer P (.perform op) Q E := by
  intro s hs
  rw [wp_perform]
  exact h s hs

theorem bind (hmono : transformer.Monotone) {R : α → σ → Prop} {Q : β → σ → Prop}
    {next : α → Prog Ret ε β} (first : Within transformer P program R E)
    (rest : ∀ value, Within transformer (R value) (next value) Q E) :
    Within transformer P (program.bind next) Q E := by
  intro s hs
  rw [wp_bind]
  apply wp_mono hmono _ (first s hs)
  intro outcome s' hend
  cases outcome with
  | returned value => exact rest value s' hend
  | raised error => exact hend
  | stuck => exact hend

theorem ite {condition : Prop} [Decidable condition] {no : Prog Ret ε α}
    (hyes : condition → Within transformer P program Q E)
    (hno : ¬ condition → Within transformer P no Q E) :
    Within transformer P (if condition then program else no) Q E := by
  split
  · exact hyes ‹_›
  · exact hno ‹_›

/-- Operations that keep `P`, by a program that ends where `P` gives `E`. -/
theorem of_calls {allowed : Op → Prop} (hmono : transformer.Monotone)
    (hkeep : ∀ op, allowed op → ∀ s, P s → transformer op (fun _ s' => P s') s)
    (hcalls : program.Calls allowed) (hE : ∀ s, P s → E s) :
    Within transformer P program (fun _ => P) E := by
  intro s hs
  apply wp_of_calls hmono hkeep hcalls hs
  intro outcome s' h
  cases outcome with
  | returned value => exact h
  | raised error => exact hE s' h
  | stuck => exact hE s' h

end Within

/-! ## Programs that return -/

/-- A postcondition that only a program that returns can satisfy. -/
def returning (Q : α → σ → Prop) : Outcome ε α → σ → Prop
  | .returned value, s => Q value s
  | .raised _, _ => False
  | .stuck, _ => False

/-- Started where `P` holds, the program returns, and where it does `Q` holds of its value. -/
def Returns (transformer : Transformer Ret ε σ) (P : σ → Prop) (program : Prog Ret ε α)
    (Q : α → σ → Prop) : Prop :=
  ∀ s, P s → program.wp transformer (returning Q) s

namespace Returns

variable {P P' : σ → Prop} {Q Q' : α → σ → Prop} {program : Prog Ret ε α}

theorem conseq (hmono : transformer.Monotone) (h : Returns transformer P program Q)
    (hP : ∀ s, P' s → P s) (hQ : ∀ value s, Q value s → Q' value s) :
    Returns transformer P' program Q' := by
  intro s hs
  apply wp_mono hmono _ (h s (hP s hs))
  intro outcome s' hend
  cases outcome with
  | returned value => exact hQ value s' hend
  | raised error => exact hend
  | stuck => exact hend

theorem pure {value : α} (h : ∀ s, P s → Q value s) : Returns transformer P (.pure value) Q := h

/-- An operation that can always be performed and never raises. -/
theorem perform {check : σ → Op → Prop} {step : σ → Event Ret ε → σ → Prop} {op : Op}
    {Q : Ret op → σ → Prop} (hcheck : ∀ s, P s → check s op)
    (h : ∀ s answer s', P s → step s ⟨op, answer⟩ s' → ∃ value, answer = .ok value ∧ Q value s') :
    Returns (guarded check step) P (.perform op) Q := by
  intro s hs
  rw [wp_perform]
  refine ⟨hcheck s hs, fun answer s' hstep => ?_⟩
  obtain ⟨value, rfl, hvalue⟩ := h s answer s' hs hstep
  exact hvalue

theorem bind (hmono : transformer.Monotone) {R : α → σ → Prop} {Q : β → σ → Prop}
    {next : α → Prog Ret ε β} (first : Returns transformer P program R)
    (rest : ∀ value, Returns transformer (R value) (next value) Q) :
    Returns transformer P (program.bind next) Q := by
  intro s hs
  rw [wp_bind]
  apply wp_mono hmono _ (first s hs)
  intro outcome s' hend
  cases outcome with
  | returned value => exact rest value s' hend
  | raised error => exact hend
  | stuck => exact hend

/-- An attempt of a program that returns has its value. -/
theorem attempt (hmono : transformer.Monotone) (h : Returns transformer P program Q) :
    Returns transformer P program.attempt fun result s =>
      ∃ value, result = .ok value ∧ Q value s := by
  intro s hs
  rw [wp_attempt]
  apply wp_mono hmono _ (h s hs)
  intro outcome s' hend
  cases outcome with
  | returned value => exact ⟨value, rfl, hend⟩
  | raised error => exact hend.elim
  | stuck => exact hend

/-- What follows an attempt goes on with the value. -/
theorem attempt_bind (hmono : transformer.Monotone) {R : α → σ → Prop} {Q : β → σ → Prop}
    {next : Except ε α → Prog Ret ε β} (first : Returns transformer P program R)
    (rest : ∀ value, Returns transformer (R value) (next (.ok value)) Q) :
    Returns transformer P (program.attempt.bind next) Q := by
  refine (first.attempt hmono).bind hmono fun result s hs => ?_
  obtain ⟨value, rfl, hvalue⟩ := hs
  exact rest value s hvalue

/-- No handler is entered. -/
theorem except (hmono : transformer.Monotone) {handler : ε → Prog Ret ε α}
    (h : Returns transformer P program Q) : Returns transformer P (program.except handler) Q := by
  intro s hs
  rw [wp_except]
  apply wp_mono hmono _ (h s hs)
  intro outcome s' hend
  cases outcome with
  | returned value => exact hend
  | raised error => exact hend.elim
  | stuck => exact hend

theorem ensuring (hmono : transformer.Monotone) {Q' : α → σ → Prop} {cleanup : Prog Ret ε Unit}
    (first : Returns transformer P program Q)
    (last : ∀ value, Returns transformer (Q value) cleanup fun _ => Q' value) :
    Returns transformer P (program.ensuring cleanup) Q' :=
  first.attempt_bind hmono fun value => (last value).bind hmono fun _ => .pure fun _ => id

end Returns

end Prog

end Effect
