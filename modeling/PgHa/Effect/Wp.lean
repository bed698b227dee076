import PgHa.Effect.Trace

/-!
# Predicate transformers

`wp transformer program post s`: started in `s`, the program ends only in
outcomes and states that satisfy `post`.  What an operation does is given by
its own predicate transformer, so that the same rules serve

* an environment that is a step relation (`demonic`, with `trace_wp` as the
  bridge to traces and histories),
* the operations of an interface that are themselves programs over another one
  (`wp_lower`), and
* a thread among others (`Threads.lean`).

The rules for `bind`, `attempt` and `except` are equalities, so a triple of a
compound program is rewritten into the triples of its parts.
-/

namespace Effect

variable {Op Op' : Type} {Ret : Op → Type} {Ret' : Op' → Type} {ε α β σ : Type}

/-- For every operation, the states from which its answer and the state after
it satisfy a postcondition. -/
abbrev Transformer (Ret : Op → Type) (ε σ : Type) : Type :=
  (op : Op) → (Except ε (Ret op) → σ → Prop) → σ → Prop

/-- A weaker postcondition is reached from no fewer states. -/
def Transformer.Monotone (transformer : Transformer Ret ε σ) : Prop :=
  ∀ op (post post' : Except ε (Ret op) → σ → Prop) s,
    (∀ answer s', post answer s' → post' answer s') →
      transformer op post s → transformer op post' s

/-- Every step that the relation allows must satisfy the postcondition. -/
def demonic (step : σ → Event Ret ε → σ → Prop) : Transformer Ret ε σ :=
  fun op post s => ∀ answer s', step s ⟨op, answer⟩ s' → post answer s'

theorem demonic_monotone (step : σ → Event Ret ε → σ → Prop) :
    (demonic step).Monotone :=
  fun _ _ _ _ himp h answer s' hstep => himp answer s' (h answer s' hstep)

/-- One operation of an environment that keeps a log. -/
theorem demonic_logged_iff {step : σ → Event Ret ε → σ → Prop} {op : Op}
    {post : Except ε (Ret op) → σ × List (Event Ret ε) → Prop} {s : σ}
    {past : List (Event Ret ε)} :
    demonic (logged step) op post (s, past) ↔
      ∀ answer s', step s ⟨op, answer⟩ s' → post answer (s', past ++ [⟨op, answer⟩]) := by
  constructor
  · intro h answer s' hstep
    exact h answer _ ⟨hstep, rfl⟩
  · rintro h answer ⟨s', log⟩ ⟨hstep, hlog⟩
    obtain rfl : log = past ++ [⟨op, answer⟩] := hlog
    exact h answer s' hstep

namespace Prog

/-- Started in `s`, the program ends only as `post` says. -/
def wp (transformer : Transformer Ret ε σ) :
    Prog Ret ε α → (Outcome ε α → σ → Prop) → σ → Prop
  | .pure value, post, s => post (.returned value) s
  | .raise error, post, s => post (.raised error) s
  | .stuck, post, s => post .stuck s
  | .call op next, post, s =>
      transformer op (fun answer s' => (next answer).wp transformer post s') s

variable {transformer : Transformer Ret ε σ} {post post' : Outcome ε α → σ → Prop} {s : σ}

@[simp] theorem wp_pure (value : α) :
    (Prog.pure value : Prog Ret ε α).wp transformer post s ↔ post (.returned value) s := Iff.rfl

@[simp] theorem wp_raise (error : ε) :
    (Prog.raise error : Prog Ret ε α).wp transformer post s ↔ post (.raised error) s := Iff.rfl

@[simp] theorem wp_stuck :
    (Prog.stuck : Prog Ret ε α).wp transformer post s ↔ post .stuck s := Iff.rfl

@[simp] theorem wp_call (op : Op) (next : Except ε (Ret op) → Prog Ret ε α) :
    (Prog.call op next).wp transformer post s ↔
      transformer op (fun answer s' => (next answer).wp transformer post s') s := Iff.rfl

/-- The postcondition of a first program that a second one follows. -/
def andThen (transformer : Transformer Ret ε σ) (next : α → Prog Ret ε β)
    (post : Outcome ε β → σ → Prop) : Outcome ε α → σ → Prop
  | .returned value, s => (next value).wp transformer post s
  | .raised error, s => post (.raised error) s
  | .stuck, s => post .stuck s

@[simp] theorem andThen_returned (next : α → Prog Ret ε β) (post : Outcome ε β → σ → Prop)
    (value : α) : andThen transformer next post (.returned value) s ↔
      (next value).wp transformer post s := Iff.rfl

@[simp] theorem andThen_raised (next : α → Prog Ret ε β) (post : Outcome ε β → σ → Prop)
    (error : ε) : andThen transformer next post (.raised error) s ↔ post (.raised error) s :=
  Iff.rfl

@[simp] theorem andThen_stuck (next : α → Prog Ret ε β) (post : Outcome ε β → σ → Prop) :
    andThen transformer next post (.stuck : Outcome ε α) s ↔ post .stuck s := Iff.rfl

@[simp] theorem wp_bind (program : Prog Ret ε α) (next : α → Prog Ret ε β)
    (post : Outcome ε β → σ → Prop) :
    (program.bind next).wp transformer post s ↔
      program.wp transformer (andThen transformer next post) s := by
  induction program generalizing s with
  | call op rest ih =>
      have : (fun answer s' => ((rest answer).bind next).wp transformer post s') =
          fun answer s' => (rest answer).wp transformer (andThen transformer next post) s' :=
        funext fun answer => funext fun s' => propext (ih answer)
      simp only [call_bind, wp_call, this]
  | _ => exact Iff.rfl

/-- The postcondition of a program whose outcome is returned as a value. -/
def captured (post : Outcome ε (Except ε α) → σ → Prop) : Outcome ε α → σ → Prop
  | .returned value, s => post (.returned (.ok value)) s
  | .raised error, s => post (.returned (.error error)) s
  | .stuck, s => post .stuck s

@[simp] theorem captured_returned (post : Outcome ε (Except ε α) → σ → Prop) (value : α) :
    captured post (.returned value) s ↔ post (.returned (.ok value)) s := Iff.rfl

@[simp] theorem captured_raised (post : Outcome ε (Except ε α) → σ → Prop) (error : ε) :
    captured post (.raised error) s ↔ post (.returned (.error error)) s := Iff.rfl

@[simp] theorem captured_stuck (post : Outcome ε (Except ε α) → σ → Prop) :
    captured post (.stuck : Outcome ε α) s ↔ post .stuck s := Iff.rfl

@[simp] theorem wp_attempt (program : Prog Ret ε α)
    (post : Outcome ε (Except ε α) → σ → Prop) :
    program.attempt.wp transformer post s ↔ program.wp transformer (captured post) s := by
  induction program generalizing s with
  | call op rest ih =>
      have : (fun answer s' => (rest answer).attempt.wp transformer post s') =
          fun answer s' => (rest answer).wp transformer (captured post) s' :=
        funext fun answer => funext fun s' => propext (ih answer)
      simp only [attempt, wp_call, this]
  | _ => exact Iff.rfl

/-- The postcondition of a program under a handler. -/
def handled (transformer : Transformer Ret ε σ) (handler : ε → Prog Ret ε α)
    (post : Outcome ε α → σ → Prop) : Outcome ε α → σ → Prop
  | .raised error, s => (handler error).wp transformer post s
  | outcome, s => post outcome s

@[simp] theorem handled_returned (handler : ε → Prog Ret ε α) (value : α) :
    handled transformer handler post (.returned value) s ↔ post (.returned value) s := Iff.rfl

@[simp] theorem handled_raised (handler : ε → Prog Ret ε α) (error : ε) :
    handled transformer handler post (.raised error) s ↔
      (handler error).wp transformer post s := Iff.rfl

@[simp] theorem handled_stuck (handler : ε → Prog Ret ε α) :
    handled transformer handler post .stuck s ↔ post .stuck s := Iff.rfl

@[simp] theorem wp_except (program : Prog Ret ε α) (handler : ε → Prog Ret ε α) :
    (program.except handler).wp transformer post s ↔
      program.wp transformer (handled transformer handler post) s := by
  induction program generalizing s with
  | call op rest ih =>
      have : (fun answer s' => ((rest answer).except handler).wp transformer post s') =
          fun answer s' => (rest answer).wp transformer (handled transformer handler post) s' :=
        funext fun answer => funext fun s' => propext (ih answer)
      simp only [Prog.except, wp_call, this]
  | _ => exact Iff.rfl

/-- The outcome of an answer taken as a whole program. -/
def answered : Except ε α → Outcome ε α
  | .ok value => .returned value
  | .error error => .raised error

@[simp] theorem answered_ok (value : α) : answered (.ok value : Except ε α) = .returned value :=
  rfl

@[simp] theorem answered_error (error : ε) :
    answered (.error error : Except ε α) = .raised error := rfl

@[simp] theorem wp_ofExcept (result : Except ε α) :
    (ofExcept result : Prog Ret ε α).wp transformer post s ↔ post (answered result) s := by
  cases result <;> exact Iff.rfl

@[simp] theorem wp_perform (op : Op) (post : Outcome ε (Ret op) → σ → Prop) :
    (perform op : Prog Ret ε (Ret op)).wp transformer post s ↔
      transformer op (fun answer s' => post (answered answer) s') s := by
  have : (fun answer s' => (ofExcept answer : Prog Ret ε (Ret op)).wp transformer post s') =
      fun answer s' => post (answered answer) s' :=
    funext fun answer => funext fun s' => propext (wp_ofExcept answer)
  simp only [perform, wp_call, this]

@[simp] theorem wp_ensuring (program : Prog Ret ε α) (cleanup : Prog Ret ε Unit) :
    (program.ensuring cleanup).wp transformer post s ↔
      program.wp transformer (captured (andThen transformer
        (fun result => cleanup.bind fun _ => ofExcept result) post)) s := by
  simp only [ensuring, bind_eq, wp_bind, wp_attempt]

@[simp] theorem wp_ite {condition : Prop} [Decidable condition] (yes no : Prog Ret ε α) :
    (if condition then yes else no).wp transformer post s ↔
      if condition then yes.wp transformer post s else no.wp transformer post s := by
  split <;> exact Iff.rfl

/-! ## Weakening and framing -/

theorem wp_mono (hmono : transformer.Monotone) {program : Prog Ret ε α}
    (himp : ∀ outcome s', post outcome s' → post' outcome s')
    (h : program.wp transformer post s) : program.wp transformer post' s := by
  induction program generalizing s with
  | call op rest ih => exact hmono op _ _ s (fun answer s' => ih answer) h
  | _ => exact himp _ _ h

/-- A program whose operations all keep `inv` ends in states that satisfy it. -/
theorem wp_of_calls {allowed : Op → Prop} {inv : σ → Prop} (hmono : transformer.Monotone)
    (hkeep : ∀ op, allowed op → ∀ s, inv s → transformer op (fun _ s' => inv s') s)
    {program : Prog Ret ε α} (hcalls : program.Calls allowed) (hs : inv s)
    (hpost : ∀ outcome s', inv s' → post outcome s') : program.wp transformer post s := by
  induction program generalizing s with
  | call op rest ih =>
      exact hmono op _ _ s (fun answer s' h => ih answer (hcalls.2 answer) h)
        (hkeep op hcalls.1 s hs)
  | _ => exact hpost _ _ hs

theorem wp_of_calls_of_yields {allowed : Op → Prop} {inv : σ → Prop} {P : α → Prop}
    (hmono : transformer.Monotone)
    (hkeep : ∀ op, allowed op → ∀ s, inv s → transformer op (fun _ s' => inv s') s)
    {program : Prog Ret ε α} (hcalls : program.Calls allowed) (hyields : program.Yields P)
    (hs : inv s)
    (hpost : ∀ outcome s', inv s' → (∀ value, outcome = .returned value → P value) →
      post outcome s') : program.wp transformer post s := by
  induction program generalizing s with
  | pure value =>
      refine hpost _ _ hs fun value' h => ?_
      cases h
      exact hyields
  | call op rest ih =>
      exact hmono op _ _ s (fun answer s' h => ih answer (hcalls.2 answer) (hyields answer) h)
        (hkeep op hcalls.1 s hs)
  | _ => exact hpost _ _ hs (by simp)

/-- A postcondition for a loop that only an exception or its fuel ends. -/
def passing (inv : σ → Prop) (E : ε → σ → Prop) : Outcome ε α → σ → Prop
  | .raised error, s => E error s
  | _, s => inv s

/-- A loop without a bound keeps what one pass of it keeps. -/
theorem wp_passes (hmono : transformer.Monotone) {body : Prog Ret ε α} {loop : ℕ → Prog Ret ε β}
    (hzero : loop 0 = .stuck) (hsucc : ∀ fuel, loop (fuel + 1) = body.bind fun _ => loop fuel)
    {inv : σ → Prop} {E : ε → σ → Prop}
    (hbody : ∀ s, inv s → body.wp transformer (passing inv E) s) (fuel : ℕ) (hs : inv s) :
    (loop fuel).wp transformer (passing inv E) s := by
  induction fuel generalizing s with
  | zero =>
      rw [hzero]
      exact hs
  | succ fuel ih =>
      rw [hsucc, wp_bind]
      apply wp_mono hmono _ (hbody s hs)
      intro outcome s' hend
      cases outcome with
      | returned value => exact ih hend
      | raised error => exact hend
      | stuck => exact hend

/-! ## Lowering -/

/-- What a program's outcome means to a caller for whom it is one operation. -/
def asAnswer (post : Except ε α → σ → Prop) : Outcome ε α → σ → Prop
  | .returned value, s => post (.ok value) s
  | .raised error, s => post (.error error) s
  | .stuck, _ => True

@[simp] theorem asAnswer_returned (post : Except ε α → σ → Prop) (value : α) :
    asAnswer post (.returned value) s ↔ post (.ok value) s := Iff.rfl

@[simp] theorem asAnswer_raised (post : Except ε α → σ → Prop) (error : ε) :
    asAnswer post (.raised error) s ↔ post (.error error) s := Iff.rfl

@[simp] theorem asAnswer_stuck (post : Except ε α → σ → Prop) :
    asAnswer post .stuck s ↔ True := Iff.rfl

/-- The transformer of an interface implemented by programs over another one. -/
def implemented (transformer : Transformer Ret' ε σ)
    (impl : (op : Op) → Prog Ret' ε (Ret op)) : Transformer Ret ε σ :=
  fun op post s => (impl op).wp transformer (asAnswer post) s

theorem implemented_monotone {transformer : Transformer Ret' ε σ} (hmono : transformer.Monotone)
    (impl : (op : Op) → Prog Ret' ε (Ret op)) : (implemented transformer impl).Monotone := by
  intro op post post' s himp
  apply wp_mono hmono
  intro outcome s' h
  cases outcome with
  | returned value => exact himp _ _ h
  | raised error => exact himp _ _ h
  | stuck => trivial

/-- To follow a lowered program is to follow the program itself, with every
operation doing what its implementation does. -/
theorem wp_lower {transformer : Transformer Ret' ε σ} (hmono : transformer.Monotone)
    (impl : (op : Op) → Prog Ret' ε (Ret op)) (hstuck : ∀ s, post .stuck s)
    {program : Prog Ret ε α} (h : program.wp (implemented transformer impl) post s) :
    (program.lower impl).wp transformer post s := by
  induction program generalizing s with
  | call op rest ih =>
      rw [lower, wp_bind, wp_attempt]
      refine wp_mono hmono (fun outcome s' hout => ?_) h
      cases outcome with
      | returned value => exact ih _ hout
      | raised error => exact ih _ hout
      | stuck => exact hstuck s'
  | _ => exact h

/-! ## Traces -/

/-- For an environment that is a step relation, `wp` speaks about the ends of
all traces that the environment can go through. -/
theorem wp_demonic_iff {step : σ → Event Ret ε → σ → Prop} {program : Prog Ret ε α} :
    program.wp (demonic step) post s ↔
      ∀ trace outcome s', program.Trace trace outcome → History step s trace s' →
        post outcome s' := by
  constructor
  · intro h trace outcome s' htrace hhistory
    induction htrace generalizing s with
    | pure value => cases hhistory; exact h
    | raise error => cases hhistory; exact h
    | stuck => cases hhistory; exact h
    | call _ ih =>
        cases hhistory with
        | cons hstep hrest => exact ih (h _ _ hstep) hrest
  · intro h
    induction program generalizing s with
    | pure value => exact h _ _ _ (.pure value) (.nil s)
    | raise error => exact h _ _ _ (.raise error) (.nil s)
    | stuck => exact h _ _ _ .stuck (.nil s)
    | call op next ih =>
        intro answer s₁ hstep
        refine ih answer fun trace outcome s' htrace hhistory => ?_
        exact h _ _ _ (.call htrace) (.cons hstep hhistory)

/-- What `wp` promises holds at the end of every trace. -/
theorem trace_wp {step : σ → Event Ret ε → σ → Prop} {program : Prog Ret ε α}
    {trace : List (Event Ret ε)} {outcome : Outcome ε α} {s' : σ}
    (h : program.wp (demonic step) post s) (htrace : program.Trace trace outcome)
    (hhistory : History step s trace s') : post outcome s' :=
  wp_demonic_iff.mp h trace outcome s' htrace hhistory

end Prog

/-! ## Specifications of traces -/

/-- What every trace of a program does, from every state. -/
def Spec (step : σ → Event Ret ε → σ → Prop) (program : Prog Ret ε α)
    (rel : σ → Outcome ε α → List (Event Ret ε) → σ → Prop) : Prop :=
  ∀ s trace outcome s', program.Trace trace outcome → History step s trace s' →
    rel s outcome trace s'

namespace Spec

variable {step : σ → Event Ret ε → σ → Prop} {program : Prog Ret ε α}
  {rel : σ → Outcome ε α → List (Event Ret ε) → σ → Prop}

/-- A history with its past has the same steps as the history. -/
theorem history_of_logged {s s' : σ} {past log trace : List (Event Ret ε)}
    (h : History (logged step) (s, past) trace (s', log)) :
    History step s trace s' ∧ log = past ++ trace := by
  induction trace generalizing s past with
  | nil => cases h; exact ⟨.nil _, (List.append_nil _).symm⟩
  | cons event rest ih =>
      cases h with
      | @cons _ mid _ _ _ hstep hrest =>
          obtain ⟨s₁, past₁⟩ := mid
          obtain ⟨hfirst, rfl⟩ : step s event s₁ ∧ past₁ = past ++ [event] := hstep
          obtain ⟨hplain, rfl⟩ := ih hrest
          exact ⟨.cons hfirst hplain, by simp⟩

/-- To specify the traces of a program, follow it and log its events. -/
theorem of_wp (h : ∀ s, program.wp (demonic (logged step))
    (fun outcome s' => rel s outcome s'.2 s'.1) (s, [])) : Spec step program rel :=
  fun s trace outcome s' htrace hhistory =>
    Prog.trace_wp (h s) htrace (by simpa using hhistory.logged [])

theorem trivial (program : Prog Ret ε α) : Spec step program fun _ _ _ _ => True :=
  fun _ _ _ _ _ _ => True.intro

/-- A specification may also use which operations the program performs. -/
theorem with_calls (h : Spec step program rel) {allowed : Op → Prop}
    (hcalls : program.Calls allowed) :
    Spec step program fun s outcome trace s' =>
      rel s outcome trace s' ∧ ∀ event ∈ trace, allowed event.op :=
  fun s trace outcome s' htrace hhistory =>
    ⟨h s trace outcome s' htrace hhistory, hcalls.trace htrace⟩

/-- A program is followed by using its specification. -/
theorem wp (h : Spec step program rel) {post : Outcome ε α → σ × List (Event Ret ε) → Prop}
    {s : σ} {past : List (Event Ret ε)}
    (hpost : ∀ outcome trace s', rel s outcome trace s' → post outcome (s', past ++ trace)) :
    program.wp (demonic (logged step)) post (s, past) := by
  refine Prog.wp_demonic_iff.mpr fun trace outcome ⟨s', log⟩ htrace hhistory => ?_
  obtain ⟨hplain, rfl⟩ := history_of_logged hhistory
  exact hpost outcome trace s' (h s trace outcome s' htrace hplain)

/-- The specification of a program for an environment also holds in one that
does no more, as far as a function of the state tells. -/
theorem map {τ : Type} {step' : τ → Event Ret ε → τ → Prop} (f : τ → σ) {allowed : Op → Prop}
    (h : Spec step program rel) (hcalls : program.Calls allowed)
    (hstep : ∀ event, allowed event.op → ∀ s s', step' s event s' → step (f s) event (f s')) :
    Spec step' program fun s outcome trace s' => rel (f s) outcome trace (f s') := by
  intro s trace outcome s' htrace hhistory
  apply h (f s) trace outcome (f s') htrace
  apply hhistory.map f
  intro event hmem
  exact hstep event (hcalls.trace htrace event hmem)

end Spec

/-! ## What holds where an operation is performed -/

/-- As `demonic`, but `check` has to hold where an operation is performed. -/
def guarded (check : σ → Op → Prop) (step : σ → Event Ret ε → σ → Prop) :
    Transformer Ret ε σ :=
  fun op post s => check s op ∧ demonic step op post s

theorem guarded_monotone (check : σ → Op → Prop) (step : σ → Event Ret ε → σ → Prop) :
    (guarded check step).Monotone :=
  fun op post post' s himp h => ⟨h.1, demonic_monotone step op post post' s himp h.2⟩

/-- Operations of which the check says nothing may be performed unchecked. -/
theorem Prog.wp_guarded {check : σ → Op → Prop} {step : σ → Event Ret ε → σ → Prop}
    {allowed : Op → Prop} (hcheck : ∀ s op, allowed op → check s op) {program : Prog Ret ε α}
    (hcalls : program.Calls allowed) {post : Outcome ε α → σ → Prop} {s : σ}
    (h : program.wp (demonic step) post s) : program.wp (guarded check step) post s := by
  induction program generalizing s with
  | call op next ih =>
      refine ⟨hcheck s op hcalls.1, ?_⟩
      intro answer s' hstep
      exact ih answer (hcalls.2 answer) (h answer s' hstep)
  | _ => exact h

/-- A check only adds to what a program has to do. -/
theorem Prog.wp_of_guarded {check : σ → Op → Prop} {step : σ → Event Ret ε → σ → Prop}
    {program : Prog Ret ε α} {post : Outcome ε α → σ → Prop} {s : σ}
    (h : program.wp (guarded check step) post s) : program.wp (demonic step) post s := by
  induction program generalizing s with
  | call op next ih =>
      intro answer s' hstep
      exact ih answer (h.2 answer s' hstep)
  | _ => exact h

/-- Where every operation that passes its check has an answer, a program that passes its checks has
a run; by induction on the program. -/
theorem Prog.exists_trace {check : σ → Op → Prop} {step : σ → Event Ret ε → σ → Prop}
    (hanswer : ∀ s op, check s op → ∃ answer s', step s ⟨op, answer⟩ s') {program : Prog Ret ε α}
    {post : Outcome ε α → σ → Prop} {s : σ} (h : program.wp (guarded check step) post s) :
    ∃ trace outcome s', program.Trace trace outcome ∧ History step s trace s' := by
  induction program generalizing s with
  | pure value => exact ⟨[], _, s, .pure value, .nil s⟩
  | raise error => exact ⟨[], _, s, .raise error, .nil s⟩
  | stuck => exact ⟨[], _, s, .stuck, .nil s⟩
  | call op next ih =>
      obtain ⟨answer, s₁, hstep⟩ := hanswer s op h.1
      obtain ⟨trace, outcome, s', htrace, hhistory⟩ := ih answer (h.2 answer s₁ hstep)
      exact ⟨_, outcome, s', .call htrace, .cons hstep hhistory⟩

/-- `rel` holds whenever the program performs an operation: of the first state,
the trace so far, the state at that moment and the operation. -/
def AtCalls (step : σ → Event Ret ε → σ → Prop) (program : Prog Ret ε α)
    (rel : σ → List (Event Ret ε) → σ → Op → Prop) : Prop :=
  ∀ s trace outcome, program.Trace trace outcome → ∀ before event after,
    trace = before ++ event :: after → ∀ mid, History step s before mid →
      rel s before mid event.op

/-- A check that is passed holds whenever the program performs an operation. -/
theorem Prog.check_of_wp_guarded {check : σ → Op → Prop} {step : σ → Event Ret ε → σ → Prop}
    {program : Prog Ret ε α} {post : Outcome ε α → σ → Prop} {s : σ}
    (h : program.wp (guarded check step) post s) {trace : List (Event Ret ε)}
    {outcome : Outcome ε α} (htrace : program.Trace trace outcome)
    {before after : List (Event Ret ε)} {event : Event Ret ε}
    (hsplit : trace = before ++ event :: after) {mid : σ}
    (hhistory : History step s before mid) : check mid event.op := by
  induction htrace generalizing s before with
  | @call op next answer rest outcome htrace ih =>
      cases before with
      | nil =>
          obtain ⟨rfl, -⟩ := List.cons.inj hsplit
          cases hhistory
          exact h.1
      | cons first before =>
          obtain ⟨rfl, hrest⟩ := List.cons.inj hsplit
          cases hhistory with
          | cons hstep hhistory => exact ih (h.2 answer _ hstep) hrest hhistory
  | _ => simp at hsplit

/-- What is checked at every operation and holds at the end holds at every moment. -/
theorem Prog.throughout_of_wp_guarded {inv : σ → Prop} {step : σ → Event Ret ε → σ → Prop}
    {program : Prog Ret ε α} {s : σ}
    (h : program.wp (guarded (fun mid _ => inv mid) step) (fun _ s' => inv s') s)
    {trace : List (Event Ret ε)} {outcome : Outcome ε α} (htrace : program.Trace trace outcome)
    {before after : List (Event Ret ε)} (hsplit : trace = before ++ after) {mid : σ}
    (hhistory : History step s before mid) : inv mid := by
  cases after with
  | nil =>
      rw [List.append_nil] at hsplit
      exact Prog.trace_wp (Prog.wp_of_guarded h) htrace (hsplit ▸ hhistory)
  | cons event after => exact Prog.check_of_wp_guarded h htrace hsplit hhistory

/-- As `check_of_wp_guarded`, for a check that looks at the operation alone. -/
theorem Prog.checked_of_wp_guarded {check : Op → Prop} {step : σ → Event Ret ε → σ → Prop}
    {program : Prog Ret ε α} {post : Outcome ε α → σ → Prop} {s s' : σ}
    (h : program.wp (guarded (fun _ => check) step) post s) {trace : List (Event Ret ε)}
    {outcome : Outcome ε α} (htrace : program.Trace trace outcome)
    (hhistory : History step s trace s') : ∀ event ∈ trace, check event.op := by
  intro event hmem
  obtain ⟨before, after, rfl⟩ := List.append_of_mem hmem
  obtain ⟨mid, hbefore, -⟩ := hhistory.split
  exact Prog.check_of_wp_guarded h htrace rfl hbefore

/-- To say what holds whenever a program performs an operation, follow it, log
its events and check them. -/
theorem AtCalls.of_wp {step : σ → Event Ret ε → σ → Prop} {program : Prog Ret ε α}
    {rel : σ → List (Event Ret ε) → σ → Op → Prop}
    (h : ∀ s, program.wp (guarded (fun mid op => rel s mid.2 mid.1 op) (logged step))
      (fun _ _ => True) (s, [])) : AtCalls step program rel := by
  intro s trace outcome htrace before event after hsplit mid hhistory
  have hlogged : History (logged step) (s, []) before (mid, before) := hhistory.logged []
  exact Prog.check_of_wp_guarded (h s) htrace hsplit hlogged

end Effect
