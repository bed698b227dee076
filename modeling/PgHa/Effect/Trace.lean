import PgHa.Effect.Prog

/-!
# Traces

The meaning of a program on its own: the sequences of operations and answers
it can go through (`Prog.Trace`), for every answer the environment may give.
What the environment does is a relation on a state (`step`), and `History`
says that a state can go through the operations of a trace one by one.

`Prog.run` is the executable counterpart: it resolves every operation with a
function, and `trace_run` and `history_run` place its result among the traces
and histories.
-/

namespace Effect

variable {Op : Type} {Ret : Op → Type} {ε α β σ : Type}

/-- An operation together with its answer. -/
structure Event (Ret : Op → Type) (ε : Type) : Type where
  op : Op
  answer : Except ε (Ret op)

/-- `program` can go through the events `trace` and then ends with `outcome`. -/
inductive Prog.Trace : Prog Ret ε α → List (Event Ret ε) → Outcome ε α → Prop
  | pure (value : α) : Trace (.pure value) [] (.returned value)
  | raise (error : ε) : Trace (.raise error) [] (.raised error)
  | stuck : Trace .stuck [] .stuck
  | call {op : Op} {next : Except ε (Ret op) → Prog Ret ε α} {answer : Except ε (Ret op)}
      {trace : List (Event Ret ε)} {outcome : Outcome ε α} :
      Trace (next answer) trace outcome → Trace (.call op next) (⟨op, answer⟩ :: trace) outcome

/-- A trace contains only operations of its program. -/
theorem Prog.Calls.trace {allowed : Op → Prop} {program : Prog Ret ε α}
    {trace : List (Event Ret ε)} {outcome : Outcome ε α} (h : program.Calls allowed)
    (htrace : program.Trace trace outcome) : ∀ event ∈ trace, allowed event.op := by
  induction htrace with
  | call _ ih =>
      rintro event (_ | ⟨_, hmem⟩)
      · exact h.1
      · exact ih (h.2 _) event hmem
  | _ => simp

theorem Prog.Bounded.not_stuck {program : Prog Ret ε α} {trace : List (Event Ret ε)}
    {outcome : Outcome ε α} (h : program.Bounded) (htrace : program.Trace trace outcome) :
    outcome ≠ .stuck := by
  induction htrace with
  | stuck => exact h.elim
  | call _ ih => exact ih (h _)
  | _ => simp

theorem Prog.Raises.of_trace {P : ε → Prop} {program : Prog Ret ε α}
    {trace : List (Event Ret ε)} {error : ε} (h : program.Raises P)
    (htrace : program.Trace trace (.raised error)) : P error := by
  induction trace generalizing program with
  | nil =>
      cases htrace
      exact h
  | cons event rest ih =>
      cases htrace with
      | call hrest => exact ih (h _) hrest

/-- The environment can go from the first state to the last one through the
events of the list. -/
inductive History (step : σ → Event Ret ε → σ → Prop) : σ → List (Event Ret ε) → σ → Prop
  | nil (s : σ) : History step s [] s
  | cons {s s' s'' : σ} {event : Event Ret ε} {rest : List (Event Ret ε)} :
      step s event s' → History step s' rest s'' → History step s (event :: rest) s''

namespace History

variable {step step' : σ → Event Ret ε → σ → Prop} {s s' s'' : σ}
  {first second : List (Event Ret ε)}

theorem split (h : History step s (first ++ second) s'') :
    ∃ s', History step s first s' ∧ History step s' second s'' := by
  induction first generalizing s with
  | nil => exact ⟨s, .nil s, h⟩
  | cons event rest ih =>
      cases h with
      | cons hstep hrest =>
          obtain ⟨s', h₁, h₂⟩ := ih hrest
          exact ⟨s', .cons hstep h₁, h₂⟩

theorem append (h : History step s first s') (h' : History step s' second s'') :
    History step s (first ++ second) s'' := by
  induction h with
  | nil => exact h'
  | cons hstep _ ih => exact .cons hstep (ih h')

/-- What every step keeps, a whole history keeps. -/
theorem invariant {P : σ → Prop} (hstep : ∀ s event s', step s event s' → P s → P s')
    {trace : List (Event Ret ε)} (h : History step s trace s') (hs : P s) : P s' := by
  induction h with
  | nil s => exact hs
  | cons hfirst _ ih => exact ih (hstep _ _ _ hfirst hs)

/-- A function of the state along which every step of the history is a step of
another environment. -/
theorem map {τ : Type} {step' : τ → Event Ret ε → τ → Prop} (f : σ → τ)
    {trace : List (Event Ret ε)} (h : History step s trace s')
    (hstep : ∀ event ∈ trace, ∀ s s', step s event s' → step' (f s) event (f s')) :
    History step' (f s) trace (f s') := by
  induction h with
  | nil s => exact .nil (f s)
  | @cons s s' s'' event rest hfirst _ ih =>
      have hhead : step' (f s) event (f s') := hstep event List.mem_cons_self s s' hfirst
      refine .cons hhead (ih ?_)
      intro event hmem
      exact hstep event (List.mem_cons_of_mem _ hmem)

end History

/-- A step relation that also records the events it has gone through. -/
def logged (step : σ → Event Ret ε → σ → Prop) (s : σ × List (Event Ret ε))
    (event : Event Ret ε) (s' : σ × List (Event Ret ε)) : Prop :=
  step s.1 event s'.1 ∧ s'.2 = s.2 ++ [event]

theorem History.logged {step : σ → Event Ret ε → σ → Prop} {s s' : σ}
    {trace : List (Event Ret ε)} (h : History step s trace s') (past : List (Event Ret ε)) :
    History (logged step) (s, past) trace (s', past ++ trace) := by
  induction h generalizing past with
  | nil s =>
      rw [List.append_nil]
      exact .nil _
  | @cons s s' s'' event rest hstep _ ih =>
      have hfirst : Effect.logged step (s, past) event (s', past ++ [event]) := ⟨hstep, rfl⟩
      rw [List.append_cons]
      exact .cons hfirst (ih (past ++ [event]))

/-- What the events say is added at the end, one event at a time. -/
theorem logged_filterMap {τ : Type} {step : σ → Event Ret ε → σ → Prop}
    {s s' : σ × List (Event Ret ε)} {event : Event Ret ε} (read : Event Ret ε → Option τ)
    (h : logged step s event s') :
    s'.2.filterMap read = s.2.filterMap read ++ (read event).toList := by
  rw [h.2, List.filterMap_append, List.filterMap_cons]
  cases read event <;> rfl

/-! ## What holds at each event of a list -/

/-- `P` holds of every element together with the elements before it. -/
def AtEach {τ : Type} (P : List τ → τ → Prop) (log : List τ) : Prop :=
  ∀ before event after, log = before ++ event :: after → P before event

section AtEach

variable {τ : Type} {P Q : List τ → τ → Prop} {first second log : List τ}

theorem AtEach.mono (h : AtEach P log) (himp : ∀ before, ∀ event ∈ log,
    P before event → Q before event) : AtEach Q log := by
  rintro before event after rfl
  exact himp before event (by simp) (h before event after rfl)

theorem AtEach.append (hfirst : AtEach P first)
    (hsecond : AtEach (fun before event => P (first ++ before) event) second) :
    AtEach P (first ++ second) := by
  intro before event after hsplit
  rcases List.append_eq_append_iff.mp hsplit with ⟨rest, rfl, hrest⟩ | ⟨rest, hrest, hafter⟩
  · exact hsecond rest event after hrest
  · cases rest with
    | nil =>
        have : first = before := by simpa using hrest
        subst this
        simpa using hsecond [] event after (by simpa using hafter.symm)
    | cons head tail =>
        obtain ⟨rfl, -⟩ : event = head ∧ after = tail ++ second := by simpa using hafter
        exact hfirst before event tail hrest

end AtEach

/-! ## Running a program -/

/-- What a run of a program leaves behind. -/
structure Run (Ret : Op → Type) (ε α σ : Type) : Type where
  log : List (Event Ret ε)
  outcome : Outcome ε α
  final : σ

/-- Run a program, resolving every operation with `handle`. -/
def Prog.run (handle : (op : Op) → σ → Except ε (Ret op) × σ) :
    Prog Ret ε α → σ → Run Ret ε α σ
  | .pure value, s => ⟨[], .returned value, s⟩
  | .raise error, s => ⟨[], .raised error, s⟩
  | .stuck, s => ⟨[], .stuck, s⟩
  | .call op next, s =>
      let rest := (next (handle op s).1).run handle (handle op s).2
      { rest with log := ⟨op, (handle op s).1⟩ :: rest.log }

theorem trace_run (handle : (op : Op) → σ → Except ε (Ret op) × σ) (program : Prog Ret ε α)
    (s : σ) : program.Trace (program.run handle s).log (program.run handle s).outcome := by
  induction program generalizing s with
  | pure value => exact .pure value
  | raise error => exact .raise error
  | stuck => exact .stuck
  | call op next ih => exact .call (ih _ _)

theorem history_run {step : σ → Event Ret ε → σ → Prop}
    {handle : (op : Op) → σ → Except ε (Ret op) × σ}
    (hstep : ∀ s op, step s ⟨op, (handle op s).1⟩ (handle op s).2)
    (program : Prog Ret ε α) (s : σ) :
    History step s (program.run handle s).log (program.run handle s).final := by
  induction program generalizing s with
  | call op next ih => exact .cons (hstep s op) (ih _ _)
  | _ => exact .nil s

/-- As `history_run`, where only the operations that the run performs have to be
steps. -/
theorem history_run_of_log {step : σ → Event Ret ε → σ → Prop} {performed : Op → Bool}
    {handle : (op : Op) → σ → Except ε (Ret op) × σ}
    (hstep : ∀ s op, performed op = true → step s ⟨op, (handle op s).1⟩ (handle op s).2)
    (program : Prog Ret ε α) (s : σ)
    (hlog : (program.run handle s).log.all (fun event => performed event.op) = true) :
    History step s (program.run handle s).log (program.run handle s).final := by
  induction program generalizing s with
  | call op next ih =>
      simp only [Prog.run, List.all_cons, Bool.and_eq_true] at hlog
      exact .cons (hstep s op hlog.1) (ih _ _ hlog.2)
  | _ => exact .nil s

/-- Every answer in the log is the one that `handle` gave. -/
theorem answer_of_mem_log {handle : (op : Op) → σ → Except ε (Ret op) × σ}
    (program : Prog Ret ε α) (s : σ) {event : Event Ret ε}
    (h : event ∈ (program.run handle s).log) : ∃ s', event.answer = (handle event.op s').1 := by
  induction program generalizing s with
  | call op next ih =>
      simp only [Prog.run, List.mem_cons] at h
      rcases h with rfl | hrest
      · exact ⟨s, rfl⟩
      · exact ih _ _ hrest
  | _ => simp [Prog.run] at h

end Effect
