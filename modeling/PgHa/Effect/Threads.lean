import PgHa.Effect.Triple
import Mathlib.Logic.Relation

/-!
# Systems of threads

A system is a shared state and one program for every thread slot.  A step of
the system is one operation of one thread (`exec`), an operation that starts a
program in another slot (`fork`), the environment starting a program
(`arrive`), or a change of the shared state from outside (`env`).  Every
interleaving of the operations of the threads is a path of steps.

The rules are those of rely and guarantee.  A `Contract` names what each thread
may rely on (how the others may change the shared state), what holds when its
program starts, and what holds once it has ended.  `Contract.thread` is the
transformer of one thread among the others: before each of its operations the
rest of the system may have moved the state along the thread's rely relation,
and the operation must be something on which every other thread may rely.
`Contract.Holds.reach` puts the threads together.
-/

namespace Effect

variable {ι Op : Type} {Ret : Op → Type} {ε α σ : Type}

/-- Threads with slots `ι` over a shared state `σ`. -/
structure System (ι : Type) {Op : Type} (Ret : Op → Type) (ε α σ : Type) where
  /-- Thread `i` performs an operation. -/
  step : ι → σ → Event Ret ε → σ → Prop
  /-- Thread `i` performs an operation that starts a program in slot `j`. -/
  fork : ι → ι → σ → Event Ret ε → σ → Prog Ret ε α → Prop
  /-- The environment starts a program in slot `j`. -/
  arrive : ι → σ → Prog Ret ε α → σ → Prop
  /-- The environment changes the shared state. -/
  env : σ → σ → Prop

/-- A shared state and the program that is left to run in every slot. -/
structure Threads (ι : Type) {Op : Type} (Ret : Op → Type) (ε α σ : Type) where
  shared : σ
  prog : ι → Prog Ret ε α

namespace System

variable [DecidableEq ι]

/-- One atomic step of the system. -/
inductive Step (S : System ι Ret ε α σ) :
    Threads ι Ret ε α σ → Threads ι Ret ε α σ → Prop
  | exec {i : ι} {op : Op} {next : Except ε (Ret op) → Prog Ret ε α} {answer : Except ε (Ret op)}
      {s s' : σ} {prog : ι → Prog Ret ε α} (hprog : prog i = .call op next)
      (hstep : S.step i s ⟨op, answer⟩ s') :
      Step S ⟨s, prog⟩ ⟨s', Function.update prog i (next answer)⟩
  | fork {i j : ι} {op : Op} {next : Except ε (Ret op) → Prog Ret ε α}
      {answer : Except ε (Ret op)} {s s' : σ} {prog : ι → Prog Ret ε α} {child : Prog Ret ε α}
      (hprog : prog i = .call op next) (hfork : S.fork i j s ⟨op, answer⟩ s' child)
      (hne : j ≠ i) (hidle : (prog j).Finished) :
      Step S ⟨s, prog⟩
        ⟨s', Function.update (Function.update prog i (next answer)) j child⟩
  | arrive {j : ι} {s s' : σ} {prog : ι → Prog Ret ε α} {program : Prog Ret ε α}
      (harrive : S.arrive j s program s') (hidle : (prog j).Finished) :
      Step S ⟨s, prog⟩ ⟨s', Function.update prog j program⟩
  | env {s s' : σ} {prog : ι → Prog Ret ε α} (henv : S.env s s') : Step S ⟨s, prog⟩ ⟨s', prog⟩

/-- The states that a run from `start` reaches. -/
def Reach (S : System ι Ret ε α σ) (start state : Threads ι Ret ε α σ) : Prop :=
  Relation.ReflTransGen S.Step start state

/-- The runs of `S` in which every operation is performed only where `allowed`
lets the thread perform it. -/
def restrict (S : System ι Ret ε α σ) (allowed : ι → σ → Event Ret ε → Prop) :
    System ι Ret ε α σ where
  step i s event s' := allowed i s event ∧ S.step i s event s'
  fork i j s event s' child := allowed i s event ∧ S.fork i j s event s' child
  arrive := S.arrive
  env := S.env

theorem Reach.unrestrict {S : System ι Ret ε α σ} (allowed : ι → σ → Event Ret ε → Prop)
    {start state : Threads ι Ret ε α σ} (h : (S.restrict allowed).Reach start state) :
    S.Reach start state := by
  induction h with
  | refl => exact .refl
  | tail _ hstep ih =>
      refine .tail ih ?_
      cases hstep with
      | exec hprog h => exact .exec hprog h.2
      | fork hprog h hne hidle => exact .fork hprog h.2 hne hidle
      | arrive h hidle => exact .arrive h hidle
      | env h => exact .env h

end System

/-! ## Rely and guarantee -/

/-- What the threads of a system promise each other. -/
structure Contract (S : System ι Ret ε α σ) where
  /-- What holds of the shared state throughout. -/
  inv : σ → Prop
  /-- How the rest of the system may change the state under thread `i`. -/
  rely : ι → σ → σ → Prop
  refl : ∀ i s, rely i s s
  trans : ∀ i s s' s'', rely i s s' → rely i s' s'' → rely i s s''
  /-- What holds when a program starts in slot `i`. -/
  start : ι → Prog Ret ε α → σ → Prop
  /-- What holds once the program in slot `i` has ended. -/
  post : ι → Outcome ε α → σ → Prop
  stable : ∀ i outcome s s', rely i s s' → inv s' → post i outcome s → post i outcome s'

namespace Contract

variable {S : System ι Ret ε α σ} (C : Contract S)

/-- One operation of thread `i` among the other threads. -/
def thread (i : ι) : Transformer Ret ε σ := fun op post s =>
  ∀ s₁, C.rely i s s₁ → C.inv s₁ → ∀ answer,
    (∀ s₂, S.step i s₁ ⟨op, answer⟩ s₂ →
      C.inv s₂ ∧ (∀ j, j ≠ i → C.rely j s₁ s₂) ∧ post answer s₂) ∧
    (∀ j s₂ child, S.fork i j s₁ ⟨op, answer⟩ s₂ child → j ≠ i →
      C.inv s₂ ∧ (∀ l, l ≠ i → l ≠ j → C.rely l s₁ s₂) ∧ C.start j child s₂ ∧ post answer s₂)

theorem thread_monotone (i : ι) : (C.thread i).Monotone := by
  intro op post post' s himp h s₁ hrely hinv answer
  obtain ⟨hstep, hfork⟩ := h s₁ hrely hinv answer
  refine ⟨fun s₂ hs₂ => ?_, fun j s₂ child hs₂ hne => ?_⟩
  · obtain ⟨hinv₂, hothers, hpost⟩ := hstep s₂ hs₂
    exact ⟨hinv₂, hothers, himp _ _ hpost⟩
  · obtain ⟨hinv₂, hothers, hstart, hpost⟩ := hfork j s₂ child hs₂ hne
    exact ⟨hinv₂, hothers, hstart, himp _ _ hpost⟩

/-- The program left in slot `i` keeps the contract from here on. -/
def Safe (i : ι) (program : Prog Ret ε α) (s : σ) : Prop :=
  program.wp (C.thread i) (C.post i) s

/-- Moves of the other threads do not make a thread unsafe. -/
theorem Safe.rely {C : Contract S} {i : ι} {program : Prog Ret ε α} {s s' : σ}
    (h : C.Safe i program s) (hrely : C.rely i s s') (hinv : C.inv s') :
    C.Safe i program s' := by
  cases program with
  | call op next => exact fun s₁ h₁ => h s₁ (C.trans i _ _ _ hrely h₁)
  | _ => exact C.stable i _ _ _ hrely hinv h

theorem Safe.of_finished {C : Contract S} {i : ι} {program : Prog Ret ε α} {s : σ}
    (h : C.Safe i program s) (hended : program.Finished) :
    ∃ outcome, outcome ≠ .stuck ∧ C.post i outcome s := by
  cases program with
  | pure value => exact ⟨_, by simp, h⟩
  | raise error => exact ⟨_, by simp, h⟩
  | stuck => exact hended.elim
  | call op next => exact hended.elim

/-- An operation that starts no other program, from a set of states that the
other threads do not leave. -/
theorem thread_of_step {C : Contract S} {i : ι} {op : Op} (assertion : σ → Prop)
    {post : Except ε (Ret op) → σ → Prop} {s : σ} (hs : assertion s)
    (hkeep : ∀ s₁ s₂, assertion s₁ → C.rely i s₁ s₂ → C.inv s₂ → assertion s₂)
    (hfork : ∀ j s₁ answer s₂ child, ¬ S.fork i j s₁ ⟨op, answer⟩ s₂ child)
    (hstep : ∀ s₁, assertion s₁ → C.inv s₁ → ∀ answer s₂, S.step i s₁ ⟨op, answer⟩ s₂ →
      C.inv s₂ ∧ (∀ j, j ≠ i → C.rely j s₁ s₂) ∧ post answer s₂) :
    C.thread i op post s :=
  fun s₁ hrely hinv answer =>
    ⟨fun s₂ h => hstep s₁ (hkeep s s₁ hs hrely hinv) hinv answer s₂ h,
      fun j s₂ child h => absurd h (hfork j s₁ answer s₂ child)⟩

/-- The rule for one operation of a thread, from an assertion that the other
threads do not take away. -/
theorem triple_of_step {C : Contract S} {i : ι} {op : Op} {P : σ → Prop} {Q : Ret op → σ → Prop}
    {E : σ → Prop} (hstable : ∀ s₁ s₂, P s₁ → C.rely i s₁ s₂ → C.inv s₂ → P s₂)
    (hfork : ∀ j s₁ answer s₂ child, ¬ S.fork i j s₁ ⟨op, answer⟩ s₂ child)
    (hstep : ∀ s₁, P s₁ → C.inv s₁ → ∀ answer s₂, S.step i s₁ ⟨op, answer⟩ s₂ →
      C.inv s₂ ∧ (∀ j, j ≠ i → C.rely j s₁ s₂) ∧ Prog.ending Q E (Prog.answered answer) s₂) :
    Prog.Triple (C.thread i) P (.perform op) Q E :=
  .perform fun _ hs => thread_of_step P hs hstable hfork hstep

/-- The other threads do not take the assertion away. -/
def Stable (C : Contract S) (i : ι) (P : σ → Prop) : Prop :=
  ∀ s s', P s → C.rely i s s' → C.inv s' → P s'

/-- A step of thread `i` on which every other thread may rely, and after which `kept` holds. -/
structure Keeping (C : Contract S) (i : ι) (kept : Prop) (s s' : σ) : Prop where
  inv : C.inv s'
  relies : ∀ j, j ≠ i → C.rely j s s'
  kept : kept

theorem stable_true {C : Contract S} {i : ι} : C.Stable i fun _ => True := fun _ _ _ _ _ => trivial

theorem Stable.and {C : Contract S} {i : ι} {P P' : σ → Prop} (h : C.Stable i P)
    (h' : C.Stable i P') : C.Stable i fun s => P s ∧ P' s :=
  fun s s' hs hrely hinv => ⟨h s s' hs.1 hrely hinv, h' s s' hs.2 hrely hinv⟩

/-- The rule for an operation that starts no thread. -/
theorem triple_perform {C : Contract S} {i : ι} {op : Op} {P : σ → Prop} {Q : Ret op → σ → Prop}
    {E : σ → Prop} (hstable : C.Stable i P)
    (hfork : ∀ j s answer s' child, ¬ S.fork i j s ⟨op, answer⟩ s' child)
    (hstep : ∀ s answer s', C.inv s → P s → S.step i s ⟨op, answer⟩ s' →
      C.Keeping i (Prog.ending Q E (Prog.answered answer) s') s s') :
    Prog.Triple (C.thread i) P (.perform op) Q E := by
  refine triple_of_step hstable hfork fun s hs hinv answer s' h => ?_
  obtain ⟨hinv', hothers, hkept⟩ := hstep s answer s' hinv hs h
  exact ⟨hinv', hothers, hkept⟩

/-- What every operation of a program keeps, the program keeps. -/
theorem keeps_of_step {C : Contract S} {i : ι} {P : σ → Prop} (hstable : C.Stable i P)
    {allowed : Op → Prop}
    (hfork : ∀ op, allowed op → ∀ j s answer s' child, ¬ S.fork i j s ⟨op, answer⟩ s' child)
    (hstep : ∀ s event s', allowed event.op → C.inv s → P s → S.step i s event s' →
      C.Keeping i (P s') s s')
    {β : Type} {program : Prog Ret ε β} (hcalls : program.Calls allowed) :
    Prog.Keeps (C.thread i) P program := by
  refine .of_calls (C.thread_monotone i) (fun op hop s hs => ?_) hcalls
  refine thread_of_step P hs hstable (hfork op hop) fun s hs hinv answer s' h => ?_
  obtain ⟨hinv', hothers, hkept⟩ := hstep s ⟨op, answer⟩ s' hop hinv hs h
  exact ⟨hinv', hothers, hkept⟩

/-- The contract is kept by every program that is ever started and by the
environment. -/
structure Holds (C : Contract S) : Prop where
  start : ∀ i program s, C.inv s → C.start i program s → C.Safe i program s
  arrive : ∀ i s program s', C.inv s → S.arrive i s program s' →
    (∃ outcome, outcome ≠ .stuck ∧ C.post i outcome s) →
    C.inv s' ∧ (∀ j, j ≠ i → C.rely j s s') ∧ C.start i program s'
  env : ∀ s s', C.inv s → S.env s s' → C.inv s' ∧ ∀ i, C.rely i s s'

/-- Every thread of the state keeps the contract. -/
def Sound (state : Threads ι Ret ε α σ) : Prop :=
  C.inv state.shared ∧ ∀ i, C.Safe i (state.prog i) state.shared

/-- What holds of a thread that has ended. -/
theorem Sound.ended {C : Contract S} {state : Threads ι Ret ε α σ} (h : C.Sound state) {i : ι}
    {outcome : Outcome ε α} (hout : (state.prog i).outcome? = some outcome) :
    C.post i outcome state.shared := by
  have hi := h.2 i
  unfold Safe at hi
  cases hprog : state.prog i <;> simp only [hprog, Prog.outcome?, Option.some.injEq,
    reduceCtorEq] at hout <;> subst hout <;> simpa [hprog] using hi

variable {C} [DecidableEq ι]

theorem Holds.step (hC : C.Holds) {state state' : Threads ι Ret ε α σ} (h : S.Step state state')
    (hstate : C.Sound state) : C.Sound state' := by
  obtain ⟨hinv, hsafe⟩ := hstate
  cases h with
  | @exec i op next answer s s' prog hprog hstep =>
      have hi : C.Safe i (.call op next) s := hprog ▸ hsafe i
      obtain ⟨hinv', hothers, hnext⟩ := (hi s (C.refl i s) hinv answer).1 s' hstep
      refine ⟨hinv', fun j => ?_⟩
      by_cases hj : j = i
      · subst hj
        simpa only [Function.update_self, Safe] using hnext
      · simpa only [Function.update_of_ne hj] using (hsafe j).rely (hothers j hj) hinv'
  -- the thread that forks, the one that is started, and the others
  | @fork i j op next answer s s' prog child hprog hfork hne hidle =>
      have hi : C.Safe i (.call op next) s := hprog ▸ hsafe i
      obtain ⟨hinv', hothers, hstart, hnext⟩ :=
        (hi s (C.refl i s) hinv answer).2 j s' child hfork hne
      refine ⟨hinv', fun l => ?_⟩
      by_cases hl : l = j
      · subst hl
        simpa only [Function.update_self] using hC.start l child s' hinv' hstart
      by_cases hl' : l = i
      · subst hl'
        simpa only [Function.update_of_ne hl, Function.update_self, Safe] using hnext
      · simpa only [Function.update_of_ne hl, Function.update_of_ne hl'] using
          (hsafe l).rely (hothers l hl' hl) hinv'
  -- a slot whose last program has ended takes a new one
  | @arrive j s s' prog program harrive hidle =>
      have hended := (hsafe j).of_finished hidle
      obtain ⟨hinv', hothers, hstart⟩ := hC.arrive j s program s' hinv harrive hended
      refine ⟨hinv', fun l => ?_⟩
      by_cases hl : l = j
      · subst hl
        simpa only [Function.update_self] using hC.start l program s' hinv' hstart
      · simpa only [Function.update_of_ne hl] using (hsafe l).rely (hothers l hl) hinv'
  | env henv =>
      obtain ⟨hinv', hall⟩ := hC.env _ _ hinv henv
      exact ⟨hinv', fun i => (hsafe i).rely (hall i) hinv'⟩

/-- **Composition.**  If every program keeps the contract on its own, then in
every state that the system reaches the invariant holds and every thread still
keeps the contract. -/
theorem Holds.reach (hC : C.Holds) {start state : Threads ι Ret ε α σ}
    (h : S.Reach start state) (hstart : C.Sound start) : C.Sound state := by
  induction h with
  | refl => exact hstart
  | tail _ hstep ih => exact hC.step hstep ih

end Contract

/-! ## Letting one thread run -/

/-- Let a program perform up to `count` operations, resolved with `handle`, but
stop where `stop` says. -/
def Prog.advance (handle : (op : Op) → σ → Except ε (Ret op) × σ) (stop : Op → σ → Bool) :
    ℕ → Prog Ret ε α → σ → Prog Ret ε α × σ
  | 0, program, s => (program, s)
  | count + 1, .call op next, s =>
      if stop op s then (.call op next, s)
      else (next (handle op s).1).advance handle stop count (handle op s).2
  | _ + 1, program, s => (program, s)

/-- The state after thread `i` alone has performed up to `count` operations. -/
def Threads.advance [DecidableEq ι] (handle : (op : Op) → σ → Except ε (Ret op) × σ)
    (stop : Op → σ → Bool) (i : ι) (count : ℕ) (state : Threads ι Ret ε α σ) :
    Threads ι Ret ε α σ :=
  let rest := (state.prog i).advance handle stop count state.shared
  ⟨rest.2, Function.update state.prog i rest.1⟩

theorem Threads.advance_prog [DecidableEq ι] {handle : (op : Op) → σ → Except ε (Ret op) × σ}
    {stop : Op → σ → Bool} {i j : ι} {count : ℕ} {state : Threads ι Ret ε α σ} (h : j ≠ i) :
    (state.advance handle stop i count).prog j = state.prog j :=
  Function.update_of_ne h _ _

theorem Threads.advance_of_prog [DecidableEq ι] {handle : (op : Op) → σ → Except ε (Ret op) × σ}
    {stop : Op → σ → Bool} {i : ι} {count : ℕ} {state : Threads ι Ret ε α σ}
    (h : (state.prog i).advance handle stop count state.shared = (state.prog i, state.shared)) :
    state.advance handle stop i count = state := by
  simp only [advance, h, Function.update_eq_self]

/-- Letting one thread run is a path of steps. -/
theorem System.Reach.advance [DecidableEq ι] {S : System ι Ret ε α σ}
    {start state : Threads ι Ret ε α σ} (h : S.Reach start state)
    {handle : (op : Op) → σ → Except ε (Ret op) × σ} {stop : Op → σ → Bool} {i : ι}
    (hstep : ∀ s op, stop op s = false → S.step i s ⟨op, (handle op s).1⟩ (handle op s).2)
    (count : ℕ) : S.Reach start (state.advance handle stop i count) := by
  induction count generalizing state with
  | zero => rwa [Threads.advance_of_prog rfl]
  | succ count ih =>
      cases hprog : state.prog i with
      | call op next =>
          by_cases hstop : stop op state.shared = true
          · rwa [Threads.advance_of_prog (by simp [hprog, Prog.advance, hstop])]
          · have hfirst : S.Step state
                ⟨(handle op state.shared).2,
                  Function.update state.prog i (next (handle op state.shared).1)⟩ :=
              .exec hprog (hstep state.shared op (by simpa using hstop))
            have hrest : state.advance handle stop i (count + 1) =
                Threads.advance handle stop i count
                  ⟨(handle op state.shared).2,
                    Function.update state.prog i (next (handle op state.shared).1)⟩ := by
              simp [Threads.advance, hprog, Prog.advance, hstop]
            rw [hrest]
            exact ih (Relation.ReflTransGen.tail h hfirst)
      | _ => rwa [Threads.advance_of_prog (by simp [hprog, Prog.advance])]

/-- The operation that a program performs next. -/
def Prog.head? : Prog Ret ε α → Option Op
  | .call op _ => some op
  | _ => none

/-- The program that is left when its next operation is `op`, answered so. -/
def Prog.resume [DecidableEq Op] (program : Prog Ret ε α) (op : Op) (answer : Except ε (Ret op)) :
    Prog Ret ε α :=
  match program with
  | .call op' next => if h : op = op' then next (h ▸ answer) else .call op' next
  | program => program

theorem Prog.exists_call_of_head? [DecidableEq Op] {program : Prog Ret ε α} {op : Op}
    (h : program.head? = some op) : ∃ next, program = .call op next ∧
      ∀ answer, program.resume op answer = next answer := by
  cases program with
  | call op' next =>
      obtain rfl : op' = op := Option.some.inj h
      refine ⟨next, rfl, fun answer => ?_⟩
      simp [resume]
  | _ => cases h

theorem Prog.finished_of_returned {program : Prog Ret ε α} (value : α)
    (h : program.outcome? = some (.returned value)) : program.Finished := by
  cases program with
  | pure value => trivial
  | raise error => trivial
  | stuck => cases h
  | call op next => cases h

/-- The state after thread `i` has started a program in slot `j`. -/
def Threads.forked [DecidableEq ι] [DecidableEq Op] (state : Threads ι Ret ε α σ) (i j : ι)
    (op : Op) (answer : Except ε (Ret op)) (s' : σ) (child : Prog Ret ε α) :
    Threads ι Ret ε α σ :=
  ⟨s', Function.update (Function.update state.prog i ((state.prog i).resume op answer)) j child⟩

theorem Threads.forked_prog [DecidableEq ι] [DecidableEq Op] {state : Threads ι Ret ε α σ}
    {i j l : ι} {op : Op} {answer : Except ε (Ret op)} {s' : σ} {child : Prog Ret ε α}
    (hi : l ≠ i) (hj : l ≠ j) :
    (state.forked i j op answer s' child).prog l = state.prog l :=
  (Function.update_of_ne hj _ _).trans (Function.update_of_ne hi _ _)

theorem System.Reach.fork [DecidableEq ι] [DecidableEq Op] {S : System ι Ret ε α σ}
    {start state : Threads ι Ret ε α σ} (h : S.Reach start state) {i j : ι} {op : Op}
    {answer : Except ε (Ret op)} {s' : σ} {child : Prog Ret ε α}
    (hhead : (state.prog i).head? = some op)
    (hfork : S.fork i j state.shared ⟨op, answer⟩ s' child) (hne : j ≠ i)
    (hidle : (state.prog j).Finished) : S.Reach start (state.forked i j op answer s' child) := by
  obtain ⟨next, hprog, hresume⟩ := Prog.exists_call_of_head? hhead
  have hstep : S.Step state (state.forked i j op answer s' child) := by
    rw [Threads.forked, hresume]
    exact .fork hprog hfork hne hidle
  exact Relation.ReflTransGen.tail h hstep

/-- The state after the environment has started a program in slot `j`. -/
def Threads.arrived [DecidableEq ι] (state : Threads ι Ret ε α σ) (j : ι) (s' : σ)
    (program : Prog Ret ε α) : Threads ι Ret ε α σ :=
  ⟨s', Function.update state.prog j program⟩

theorem Threads.arrived_prog [DecidableEq ι] {state : Threads ι Ret ε α σ} {i j : ι} {s' : σ}
    {program : Prog Ret ε α} (h : i ≠ j) : (state.arrived j s' program).prog i = state.prog i :=
  Function.update_of_ne h _ _

theorem System.Reach.arrive [DecidableEq ι] {S : System ι Ret ε α σ}
    {start state : Threads ι Ret ε α σ} (h : S.Reach start state) {j : ι} {s' : σ}
    {program : Prog Ret ε α} (harrive : S.arrive j state.shared program s')
    (hidle : (state.prog j).Finished) : S.Reach start (state.arrived j s' program) :=
  Relation.ReflTransGen.tail h (.arrive harrive hidle)

theorem System.Reach.env [DecidableEq ι] {S : System ι Ret ε α σ}
    {start state : Threads ι Ret ε α σ} (h : S.Reach start state) {s' : σ}
    (henv : S.env state.shared s') : S.Reach start ⟨s', state.prog⟩ :=
  Relation.ReflTransGen.tail h (.env henv)

end Effect
