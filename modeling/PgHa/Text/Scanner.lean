import Mathlib.Data.List.Basic

/-!
# Scanners, and what they make of a part of their input

A scanner takes a value off the front of a list of tokens.  `Scanner.Cut` says
what happens when the list ends too early: a scanner that succeeds on a whole
input either fails on a beginning of it, or has read no further than that
beginning anyway, or stops at a place that its `stuck` allows.  Scanners whose
`stuck` allows nothing know where their value ends; those of numbers and of
white space do not, and what follows them has to notice.

A scanner that goes round a loop is given as much fuel as its input is long, so
that there is less of it for a beginning.  `Cut` therefore relates two scanners,
and `collect_eq` says that the fuel is enough.

`Scanner.Reads` is about the other end: a text that a scanner reads as one value,
whatever comes after it.  The texts that a printer puts together are read part by
part (`Reads.bind`), and those of a loop round by round (`Collects`).
-/

/-- A scanner of tokens `τ` that fails with an `ε`. -/
def Scanner (τ ε α : Type) : Type := List τ → Except ε (α × List τ)

namespace Scanner

variable {τ ε α β : Type}

def pure (value : α) : Scanner τ ε α := fun input => .ok (value, input)

def fail (error : ε) : Scanner τ ε α := fun _ => .error error

def bind (scanner : Scanner τ ε α) (next : α → Scanner τ ε β) : Scanner τ ε β := fun input =>
  match scanner input with
  | .ok (value, rest) => next value rest
  | .error error => .error error

/-- The next token; `error` is what a scanner fails with where there is none. -/
def token (error : ε) : Scanner τ ε τ
  | [] => .error error
  | next :: rest => .ok (next, rest)

def takeWhile (p : τ → Bool) : Scanner τ ε (List τ) := fun input =>
  .ok (input.takeWhile p, input.dropWhile p)

/-- The values of a step, until it has none. -/
def collect (step : Scanner τ ε (Option α)) (error : ε) : ℕ → Scanner τ ε (List α)
  | 0 => fail error
  | fuel + 1 => step.bind fun
      | none => pure []
      | some value => (collect step error fuel).bind fun values => pure (value :: values)

/-- The loop, with as much fuel as the input can make use of. -/
def collectAll (step : Scanner τ ε (Option α)) (error : ε) : Scanner τ ε (List α) := fun input =>
  collect step error (input.length + 1) input

/-! ## Enough fuel -/

/-- The scanner takes at least one token. -/
def Shrinks (scanner : Scanner τ ε α) : Prop :=
  ∀ input value rest, scanner input = .ok (value, rest) → rest.length < input.length

/-- The scanner puts no token back. -/
def Keeps (scanner : Scanner τ ε α) : Prop :=
  ∀ input value rest, scanner input = .ok (value, rest) → rest.length ≤ input.length

theorem bind_eq_ok {scanner : Scanner τ ε α} {next : α → Scanner τ ε β} {input rest : List τ}
    {value : β} (h : scanner.bind next input = .ok (value, rest)) :
    ∃ first left, scanner input = .ok (first, left) ∧ next first left = .ok (value, rest) := by
  unfold bind at h
  split at h
  · rename_i first left hfirst
    exact ⟨first, left, hfirst, h⟩
  · cases h

section Fuel

variable {scanner : Scanner τ ε α} {next : α → Scanner τ ε β}

theorem Shrinks.keeps (h : Shrinks scanner) : Keeps scanner := fun input value rest hok =>
  Nat.le_of_lt (h input value rest hok)

theorem keeps_pure (value : α) : Keeps (pure value : Scanner τ ε α) := by
  intro input value rest h
  cases h
  exact Nat.le_refl _

theorem shrinks_fail (error : ε) : Shrinks (fail error : Scanner τ ε α) := by
  intro input value rest h
  cases h

theorem shrinks_token (error : ε) : Shrinks (token error : Scanner τ ε τ) := by
  intro input value rest h
  cases input with
  | nil => cases h
  | cons next left =>
      cases h
      simp

theorem keeps_takeWhile (p : τ → Bool) : Keeps (takeWhile p : Scanner τ ε (List τ)) := by
  intro input value rest h
  cases h
  exact (List.dropWhile_sublist p).length_le

theorem Shrinks.bind (h : Shrinks scanner) (hnext : ∀ value, Keeps (next value)) :
    Shrinks (scanner.bind next) := by
  intro input value rest hok
  obtain ⟨first, left, hfirst, hrest⟩ := bind_eq_ok hok
  exact Nat.lt_of_le_of_lt (hnext first _ _ _ hrest) (h _ _ _ hfirst)

theorem Keeps.bind (h : Keeps scanner) (hnext : ∀ value, Keeps (next value)) :
    Keeps (scanner.bind next) := by
  intro input value rest hok
  obtain ⟨first, left, hfirst, hrest⟩ := bind_eq_ok hok
  exact Nat.le_trans (hnext first _ _ _ hrest) (h _ _ _ hfirst)

theorem Keeps.bind_shrinks (h : Keeps scanner) (hnext : ∀ value, Shrinks (next value)) :
    Shrinks (scanner.bind next) := by
  intro input value rest hok
  obtain ⟨first, left, hfirst, hrest⟩ := bind_eq_ok hok
  exact Nat.lt_of_lt_of_le (hnext first _ _ _ hrest) (h _ _ _ hfirst)

theorem keeps_ite {condition : Prop} [Decidable condition] {other : Scanner τ ε α}
    (h : Keeps scanner) (hother : Keeps other) : Keeps (if condition then scanner else other) := by
  split
  · exact h
  · exact hother

end Fuel

section Loop

variable {step : Scanner τ ε (Option α)} {error : ε}

theorem keeps_collect (hstep : Shrinks step) (fuel : ℕ) : Keeps (collect step error fuel) := by
  induction fuel with
  | zero => exact (shrinks_fail error).keeps
  | succ fuel ih =>
      refine hstep.keeps.bind fun result => ?_
      cases result with
      | none => exact keeps_pure []
      | some value => exact ih.bind fun values => keeps_pure _

theorem keeps_collectAll (hstep : Shrinks step) : Keeps (collectAll step error) :=
  fun input => keeps_collect hstep _ input

/-- More fuel than tokens makes no difference. -/
theorem collect_eq (hstep : Shrinks step) {fuel : ℕ} {input : List τ}
    (hfuel : input.length < fuel) :
    collect step error fuel input = collectAll step error input := by
  -- both sides go round in step, on shorter and shorter inputs
  have hsame (fuel : ℕ) : ∀ input : List τ, input.length < fuel → ∀ more,
      collect step error (fuel + more) input = collect step error fuel input := by
    induction fuel with
    | zero => exact fun input h => absurd h (Nat.not_lt_zero _)
    | succ fuel ih =>
        intro input hinput more
        have hfuel : fuel + 1 + more = fuel + more + 1 := by omega
        rw [hfuel]
        unfold collect bind
        cases hresult : step input with
        | error error => rfl
        | ok result =>
            obtain ⟨value, rest⟩ := result
            have hrest : rest.length < fuel := by
              have hshorter := hstep _ _ _ hresult
              omega
            cases value with
            | none => rfl
            | some value =>
                dsimp only
                rw [ih rest hrest more]
  obtain ⟨more, rfl⟩ : ∃ more, fuel = input.length + 1 + more :=
    ⟨fuel - (input.length + 1), by omega⟩
  exact hsame _ input (Nat.lt_succ_self _) more

end Loop

/-! ## Parts of an input -/

/-- The scanner fails, with an error that `short` allows. -/
def Fails (short : ε → Prop) (scanner : Scanner τ ε α) (input : List τ) : Prop :=
  ∃ error, scanner input = .error error ∧ short error

/-- The scanner fails, or stops at a place that `stuck` allows. -/
def Halts (short : ε → Prop) (stuck : α → List τ → Prop) (scanner : Scanner τ ε α)
    (input : List τ) : Prop :=
  Fails short scanner input ∨ ∃ value left, scanner input = .ok (value, left) ∧ stuck value left

/-- What becomes of the value of `whole` when `part` gets a beginning of the input only:
unless `part` halts, it finds the same value and leaves the rest of its beginning. -/
def Cut (short : ε → Prop) (stuck : α → List τ → Prop) (whole part : Scanner τ ε α) : Prop :=
  ∀ first more value rest, whole (first ++ more) = .ok (value, rest) →
    Halts short stuck part first ∨ ∃ left, part first = .ok (value, left) ∧ rest = left ++ more

/-- No place to stop. -/
def nowhere (_ : α) (_ : List τ) : Prop := False

section Cut

variable {short : ε → Prop} {stuck : α → List τ → Prop} {stuck' : β → List τ → Prop}
  {whole part : Scanner τ ε α} {next next' : α → Scanner τ ε β}

theorem Fails.bind {scanner : Scanner τ ε α} {input : List τ} (h : Fails short scanner input) :
    Fails short (scanner.bind next) input := by
  obtain ⟨error, herror, hshort⟩ := h
  refine ⟨error, ?_, hshort⟩
  rw [Scanner.bind, herror]

theorem bind_of_ok {scanner : Scanner τ ε α} {input left : List τ} {value : α}
    (h : scanner input = .ok (value, left)) : scanner.bind next input = next value left := by
  rw [Scanner.bind, h]

theorem Fails.after {scanner : Scanner τ ε α} {input left : List τ} {value : α}
    (hvalue : scanner input = .ok (value, left)) (h : Fails short (next value) left) :
    Fails short (scanner.bind next) input := by
  rw [Fails, bind_of_ok hvalue]
  exact h

theorem Halts.bind {scanner : Scanner τ ε α} {input : List τ} (h : Halts short stuck scanner input)
    (hnext : ∀ value left, stuck value left → Halts short stuck' (next value) left) :
    Halts short stuck' (scanner.bind next) input := by
  rcases h with hfails | ⟨value, left, hvalue, hstuck⟩
  · exact .inl hfails.bind
  · rw [Halts, Fails, bind_of_ok hvalue]
    exact hnext value left hstuck

theorem Fails.halts {scanner : Scanner τ ε α} {input : List τ} (h : Fails short scanner input) :
    Halts short stuck scanner input := .inl h

/-- A scanner with no place to stop can only fail. -/
theorem Halts.fails {scanner : Scanner τ ε α} {input : List τ}
    (h : Halts short nowhere scanner input) : Fails short scanner input := by
  rcases h with hfails | ⟨_, _, _, hnowhere⟩
  · exact hfails
  · exact hnowhere.elim

theorem Cut.bind (h : Cut short stuck whole part)
    (hnext : ∀ value, Cut short stuck' (next value) (next' value))
    (hstuck : ∀ value left, stuck value left → Halts short stuck' (next' value) left) :
    Cut short stuck' (whole.bind next) (part.bind next') := by
  intro first more value rest hok
  obtain ⟨middle, left, hmiddle, hrest⟩ := bind_eq_ok hok
  rcases h first more middle left hmiddle with hhalts | ⟨left', hpart, rfl⟩
  · exact .inl (hhalts.bind hstuck)
  · -- the first scanner is not cut, so the second one may be
    rcases hnext middle left' more value rest hrest with hhalts | ⟨left'', hpart', rfl⟩
    · left
      rw [Halts, Fails, bind_of_ok hpart]
      exact hhalts
    · right
      refine ⟨left'', ?_, rfl⟩
      rw [bind_of_ok hpart, hpart']

/-- A scanner that knows where its value ends may be followed by any other one. -/
theorem Cut.then (h : Cut short nowhere whole part)
    (hnext : ∀ value, Cut short stuck' (next value) (next' value)) :
    Cut short stuck' (whole.bind next) (part.bind next') :=
  h.bind hnext fun _ _ hnowhere => hnowhere.elim

theorem Cut.weaken (h : Cut short nowhere whole part) : Cut short stuck whole part := by
  intro first more value rest hok
  rcases h first more value rest hok with hhalts | hleft
  · exact .inl (.inl hhalts.fails)
  · exact .inr hleft

theorem cut_pure (value : α) : Cut short stuck (pure value : Scanner τ ε α) (pure value) := by
  intro first more value' rest hok
  cases hok
  exact .inr ⟨first, rfl, rfl⟩

/-- A scanner that fails is not cut at all. -/
theorem cut_fail (error : ε) : Cut short stuck (fail error : Scanner τ ε α) part := by
  intro first more value rest hok
  cases hok

theorem cut_token {error : ε} (herror : short error) {stuck : τ → List τ → Prop} :
    Cut short stuck (token error) (token error) := by
  intro first more value rest hok
  cases first with
  | nil => exact .inl (.inl ⟨error, rfl, herror⟩)
  | cons next left =>
      cases hok
      exact .inr ⟨left, rfl, rfl⟩

theorem cut_ite {condition : Prop} [Decidable condition] {other other' : Scanner τ ε α}
    (h : Cut short stuck whole part) (hother : Cut short stuck other other') :
    Cut short stuck (if condition then whole else other) (if condition then part else other') := by
  split
  · exact h
  · exact hother

/-- A run of tokens that reaches the end of the beginning may go on after it. -/
theorem cut_takeWhile {p : τ → Bool} {stuck : List τ → List τ → Prop}
    (hstuck : ∀ values, stuck values []) :
    Cut short stuck (takeWhile p : Scanner τ ε (List τ)) (takeWhile p) := by
  intro first more value rest hok
  cases hok
  by_cases hend : first.dropWhile p = []
  · -- nothing is left of the beginning, and the run may go on
    left
    right
    refine ⟨first.takeWhile p, [], ?_, hstuck _⟩
    rw [takeWhile, hend]
  · right
    have hshort : (first.takeWhile p).length ≠ first.length := by
      intro hlength
      have hsplit := congrArg List.length (List.takeWhile_append_dropWhile (p := p) (l := first))
      rw [List.length_append, hlength] at hsplit
      exact hend (List.eq_nil_of_length_eq_zero (by omega))
    refine ⟨first.dropWhile p, ?_, ?_⟩
    · rw [List.takeWhile_append, if_neg hshort, takeWhile]
    · rw [List.dropWhile_append, if_neg (by simpa using hend)]

/-- A loop whose steps may only stop where the next step fails. -/
theorem cut_collect {step : Scanner τ ε (Option α)} {step' : Scanner τ ε (Option α)} {error : ε}
    (herror : short error) {stop : List τ → Prop}
    (hstep : Cut short (fun value left => value.isSome ∧ stop left) step step')
    (hstop : ∀ left, stop left → Fails short step' left) (fuel fuel' : ℕ) :
    Cut short nowhere (collect step error fuel) (collect step' error fuel') := by
  induction fuel generalizing fuel' with
  | zero => exact cut_fail error
  | succ fuel ih =>
      cases fuel' with
      | zero => exact fun first _ _ _ _ => .inl (.inl ⟨error, rfl, herror⟩)
      | succ fuel' =>
          refine hstep.bind (fun value => ?_) fun value left hstuck => ?_
          · cases value with
            | none => exact cut_pure []
            | some value => exact (ih fuel').then fun values => cut_pure _
          · -- a step that has been cut goes on to the next one, which fails
            obtain ⟨hsome, hleft⟩ := hstuck
            cases value with
            | none => cases hsome
            | some value =>
                refine .inl (Fails.bind ?_)
                cases fuel' with
                | zero => exact ⟨error, rfl, herror⟩
                | succ fuel' => exact (hstop left hleft).bind

theorem cut_collectAll {step step' : Scanner τ ε (Option α)} {error : ε} (herror : short error)
    {stop : List τ → Prop}
    (hstep : Cut short (fun value left => value.isSome ∧ stop left) step step')
    (hstop : ∀ left, stop left → Fails short step' left) :
    Cut short nowhere (collectAll step error) (collectAll step' error) := fun first more =>
  cut_collect herror hstep hstop _ _ first more

end Cut

/-! ## A text that is read to its end -/

/-- The scanner reads the text as this value, whatever comes after it that `stops` allows. -/
def Reads (stops : List τ → Prop) (scanner : Scanner τ ε α) (text : List τ) (value : α) : Prop :=
  ∀ rest, stops rest → scanner (text ++ rest) = .ok (value, rest)

section Reads

variable {stops stops' : List τ → Prop} {scanner : Scanner τ ε α} {next : α → Scanner τ ε β}
  {text text' : List τ} {first : α} {value : β}

theorem reads_pure (value : α) : Reads stops (pure value : Scanner τ ε α) [] value :=
  fun _ _ => rfl

theorem Reads.bind (h : Reads stops' scanner text first)
    (hnext : Reads stops (next first) text' value)
    (hstops : ∀ rest, stops rest → stops' (text' ++ rest)) :
    Reads stops (scanner.bind next) (text ++ text') value := by
  intro rest hrest
  have hfirst : scanner (text ++ (text' ++ rest)) = .ok (first, text' ++ rest) :=
    h _ (hstops rest hrest)
  rw [List.append_assoc, Scanner.bind, hfirst]
  exact hnext rest hrest

/-- What comes next reads nothing more. -/
theorem Reads.bind_nil (h : Reads stops scanner text first)
    (hnext : Reads stops (next first) [] value) :
    Reads stops (scanner.bind next) text value := by
  have hbind : Reads stops (scanner.bind next) (text ++ []) value :=
    h.bind hnext fun _ hrest => hrest
  rwa [List.append_nil] at hbind

theorem Reads.map (h : Reads stops scanner text first) (f : α → β) :
    Reads stops (scanner.bind fun value => pure (f value)) text (f first) :=
  h.bind_nil (reads_pure (f first))

theorem Reads.mono (h : Reads stops' scanner text first) (himp : ∀ rest, stops rest → stops' rest) :
    Reads stops scanner text first := fun rest hrest => h rest (himp rest hrest)

theorem reads_token {error : ε} (next : τ) : Reads stops (token error) [next] next := fun _ _ => rfl

/-- A run of tokens ends where the next one does not belong to it. -/
theorem reads_takeWhile {p : τ → Bool} (htext : ∀ t ∈ text, p t = true)
    (hstops : ∀ rest, stops rest → ∀ t ∈ rest.head?, p t = false) :
    Reads stops (takeWhile p : Scanner τ ε (List τ)) text text := by
  intro rest hrest
  have hnone : rest.takeWhile p = [] ∧ rest.dropWhile p = rest := by
    cases rest with
    | nil => exact ⟨rfl, rfl⟩
    | cons t rest =>
        have ht : p t = false := hstops _ hrest t rfl
        simp [ht]
  rw [takeWhile, List.takeWhile_append_of_pos htext, List.dropWhile_append_of_pos htext, hnone.1,
    hnone.2, List.append_nil]

end Reads

/-- The loop reads the text as these values and goes on. -/
def Collects (stops : List τ → Prop) (step : Scanner τ ε (Option α)) (error : ε) (text : List τ)
    (values : List α) : Prop :=
  ∀ rest, stops rest → collectAll step error (text ++ rest) =
    (collectAll step error rest).map fun result => (values ++ result.1, result.2)

section Collects

variable {stops : List τ → Prop} {step : Scanner τ ε (Option α)} {error : ε} {text text' : List τ}
  {values values' : List α}

theorem collects_nil : Collects stops step error [] ([] : List α) := by
  intro rest _
  rw [List.nil_append]
  cases collectAll step error rest <;> rfl

theorem Collects.append (h : Collects stops step error text values)
    (h' : Collects stops step error text' values')
    (hstops : ∀ rest, stops rest → stops (text' ++ rest)) :
    Collects stops step error (text ++ text') (values ++ values') := by
  intro rest hrest
  rw [List.append_assoc, h _ (hstops rest hrest), h' rest hrest]
  cases collectAll step error rest with
  | error exc => rfl
  | ok result => simp [Except.map]

theorem Collects.flatMap {β : Type} {list : List β} {texts : β → List τ} {valuesOf : β → List α}
    (h : ∀ x ∈ list, Collects stops step error (texts x) (valuesOf x))
    (hstops : ∀ x ∈ list, ∀ rest, stops rest → stops (texts x ++ rest)) :
    Collects stops step error (list.flatMap texts) (list.flatMap valuesOf) := by
  induction list with
  | nil => exact collects_nil
  | cons x list ih =>
      have hrest : Collects stops step error (list.flatMap texts) (list.flatMap valuesOf) :=
        ih (fun y hy => h y (List.mem_cons_of_mem _ hy)) fun y hy =>
          hstops y (List.mem_cons_of_mem _ hy)
      have hkept : ∀ rest, stops rest → stops (list.flatMap texts ++ rest) := by
        intro rest hstop
        clear ih h hrest
        induction list with
        | nil => exact hstop
        | cons y list ih =>
            rw [List.flatMap_cons, List.append_assoc]
            refine hstops y (by simp) _ (ih fun z hz => hstops z ?_)
            rcases List.mem_cons.mp hz with rfl | hz
            · exact List.mem_cons_self
            · exact List.mem_cons_of_mem _ (List.mem_cons_of_mem _ hz)
      exact (h x List.mem_cons_self).append hrest hkept

/-- One round of the loop. -/
theorem collects_step (hstep : Shrinks step) {value : α} (h : Reads stops step text (some value)) :
    Collects stops step error text [value] := by
  intro rest hrest
  have hread : step (text ++ rest) = .ok (some value, rest) := h rest hrest
  have hshort : rest.length < (text ++ rest).length := hstep _ _ _ hread
  rw [collectAll, collect, Scanner.bind, hread]
  simp only [Scanner.bind, collect_eq hstep hshort]
  cases collectAll step error rest <;> rfl

/-- The last round. -/
theorem Collects.reads (h : Collects stops step error text values) {stops' : List τ → Prop}
    {close : List τ} (hclose : Reads stops' step close none)
    (hstops : ∀ rest, stops' rest → stops (close ++ rest)) :
    Reads stops' (collectAll step error) (text ++ close) values := by
  intro rest hrest
  have hlast : collectAll step error (close ++ rest) = .ok ([], rest) := by
    rw [collectAll, collect, Scanner.bind, hclose rest hrest]
    rfl
  rw [List.append_assoc, h _ (hstops rest hrest), hlast]
  simp [Except.map]

end Collects

end Scanner
