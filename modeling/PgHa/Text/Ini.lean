import Mathlib.Data.List.DropRight
import Mathlib.Data.List.Nodup
import Mathlib.Tactic.Common

/-!
# Configuration files of sections and options

The reader of the standard library of Python for files like

    [section]
    key = value   # comment

as its documentation and its code have it: comments, values that go on in lines
with a deeper indentation, a section whose options are the defaults of all the
others, and references to other options in a value.  What counts as white space,
what begins a comment, what ends a key and how a key is put in lower case are a
`Dialect`.

`commentAt_eq_none_iff` says which lines have no comment, and `content_of_quiet` what is
left of one.
-/

namespace Ini

abbrev Text := List Char

structure Dialect where
  space : Char → Bool
  /-- What begins a comment, at the start of a line or after white space. -/
  prefixes : List Char
  /-- What stands between a key and its value. -/
  delimiters : List Char
  lower : Text → Text

/-- The exceptions of the reader. -/
inductive Fault
  | missingSectionHeader
  | duplicateSection
  | duplicateOption
  | parsing
  | interpolationSyntax
  | interpolationMissingOption
  | interpolationDepth
  deriving DecidableEq, Repr

/-- The section whose options are the defaults of all the others. -/
def defaultSection : Text := "DEFAULT".toList

namespace Dialect

variable (d : Dialect)

/-! ## Lines -/

def trimRight (text : Text) : Text := text.rdropWhile d.space

def trim (text : Text) : Text := d.trimRight (text.dropWhile d.space)

/-- A prefix of a comment begins one at this place of the line. -/
def opensAt (text : Text) (i : ℕ) : Bool := i == 0 || text[i - 1]?.any d.space

/-- The places of a character in a line, from left to right. -/
def places (text : Text) (c : Char) : List ℕ :=
  (List.range text.length).filter fun i => text[i]? == some c

/-- The comments that round `n` of the search finds: it looks at the `n`-th place of each of the
prefixes. -/
def round (line : Text) (n : ℕ) : List ℕ :=
  (d.prefixes.filterMap fun c => (places line c)[n]?).filter (d.opensAt line)

/-- Where the comment after a value begins.  The first round that finds one decides, also when
a later round would find one further to the left. -/
def commentAt (line : Text) : Option ℕ :=
  (List.range line.length).findSome? fun n => (d.round line n).min?

/-- What is left of a line, and whether there was a comment in it. -/
structure Content where
  text : Text
  commented : Bool

def content (line : Text) : Content :=
  let start := if (d.trim line).head?.any (· ∈ d.prefixes) then some 0 else d.commentAt line
  ⟨d.trim (line.take (start.getD line.length)), start.isSome⟩

def indentOf (line : Text) : ℕ := (line.takeWhile d.space).length

/-- The name in a header, which goes on to the last closing bracket of the line. -/
def header? : Text → Option Text
  | '[' :: rest =>
      let name := (rest.rdropWhile (· != ']')).dropLast
      if name ≠ [] then some name else none
  | _ => none

/-- The key and the value of an option. -/
def option? (text : Text) : Option (Text × Text) :=
  match text.dropWhile (· ∉ d.delimiters) with
  | [] => none
  | _ :: value => some (d.trimRight (text.takeWhile (· ∉ d.delimiters)), d.trim value)

/-! ## Files -/

/-- Where the reader is.  `key` is empty before the first option of a section, and the lines of a
value are kept apart until the end of the file. -/
structure State where
  sections : List Text := []
  values : List ((Text × Text) × List Text) := []
  current : Option Text := none
  key : Text := []
  indent : ℕ := 0
  bogus : Bool := false

/-- Go on with the value of the current option. -/
def State.extend (s : State) (line : Text) : State :=
  match s.current with
  | some name =>
      if s.key ≠ [] then
        { s with values := s.values.map fun entry =>
            if entry.1 = (name, s.key) then (entry.1, entry.2 ++ [line]) else entry }
      else s
  | none => s

def openSection (s : State) (name : Text) : Except Fault State :=
  if name ∈ s.sections then .error .duplicateSection
  else
    .ok
      { s with
        sections := if name = defaultSection then s.sections else s.sections ++ [name]
        current := some name
        key := [] }

/-- A line without a key is noted, and an error at the end of the file. -/
def addOption (s : State) (name key value : Text) : Except Fault State :=
  if (name, d.lower key) ∈ s.values.map (·.1) then .error .duplicateOption
  else
    .ok
      { s with
        values := s.values ++ [((name, d.lower key), [value])]
        key := d.lower key
        bogus := s.bogus || key.isEmpty }

/-- A line that is not a continuation. -/
def readEntry (s : State) (text : Text) : Except Fault State :=
  match header? text with
  | some name => openSection s name
  | none =>
      match s.current with
      | none => .error .missingSectionHeader
      | some name =>
          match d.option? text with
          | some (key, value) => d.addOption s name key value
          | none => .ok { s with bogus := true }

def readLine (s : State) (line : Text) : Except Fault State :=
  let content := d.content line
  if content.text = [] then
    .ok (if content.commented then s else s.extend [])
  else if s.current.isSome ∧ s.key ≠ [] ∧ s.indent < d.indentOf line then
    .ok (s.extend content.text)
  else
    d.readEntry { s with indent := d.indentOf line } content.text

/-- The value whose lines these are. -/
def joinLines (lines : List Text) : Text := d.trimRight (['\n'].intercalate lines)

/-- What a file holds. -/
structure File where
  sections : List Text
  values : List ((Text × Text) × Text)
  deriving DecidableEq

def finish (s : State) : Except Fault File :=
  if s.bogus then .error .parsing
  else .ok ⟨s.sections, s.values.map fun entry => (entry.1, d.joinLines entry.2)⟩

def read (lines : List Text) : Except Fault File := do
  let s ← lines.foldlM d.readLine {}
  d.finish s

/-! ## Values -/

def File.lookup (file : File) (key : Text × Text) : Option Text :=
  (file.values.find? (·.1 = key)).map (·.2)

/-- The value of a key in lower case, the defaults included. -/
def File.entry (file : File) (name key : Text) : Option Text :=
  if name ∈ file.sections ∨ name = defaultSection then
    (file.lookup (name, key)).or (file.lookup (defaultSection, key))
  else none

/-- Replace the references in a text; `nested` is what happens to those in the values that are put
in.  The fuel is the length of the text. -/
def expandWith (nested : Text → Except Fault Text) (find : Text → Option Text) :
    ℕ → Text → Except Fault Text
  | _, [] => .ok []
  | 0, _ :: _ => .ok []
  | fuel + 1, c :: rest =>
      if c ≠ '%' then (expandWith nested find fuel rest).map (c :: ·)
      else
        match rest with
        | '%' :: rest => (expandWith nested find fuel rest).map ('%' :: ·)
        | '(' :: rest =>
            match rest.takeWhile (· != ')'), rest.dropWhile (· != ')') with
            | name@(_ :: _), ')' :: 's' :: rest =>
                match find (d.lower name) with
                | none => .error .interpolationMissingOption
                | some value => do
                    let first ← if '%' ∈ value then nested value else .ok value
                    let second ← expandWith nested find fuel rest
                    pure (first ++ second)
            | _, _ => .error .interpolationSyntax
        | _ => .error .interpolationSyntax

/-- Replace the references in a text, down to the given depth. -/
def expand (find : Text → Option Text) : ℕ → Text → Except Fault Text
  | 0, _ => .error .interpolationDepth
  | depth + 1, text => d.expandWith (expand find depth) find text.length text

def maxDepth : ℕ := 10

/-- `get(section, key, fallback=…)`: none stands for the fallback. -/
def File.get (file : File) (name key : Text) : Except Fault (Option Text) :=
  match file.entry name (d.lower key) with
  | none => .ok none
  | some value => (d.expand (file.entry name) maxDepth value).map some

variable {d} {line text : Text}

/-! ## Trimming -/

theorem trim_eq_nil_of_forall (h : ∀ c ∈ text, d.space c = true) : d.trim text = [] := by
  rw [trim, List.dropWhile_eq_nil_iff.mpr h, trimRight, List.rdropWhile_nil]

theorem trim_cons (c : Char) (h : d.space c = true) : d.trim (c :: text) = d.trim text := by
  rw [trim, List.dropWhile_cons_of_pos h, trim]

theorem trim_space_append {gap : Text} (h : ∀ c ∈ gap, d.space c = true) :
    d.trim (gap ++ text) = d.trim text := by
  induction gap with
  | nil => rfl
  | cons c gap ih =>
      rw [List.cons_append, trim_cons c (h c List.mem_cons_self)]
      exact ih fun c hc => h c (List.mem_cons_of_mem _ hc)

theorem trimRight_append_space {gap : Text} (h : ∀ c ∈ gap, d.space c = true) :
    d.trimRight (text ++ gap) = d.trimRight text := by
  induction gap using List.reverseRecOn with
  | nil => rw [List.append_nil]
  | append_singleton gap c ih =>
      rw [← List.append_assoc, trimRight, List.rdropWhile_concat_pos _ _ _ (h c (by simp))]
      exact ih fun c hc => h c (List.mem_append_left _ hc)

theorem length_trim_le : (d.trim text).length ≤ text.length := by
  have hright : (d.trim text).length ≤ (text.dropWhile d.space).length :=
    (List.rdropWhile_prefix d.space _).length_le
  exact le_trans hright (List.dropWhile_suffix d.space).length_le

/-! ## Comments -/

theorem mem_places {c : Char} {i : ℕ} : i ∈ places text c ↔ text[i]? = some c := by
  unfold places
  rw [List.mem_filter, List.mem_range, beq_iff_eq]
  constructor
  · exact fun h => h.2
  · intro h
    exact ⟨(List.getElem?_eq_some_iff.mp h).1, h⟩

theorem length_places_le (c : Char) : (places text c).length ≤ text.length := by
  have hle := List.length_filter_le (fun i => text[i]? == some c) (List.range text.length)
  rwa [List.length_range] at hle

/-- A comment begins at this place of the line. -/
def Comment (d : Dialect) (text : Text) (i : ℕ) : Prop :=
  (∃ c ∈ d.prefixes, text[i]? = some c) ∧ d.opensAt text i = true

theorem comment_of_mem_round {n i : ℕ} (h : i ∈ d.round line n) : d.Comment line i := by
  rw [round, List.mem_filter, List.mem_filterMap] at h
  obtain ⟨⟨c, hc, hi⟩, hopens⟩ := h
  have hplace : i ∈ places line c := List.mem_of_getElem? hi
  exact ⟨⟨c, hc, mem_places.mp hplace⟩, hopens⟩

theorem exists_round_of_comment {i : ℕ} (h : d.Comment line i) :
    ∃ n < line.length, i ∈ d.round line n := by
  obtain ⟨⟨c, hc, hi⟩, hopens⟩ := h
  obtain ⟨n, hn, hget⟩ := List.getElem_of_mem (mem_places.mpr hi)
  refine ⟨n, lt_of_lt_of_le hn (length_places_le c), ?_⟩
  rw [round, List.mem_filter, List.mem_filterMap]
  exact ⟨⟨c, hc, by rw [List.getElem?_eq_getElem hn, hget]⟩, hopens⟩

/-- The search finds a comment if there is one. -/
theorem commentAt_eq_none_iff : d.commentAt line = none ↔ ∀ i, ¬ d.Comment line i := by
  unfold commentAt
  rw [List.findSome?_eq_none_iff]
  simp only [List.mem_range, List.min?_eq_none_iff]
  constructor
  · intro h i hcomment
    obtain ⟨n, hn, hmem⟩ := exists_round_of_comment hcomment
    rw [h n hn] at hmem
    exact List.not_mem_nil hmem
  · intro h n _
    by_contra hround
    obtain ⟨i, hi⟩ := List.exists_mem_of_ne_nil _ hround
    exact h i (comment_of_mem_round hi)

/-- What the search finds is a comment. -/
theorem comment_of_commentAt {i : ℕ} (h : d.commentAt line = some i) : d.Comment line i := by
  obtain ⟨n, -, hmin⟩ := List.exists_of_findSome?_eq_some h
  exact comment_of_mem_round (List.min?_mem hmin)

/-- The characters with a meaning of their own are no white space, and do not stand for one
another. -/
structure Regular (d : Dialect) : Prop where
  blank : d.space ' ' = true
  newline : d.space '\n' = true
  prefixes : ∀ c ∈ d.prefixes, d.space c = false
  delimiters : ∀ c ∈ d.delimiters, d.space c = false ∧ c ∉ d.prefixes
  opening : d.space '[' = false ∧ '[' ∉ d.prefixes
  closing : d.space ']' = false ∧ ']' ∉ d.prefixes

theorem opensAt_append {front rest : Text} {c : Char}
    (hspace : ∀ b ∈ front.getLast?, d.space b = true) :
    d.opensAt (front ++ c :: rest) front.length = true := by
  rw [opensAt, Bool.or_eq_true, beq_iff_eq]
  rcases List.eq_nil_or_concat front with rfl | ⟨front, last, rfl⟩
  · exact .inl rfl
  · right
    rw [List.getElem?_append_left (by simp)]
    simpa using hspace last (by simp)

theorem commentLine_comment {c : Char} (hc : c ∈ d.prefixes) (h : (d.trim line).head? = some c) :
    ∃ i, d.Comment line i := by
  obtain ⟨rest, hdrop⟩ : ∃ rest, line.dropWhile d.space = c :: rest := by
    obtain ⟨rest, hrest⟩ : d.trim line <+: line.dropWhile d.space :=
      List.rdropWhile_prefix d.space _
    obtain ⟨more, hmore⟩ := List.head?_eq_some_iff.mp h
    exact ⟨more ++ rest, by rw [← hrest, hmore, List.cons_append]⟩
  have hline : line = line.takeWhile d.space ++ c :: rest := by
    rw [← hdrop, List.takeWhile_append_dropWhile]
  have hspace : ∀ b ∈ (line.takeWhile d.space).getLast?, d.space b = true :=
    fun b hb => List.mem_takeWhile_imp (List.mem_of_getLast? hb)
  generalize line.takeWhile d.space = indent at hline hspace
  subst hline
  exact ⟨indent.length, ⟨c, hc, by simp⟩, opensAt_append hspace⟩

/-- A line without a comment is kept as it is. -/
theorem content_of_quiet (h : ∀ i, ¬ d.Comment line i) : d.content line = ⟨d.trim line, false⟩ := by
  have hhead : (d.trim line).head?.any (· ∈ d.prefixes) = false := by
    rw [Option.any_eq_false]
    intro c hc
    rw [decide_eq_false_iff_not]
    intro hmem
    obtain ⟨i, hi⟩ := commentLine_comment hmem hc
    exact h i hi
  simp only [content, hhead, Bool.false_eq_true, if_false, commentAt_eq_none_iff.mpr h,
    Option.getD_none, List.take_length, Option.isSome_none]

end Dialect

end Ini
