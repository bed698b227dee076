import PgHa.Text.Ini

/-!
# What is read back from a configuration file

`Lays` relates a document to the ways to write it down, with blank lines and
comments wherever one likes; `read_of_lays` reads the document back from each
of them.  `render` writes any values down, and `read_render` says what is kept of
them: a value comes back as it was exactly when it is `Plain` (`kept_eq_iff`).  A
value with doubled percent signs is taken literally (`expand_quote`).
-/

namespace Ini

/-- The sections of a file, with the options of each. -/
abbrev Document := List (Text × List (Text × Text))

/-- What a line can hold. -/
inductive Item
  | header (name : Text)
  | option (key value : Text)

def Document.items (doc : Document) : List Item :=
  doc.flatMap fun part => .header part.1 :: part.2.map fun entry => .option entry.1 entry.2

def Document.file (doc : Document) : Dialect.File where
  sections := doc.map (·.1)
  values := doc.flatMap fun part => part.2.map fun entry => ((part.1, entry.1), entry.2)

/-- The document with other values. -/
def Document.mapValues (f : Text → Text) (doc : Document) : Document :=
  doc.map fun part => (part.1, part.2.map fun entry => (entry.1, f entry.2))

namespace Dialect

variable (d : Dialect)

/-- A key that is read back as it is. -/
structure IsKey (key : Text) : Prop where
  nonempty : key ≠ []
  delimiters : ∀ c ∈ key, c ∉ d.delimiters
  bracket : key.head? ≠ some '['
  trimmed : d.trim key = key
  lower : d.lower key = key

structure IsName (name : Text) : Prop where
  nonempty : name ≠ []
  notDefault : name ≠ defaultSection

/-- A document that has a place for everything in it. -/
structure WellFormed (doc : Document) : Prop where
  names : (doc.map (·.1)).Nodup
  name : ∀ part ∈ doc, IsName part.1
  keys : ∀ part ∈ doc, (part.2.map (·.1)).Nodup
  key : ∀ part ∈ doc, ∀ entry ∈ part.2, d.IsKey entry.1
  value : ∀ part ∈ doc, ∀ entry ∈ part.2, d.trim entry.2 = entry.2

/-- What has to be left of a line that holds the item. -/
inductive Writes : Item → Text → Prop
  | header (name : Text) {rest : Text} (hrest : ']' ∉ rest) :
      Writes (.header name) ('[' :: (name ++ ']' :: rest))
  | option {key value gap gap' : Text} {c : Char} (hgap : ∀ b ∈ gap, d.space b = true)
      (hgap' : ∀ b ∈ gap', d.space b = true) (hc : c ∈ d.delimiters) :
      Writes (.option key value) (key ++ gap ++ c :: (gap' ++ value))

/-- The lines hold the items in this order, each on a line that is not indented, and lines that
are blank or a comment stand anywhere between them. -/
inductive Lays : List Item → List Text → Prop
  | nil : Lays [] []
  | noise {items : List Item} {lines : List Text} {line : Text}
      (hline : (d.content line).text = []) (hrest : Lays items lines) : Lays items (line :: lines)
  | item {item : Item} {items : List Item} {lines : List Text} {line : Text}
      (hindent : d.indentOf line = 0) (hline : d.Writes item (d.content line).text)
      (hrest : Lays items lines) : Lays (item :: items) (line :: lines)

variable {d}

/-! ## Reading a document back -/

theorem trimRight_of_trim {text : Text} (h : d.trim text = text) : d.trimRight text = text := by
  have htwice : d.trimRight (d.trim text) = d.trim text :=
    List.rdropWhile_idempotent d.space (text.dropWhile d.space)
  rwa [h] at htwice

theorem intercalate_concat_nil (first : Text) (rest : List Text) :
    ['\n'].intercalate (first :: (rest ++ [[]])) =
      ['\n'].intercalate (first :: rest) ++ ['\n'] := by
  induction rest generalizing first with
  | nil => simp
  | cons next rest ih =>
      rw [List.cons_append, List.intercalate_cons_cons, List.intercalate_cons_cons, ih]
      simp

theorem joinLines_concat_nil (hnewline : d.space '\n' = true) (lines : List Text) :
    d.joinLines (lines ++ [[]]) = d.joinLines lines := by
  unfold joinLines
  cases lines with
  | nil => rfl
  | cons first rest =>
      rw [List.cons_append, intercalate_concat_nil,
        trimRight_append_space (by simpa using hnewline)]

theorem joinLines_singleton {text : Text} (h : d.trim text = text) : d.joinLines [text] = text := by
  have hjoin : ['\n'].intercalate [text] = text := by simp
  rw [joinLines, hjoin, trimRight_of_trim h]

/-- The values so far. -/
def State.joined (d : Dialect) (s : State) : List ((Text × Text) × Text) :=
  s.values.map fun entry => (entry.1, d.joinLines entry.2)

/-- A blank line at the end of a value is not part of it. -/
theorem joined_extend_nil (hnewline : d.space '\n' = true) (s : State) :
    (s.extend []).joined d = s.joined d := by
  unfold State.extend
  split
  · split
    · simp only [State.joined, List.map_map]
      refine List.map_congr_left fun entry _ => ?_
      simp only [Function.comp_apply]
      split
      · rw [joinLines_concat_nil hnewline]
      · rfl
    · rfl
  · rfl

theorem header?_writes {name rest : Text} (h : IsName name) (hrest : ']' ∉ rest) :
    header? ('[' :: (name ++ ']' :: rest)) = some name := by
  have hlast : (name ++ ']' :: rest).rdropWhile (· != ']') = name ++ [']'] := by
    have hfree : ∀ c ∈ rest.reverse, (c != ']') = true := by
      intro c hc
      simpa using fun heq : c = ']' => hrest (heq ▸ List.mem_reverse.mp hc)
    rw [List.rdropWhile, List.reverse_append, List.reverse_cons, List.append_assoc,
      List.dropWhile_append_of_pos hfree]
    simp
  simp only [header?, hlast, List.dropLast_concat]
  rw [if_pos h.nonempty]

theorem option?_writes (hregular : d.Regular) {key value gap gap' : Text} {c : Char}
    (hkey : d.IsKey key) (hvalue : d.trim value = value) (hgap : ∀ b ∈ gap, d.space b = true)
    (hgap' : ∀ b ∈ gap', d.space b = true) (hc : c ∈ d.delimiters) :
    d.option? (key ++ gap ++ c :: (gap' ++ value)) = some (key, value) := by
  have hfront : ∀ b ∈ key ++ gap, decide (b ∉ d.delimiters) = true := by
    intro b hb
    rw [decide_eq_true_eq]
    rcases List.mem_append.mp hb with hb | hb
    · exact hkey.delimiters b hb
    · intro hdelim
      exact absurd (hgap b hb) (by simp [(hregular.delimiters b hdelim).1])
  have hright : d.trimRight (key ++ gap) = key := by
    rw [trimRight_append_space hgap, trimRight_of_trim hkey.trimmed]
  unfold option?
  rw [List.dropWhile_append_of_pos hfront, List.takeWhile_append_of_pos hfront,
    List.dropWhile_cons_of_neg (by simpa using hc), List.takeWhile_cons_of_neg (by simpa using hc),
    List.append_nil, hright]
  simp only [trim_space_append hgap', hvalue]

/-- The headers among the items, and the options with the sections that they belong to. -/
def headers : List Item → List Text
  | [] => []
  | .header name :: rest => name :: headers rest
  | .option .. :: rest => headers rest

def entries : Option Text → List Item → List ((Text × Text) × Text)
  | _, [] => []
  | _, .header name :: rest => entries (some name) rest
  | some name, .option key value :: rest => ((name, key), value) :: entries (some name) rest
  | none, .option .. :: rest => entries none rest

/-- The items that a reader in this state can still take. -/
structure Fits (d : Dialect) (s : State) (items : List Item) : Prop where
  names : (s.sections ++ headers items).Nodup
  keys : ((s.joined d ++ entries s.current items).map (·.1)).Nodup
  name : ∀ name, .header name ∈ items → IsName name
  key : ∀ key value, .option key value ∈ items → d.IsKey key ∧ d.trim value = value
  current : s.current = none → ∀ key value rest, items ≠ .option key value :: rest
  indent : s.indent = 0
  bogus : s.bogus = false

/-- What the reader knows after the items. -/
structure Took (d : Dialect) (s : State) (items : List Item) (s' : State) : Prop where
  sections : s'.sections = s.sections ++ headers items
  values : s'.joined d = s.joined d ++ entries s.current items
  bogus : s'.bogus = false

/-- A line with nothing on it changes nothing that counts. -/
theorem readLine_noise (hnewline : d.space '\n' = true) {s : State} {line : Text}
    (hline : (d.content line).text = []) : ∃ s', d.readLine s line = .ok s' ∧
      s'.joined d = s.joined d ∧ s'.sections = s.sections ∧ s'.current = s.current ∧
      s'.indent = s.indent ∧ s'.bogus = s.bogus := by
  unfold readLine
  simp only [hline, if_true]
  by_cases hcommented : (d.content line).commented = true
  · rw [if_pos hcommented]
    exact ⟨s, rfl, rfl, rfl, rfl, rfl, rfl⟩
  · rw [if_neg hcommented]
    refine ⟨_, rfl, joined_extend_nil hnewline s, ?_⟩
    unfold State.extend
    split
    · split <;> exact ⟨rfl, rfl, rfl, rfl⟩
    · exact ⟨rfl, rfl, rfl, rfl⟩

theorem content_ne_nil {item : Item} {text : Text} (h : d.Writes item text) : text ≠ [] := by
  cases h <;> simp

theorem readLine_entry {s : State} {line : Text} {item : Item} (hindent : d.indentOf line = 0)
    (hline : d.Writes item (d.content line).text) (hs : s.indent = 0) :
    d.readLine s line = d.readEntry s (d.content line).text := by
  unfold readLine
  simp only [content_ne_nil hline, if_false, hindent, hs, Nat.lt_irrefl, and_false]
  rw [← hs]

theorem readLine_header {s : State} {line name : Text} {rest : List Item}
    (hindent : d.indentOf line = 0) (hline : d.Writes (.header name) (d.content line).text)
    (hfits : d.Fits s (.header name :: rest)) : ∃ s', d.readLine s line = .ok s' ∧
      s'.sections = s.sections ++ [name] ∧ s'.joined d = s.joined d ∧ s'.current = some name ∧
      s'.indent = 0 ∧ s'.bogus = false := by
  have hname : IsName name := hfits.name name List.mem_cons_self
  have hnew : name ∉ s.sections := by
    have hnames := hfits.names
    rw [headers, List.nodup_append] at hnames
    intro hmem
    exact hnames.2.2 name hmem name List.mem_cons_self rfl
  rw [readLine_entry hindent hline hfits.indent]
  generalize (d.content line).text = text at hline
  cases hline with
  | header _ hrest =>
      refine ⟨{ s with sections := s.sections ++ [name], current := some name, key := [] }, ?_,
        rfl, rfl, rfl, hfits.indent, hfits.bogus⟩
      simp only [readEntry, header?_writes hname hrest, openSection, if_neg hnew,
        if_neg hname.notDefault]

theorem readLine_option (hregular : d.Regular) {s : State} {line key value : Text}
    {rest : List Item} (hindent : d.indentOf line = 0)
    (hline : d.Writes (.option key value) (d.content line).text)
    (hfits : d.Fits s (.option key value :: rest)) : ∃ s' name, s.current = some name ∧
      d.readLine s line = .ok s' ∧ s'.sections = s.sections ∧
      s'.joined d = s.joined d ++ [((name, key), value)] ∧ s'.current = some name ∧
      s'.indent = 0 ∧ s'.bogus = false := by
  obtain ⟨hkey, hvalue⟩ := hfits.key key value List.mem_cons_self
  obtain ⟨name, hcurrent⟩ : ∃ name, s.current = some name := by
    cases hcurrent : s.current with
    | none => exact absurd rfl (hfits.current hcurrent key value rest)
    | some name => exact ⟨name, rfl⟩
  have hnew : (name, key) ∉ s.values.map (·.1) := by
    have hkeys := hfits.keys
    rw [hcurrent, entries, List.map_append, List.nodup_append] at hkeys
    intro hmem
    refine hkeys.2.2 (name, key) ?_ (name, key) (by simp) rfl
    simpa [State.joined] using hmem
  have hempty : key.isEmpty = false := by simpa using hkey.nonempty
  rw [readLine_entry hindent hline hfits.indent]
  generalize (d.content line).text = text at hline
  cases hline with
  | option hgap hgap' hc =>
      rename_i gap gap' c
      -- a key does not open with a bracket, so this is no header
      have hheader : header? (key ++ gap ++ c :: (gap' ++ value)) = none := by
        obtain ⟨first, others, rfl⟩ := List.exists_cons_of_ne_nil hkey.nonempty
        have hfirst : first ≠ '[' := by simpa using hkey.bracket
        simp only [List.cons_append, header?]
        split
        · rename_i heq
          exact absurd (List.cons.inj heq).1 hfirst
        · rfl
      refine ⟨{ s with
          values := s.values ++ [((name, key), [value])], key := key, bogus := false }, name,
        hcurrent, ?_, rfl, ?_, hcurrent, hfits.indent, rfl⟩
      · simp only [readEntry, hheader, hcurrent, option?_writes hregular hkey hvalue hgap hgap' hc,
          addOption, hkey.lower, if_neg hnew, hfits.bogus, hempty, Bool.or_self]
      · simp [State.joined, joinLines_singleton hvalue]

/-- **Every way to write a document down is read alike.**  By induction on the lines: a line
without an item changes nothing that counts, and the items find their place. -/
theorem foldlM_of_lays (hregular : d.Regular) {items : List Item} {lines : List Text}
    (hlays : d.Lays items lines) {s : State} (hfits : d.Fits s items) :
    ∃ s', lines.foldlM d.readLine s = .ok s' ∧ d.Took s items s' := by
  -- line by line; each lemma about a line says that the state fits the rest
  induction hlays generalizing s with
  | nil => exact ⟨s, rfl, by simp [headers], by simp [entries], hfits.bogus⟩
  | noise hline _ ih =>
      obtain ⟨s₁, hread, hjoined, hsections, hcurrent, hindent, hbogus⟩ :=
        readLine_noise hregular.newline (s := s) hline
      have hfits₁ : d.Fits s₁ _ :=
        ⟨by rw [hsections]; exact hfits.names, by rw [hjoined, hcurrent]; exact hfits.keys,
          hfits.name, hfits.key, by rw [hcurrent]; exact hfits.current,
          hindent.trans hfits.indent, hbogus.trans hfits.bogus⟩
      obtain ⟨s₂, hrest, htook⟩ := ih hfits₁
      refine ⟨s₂, ?_, by rw [htook.sections, hsections],
        by rw [htook.values, hjoined, hcurrent], htook.bogus⟩
      rw [List.foldlM_cons, hread]
      exact hrest
  | @item item items lines line hindent hline hrest ih =>
      cases item with
      | header name =>
          obtain ⟨s₁, hread, hsections, hjoined, hcurrent, hindent₁, hbogus⟩ :=
            readLine_header hindent hline hfits
          have hfits₁ : d.Fits s₁ items := by
            refine ⟨?_, ?_, fun name hmem => hfits.name name (List.mem_cons_of_mem _ hmem),
              fun key value hmem => hfits.key key value (List.mem_cons_of_mem _ hmem), ?_,
              hindent₁, hbogus⟩
            · rw [hsections, List.append_assoc]
              exact hfits.names
            · rw [hjoined, hcurrent]
              exact hfits.keys
            · simp [hcurrent]
          obtain ⟨s₂, hread₂, htook⟩ := ih hfits₁
          refine ⟨s₂, ?_, ?_, ?_, htook.bogus⟩
          · rw [List.foldlM_cons, hread]
            exact hread₂
          · rw [htook.sections, hsections, List.append_assoc]
            rfl
          · rw [htook.values, hjoined, hcurrent, entries]
      | option key value =>
          obtain ⟨s₁, name, hbefore, hread, hsections, hjoined, hcurrent, hindent₁, hbogus⟩ :=
            readLine_option hregular hindent hline hfits
          have hvalues : s₁.joined d ++ entries (some name) items =
              s.joined d ++ entries s.current (.option key value :: items) := by
            rw [hjoined, hbefore, List.append_assoc]
            rfl
          have hfits₁ : d.Fits s₁ items := by
            refine ⟨by rw [hsections]; exact hfits.names, ?_,
              fun name hmem => hfits.name name (List.mem_cons_of_mem _ hmem),
              fun key value hmem => hfits.key key value (List.mem_cons_of_mem _ hmem), ?_,
              hindent₁, hbogus⟩
            · rw [hcurrent, hvalues]
              exact hfits.keys
            · simp [hcurrent]
          obtain ⟨s₂, hread₂, htook⟩ := ih hfits₁
          refine ⟨s₂, ?_, by rw [htook.sections, hsections]; rfl, ?_, htook.bogus⟩
          · rw [List.foldlM_cons, hread]
            exact hread₂
          · rw [htook.values, hcurrent, hvalues]

theorem headers_append (first second : List Item) :
    headers (first ++ second) = headers first ++ headers second := by
  induction first with
  | nil => rfl
  | cons item rest ih => cases item <;> simp [headers, ih]

theorem headers_options (options : List (Text × Text)) :
    headers (options.map fun entry => .option entry.1 entry.2) = [] := by
  induction options with
  | nil => rfl
  | cons entry rest ih => exact ih

theorem entries_options (name : Text) (options : List (Text × Text)) (rest : List Item) :
    entries (some name) ((options.map fun entry => .option entry.1 entry.2) ++ rest) =
      (options.map fun entry => ((name, entry.1), entry.2)) ++ entries (some name) rest := by
  induction options with
  | nil => rfl
  | cons entry options ih =>
      simp only [List.map_cons, List.cons_append, entries, ih]

theorem headers_items (doc : Document) : headers doc.items = doc.file.sections := by
  induction doc with
  | nil => rfl
  | cons part rest ih =>
      unfold Document.items at ih ⊢
      rw [List.flatMap_cons, List.cons_append, headers, headers_append, headers_options, ih]
      rfl

theorem entries_items (doc : Document) (name : Option Text) :
    entries name doc.items = doc.file.values := by
  induction doc generalizing name with
  | nil => cases name <;> rfl
  | cons part rest ih =>
      have hrest := ih (some part.1)
      unfold Document.items at hrest ⊢
      rw [List.flatMap_cons, List.cons_append]
      simp only [entries, entries_options, hrest]
      rfl

/-- No option is there twice. -/
theorem WellFormed.nodup_values {doc : Document} (h : d.WellFormed doc) :
    (doc.file.values.map (·.1)).Nodup := by
  have hkeys : doc.file.values.map (·.1) =
      doc.flatMap fun part => (part.2.map (·.1)).map fun key => (part.1, key) := by
    simp only [Document.file, List.map_flatMap, List.map_map]
    rfl
  rw [hkeys, List.nodup_flatMap]
  constructor
  · intro part hpart
    exact (h.keys part hpart).map fun key key' heq => (Prod.mk.inj heq).2
  · have hnames : doc.Pairwise fun part part' => part.1 ≠ part'.1 := List.pairwise_map.mp h.names
    refine hnames.imp fun hne => ?_
    simp only [Function.onFun, List.disjoint_left, List.mem_map]
    rintro key ⟨_, _, rfl⟩ ⟨_, _, heq⟩
    exact hne (Prod.mk.inj heq).1.symm

theorem read_of_lays (hregular : d.Regular) {doc : Document} (h : d.WellFormed doc)
    {lines : List Text} (hlays : d.Lays doc.items lines) : d.read lines = .ok doc.file := by
  have hmem : ∀ item ∈ doc.items, ∃ part ∈ doc, item = .header part.1 ∨
      ∃ entry ∈ part.2, item = .option entry.1 entry.2 := by
    intro item hitem
    obtain ⟨part, hpart, hin⟩ := List.mem_flatMap.mp hitem
    rcases List.mem_cons.mp hin with rfl | hin
    · exact ⟨part, hpart, .inl rfl⟩
    · obtain ⟨entry, hentry, rfl⟩ := List.mem_map.mp hin
      exact ⟨part, hpart, .inr ⟨entry, hentry, rfl⟩⟩
  -- the empty state fits a document that is well formed
  have hfits : d.Fits {} doc.items := by
    refine ⟨?_, ?_, ?_, ?_, ?_, rfl, rfl⟩
    · rw [headers_items]
      exact h.names
    · rw [entries_items]
      exact h.nodup_values
    · intro name hname
      obtain ⟨part, hpart, heq | ⟨entry, hentry, heq⟩⟩ := hmem _ hname
      · cases heq
        exact h.name part hpart
      · cases heq
    · intro key value hoption
      obtain ⟨part, hpart, heq | ⟨entry, hentry, heq⟩⟩ := hmem _ hoption
      · cases heq
      · cases heq
        exact ⟨h.key part hpart entry hentry, h.value part hpart entry hentry⟩
    · intro _ key value rest heq
      cases doc with
      | nil => cases heq
      | cons part rest => cases heq
  obtain ⟨s, hread, htook⟩ := foldlM_of_lays hregular hlays hfits
  have hsections : s.sections = doc.file.sections := by rw [htook.sections, headers_items]; rfl
  have hvalues : s.joined d = doc.file.values := by rw [htook.values, entries_items]; rfl
  have hfile : d.finish s = .ok doc.file := by
    unfold finish
    rw [if_neg (by simp [htook.bogus]), hsections]
    exact congrArg (fun values => Except.ok (File.mk doc.file.sections values)) hvalues
  unfold read
  rw [hread]
  exact hfile

variable {line text : Text}

/-! ## A value on a line of its own -/

theorem places_append {front rest : Text} {c : Char} (h : c ∉ front) :
    places (front ++ rest) c = (places rest c).map (front.length + ·) := by
  unfold places
  rw [List.length_append, List.range_add, List.filter_append, List.filter_map]
  have hfront : (List.range front.length).filter (fun i => (front ++ rest)[i]? == some c) = [] := by
    rw [List.filter_eq_nil_iff]
    intro i hi
    rw [List.mem_range] at hi
    rw [List.getElem?_append_left hi, beq_iff_eq]
    exact fun hget => h (List.mem_of_getElem? hget)
  rw [hfront, List.nil_append]
  congr 1
  refine List.filter_congr fun i _ => ?_
  rw [Function.comp_apply, List.getElem?_append_right (Nat.le_add_right _ _),
    Nat.add_sub_cancel_left]

/-- Text without a prefix before a blank only shifts the places. -/
theorem round_append (hblank : ' ' ∉ d.prefixes) {front value : Text}
    (h : ∀ c ∈ front, c ∉ d.prefixes) (n : ℕ) :
    d.round (front ++ ' ' :: value) n = (d.round (' ' :: value) n).map (front.length + ·) := by
  unfold round
  have hplaces : d.prefixes.filterMap (fun c => (places (front ++ ' ' :: value) c)[n]?) =
      (d.prefixes.filterMap fun c => (places (' ' :: value) c)[n]?).map (front.length + ·) := by
    rw [List.map_filterMap]
    refine List.filterMap_congr fun c hc => ?_
    rw [places_append fun hmem => h c hmem hc, List.getElem?_map]
  rw [hplaces, List.filter_map]
  congr 1
  refine List.filter_congr fun i hi => ?_
  -- a blank is no prefix, so there is a character before the place
  obtain ⟨c, hc, hget⟩ := List.mem_filterMap.mp hi
  have hat : (' ' :: value)[i]? = some c := mem_places.mp (List.mem_of_getElem? hget)
  cases i with
  | zero =>
      obtain rfl : ' ' = c := Option.some.inj hat
      exact absurd hc hblank
  | succ i =>
      have hshift : front.length + (i + 1) - 1 = front.length + i := by omega
      have hnonzero : (front.length + (i + 1) == 0) = false := by simp
      rw [Function.comp_apply, opensAt, opensAt, hshift, hnonzero,
        List.getElem?_append_right (Nat.le_add_right _ _), Nat.add_sub_cancel_left]
      rfl

theorem min?_map_add (n : ℕ) (list : List ℕ) : (list.map (n + ·)).min? = list.min?.map (n + ·) := by
  cases hmin : list.min? with
  | none =>
      rw [List.min?_eq_none_iff] at hmin
      rw [hmin]
      rfl
  | some least =>
      obtain ⟨hmem, hle⟩ := List.min?_eq_some_iff.mp hmin
      rw [Option.map_some, List.min?_eq_some_iff]
      refine ⟨List.mem_map_of_mem hmem, fun other hother => ?_⟩
      obtain ⟨other, hin, rfl⟩ := List.mem_map.mp hother
      have := hle other hin
      omega

theorem round_eq_nil {n : ℕ} (h : line.length ≤ n) : d.round line n = [] := by
  have hnone : ∀ c, (places line c)[n]? = none := fun c =>
    List.getElem?_eq_none (le_trans (length_places_le c) h)
  simp [round, hnone]

theorem commentAt_append_blank (hblank : ' ' ∉ d.prefixes) {front value : Text}
    (h : ∀ c ∈ front, c ∉ d.prefixes) :
    d.commentAt (front ++ ' ' :: value) = (d.commentAt (' ' :: value)).map (front.length + ·) := by
  unfold commentAt
  rw [List.map_findSome?, List.length_append, Nat.add_comm, List.range_add, List.findSome?_append]
  have hmin : ∀ n, (d.round (front ++ ' ' :: value) n).min? =
      (d.round (' ' :: value) n).min?.map (front.length + ·) := by
    intro n
    rw [round_append hblank h, min?_map_add]
  have hlate : ((List.range front.length).map ((' ' :: value).length + ·)).findSome?
      (fun n => (d.round (front ++ ' ' :: value) n).min?) = none := by
    rw [List.findSome?_eq_none_iff]
    intro n hn
    obtain ⟨m, -, rfl⟩ := List.mem_map.mp hn
    rw [hmin, round_eq_nil (Nat.le_add_right _ _)]
    rfl
  rw [hlate, Option.or_none]
  exact congrArg (fun f => (List.range (' ' :: value).length).findSome? f) (funext hmin)

/-- An option on a line. -/
def written (key value : Text) : Text := key ++ ' ' :: '=' :: ' ' :: value

/-- What is kept of a value that is written after a key. -/
def kept (d : Dialect) (value : Text) : Text :=
  d.trim ((' ' :: value).take ((d.commentAt (' ' :: value)).getD (value.length + 1)))

/-- A value that is kept as it is: no white space around it, and no comment in it. -/
def Plain (d : Dialect) (value : Text) : Prop :=
  d.trim value = value ∧ ∀ i, ¬ d.Comment (' ' :: value) i

theorem trimRight_append {front rest : Text} {c : Char} (h : d.space c = false) :
    d.trimRight (front ++ c :: rest) = front ++ c :: d.trimRight rest := by
  unfold trimRight
  induction rest using List.reverseRecOn with
  | nil => rw [List.rdropWhile_concat_neg _ _ _ (by simp [h]), List.rdropWhile_nil]
  | append_singleton rest last ih =>
      have hassoc : front ++ c :: (rest ++ [last]) = (front ++ c :: rest) ++ [last] := by simp
      rw [hassoc]
      by_cases hlast : d.space last = true
      · rw [List.rdropWhile_concat_pos _ _ _ hlast, List.rdropWhile_concat_pos _ _ _ hlast, ih]
      · rw [List.rdropWhile_concat_neg _ _ _ hlast, List.rdropWhile_concat_neg _ _ _ hlast, hassoc]

/-- What is kept of a value is the value itself exactly when it is plain. -/
theorem kept_eq_iff (hregular : d.Regular) {value : Text} :
    d.kept value = value ↔ d.Plain value := by
  unfold kept Plain
  cases hat : d.commentAt (' ' :: value) with
  | none =>
      have hquiet := commentAt_eq_none_iff.mp hat
      have htake : (' ' :: value).take (value.length + 1) = ' ' :: value :=
        List.take_of_length_le (le_refl _)
      rw [Option.getD_none, htake, trim_cons ' ' hregular.blank]
      exact ⟨fun h => ⟨h, hquiet⟩, fun h => h.1⟩
  | some i =>
      have hcomment := comment_of_commentAt hat
      refine ⟨fun h => ?_, fun h => absurd hcomment (h.2 i)⟩
      -- the comment takes at least its prefix away
      exfalso
      obtain ⟨⟨c, hc, hget⟩, -⟩ := hcomment
      have hi : i < value.length + 1 := (List.getElem?_eq_some_iff.mp hget).1
      cases i with
      | zero =>
          obtain rfl : ' ' = c := Option.some.inj hget
          exact absurd hregular.blank (by simp [hregular.prefixes _ hc])
      | succ i =>
          rw [Option.getD_some, List.take_succ_cons, trim_cons ' ' hregular.blank] at h
          have hlength : (d.trim (value.take i)).length ≤ (value.take i).length := length_trim_le
          rw [h, List.length_take] at hlength
          omega

theorem trim_of_head {c : Char} {rest : Text} (h : d.space c = false) :
    d.trim (c :: rest) = d.trimRight (c :: rest) := by
  rw [trim, List.dropWhile_cons_of_neg (by simp [h])]

/-- What is left when the white space at the end is gone begins with white space, and the rest is
trimmed. -/
theorem exists_trimRight_eq (text : Text) :
    ∃ gap, (∀ c ∈ gap, d.space c = true) ∧ d.trimRight text = gap ++ d.trim text := by
  cases hdrop : text.dropWhile d.space with
  | nil =>
      have hall : ∀ c ∈ text, d.space c = true := List.dropWhile_eq_nil_iff.mp hdrop
      refine ⟨[], by simp, ?_⟩
      rw [trim_eq_nil_of_forall hall, trimRight, List.rdropWhile_eq_nil_iff.mpr hall]
      rfl
  | cons c rest =>
      have hc : d.space c = false := by
        have hhead := List.head_dropWhile_not d.space (l := text) (by simp [hdrop])
        simpa [hdrop] using hhead
      refine ⟨text.takeWhile d.space, fun c hmem => List.mem_takeWhile_imp hmem, ?_⟩
      conv_lhs => rw [← List.takeWhile_append_dropWhile (p := d.space) (l := text), hdrop]
      rw [trimRight_append hc, trim, hdrop, ← List.nil_append (c :: rest), trimRight_append hc]
      rfl

theorem trim_trim : d.trim (d.trim text) = d.trim text := by
  cases hdrop : text.dropWhile d.space with
  | nil => rw [trim_eq_nil_of_forall (List.dropWhile_eq_nil_iff.mp hdrop)]; rfl
  | cons c rest =>
      have hc : d.space c = false := by
        have hhead := List.head_dropWhile_not d.space (l := text) (by simp [hdrop])
        simpa [hdrop] using hhead
      have htrim : d.trim text = c :: d.trimRight rest := by
        rw [trim, hdrop, ← List.nil_append (c :: rest), trimRight_append hc]
        rfl
      have hright : d.trimRight (d.trimRight rest) = d.trimRight rest :=
        List.rdropWhile_idempotent d.space rest
      rw [htrim, trim_of_head hc, ← List.nil_append (c :: d.trimRight rest), trimRight_append hc,
        hright]

/-- A key that can be written on a line of its own. -/
structure Printable (d : Dialect) (key : Text) : Prop extends d.IsKey key where
  prefixes : ∀ c ∈ key, c ∉ d.prefixes

theorem IsKey.head {c : Char} {rest : Text} (h : d.IsKey (c :: rest)) : d.space c = false := by
  by_contra hspace
  have hlength : (d.trim rest).length ≤ rest.length := length_trim_le
  rw [← trim_cons c (by simpa using hspace), h.trimmed, List.length_cons] at hlength
  omega

theorem trim_written (hkey : d.IsKey key) (hregular : d.Regular) (hequals : '=' ∈ d.delimiters) :
    d.trim (key ++ ' ' :: '=' :: text) = key ++ ' ' :: '=' :: d.trimRight text := by
  have hnospace : d.space '=' = false := (hregular.delimiters _ hequals).1
  obtain ⟨c, rest, rfl⟩ := List.exists_cons_of_ne_nil hkey.nonempty
  have hsplit : c :: rest ++ ' ' :: '=' :: text = (c :: rest ++ [' ']) ++ '=' :: text := by simp
  have hcons : c :: rest ++ ' ' :: '=' :: text = c :: (rest ++ ' ' :: '=' :: text) := rfl
  rw [hcons, trim_of_head hkey.head, ← hcons, hsplit, trimRight_append hnospace]
  simp

/-- What a line with an option holds. -/
theorem content_written {key value : Text} (hkey : d.Printable key) (hregular : d.Regular)
    (hequals : '=' ∈ d.delimiters) :
    d.Writes (.option key (d.kept value)) (d.content (written key value)).text := by
  have hblank : ' ' ∉ d.prefixes := fun h => absurd hregular.blank (by simp [hregular.prefixes _ h])
  have hfront : ∀ c ∈ key ++ [' ', '='], c ∉ d.prefixes := by
    intro c hc
    simp only [List.mem_append, List.mem_cons, List.not_mem_nil, or_false] at hc
    rcases hc with hc | rfl | rfl
    · exact hkey.prefixes c hc
    · exact hblank
    · exact (hregular.delimiters _ hequals).2
  have hsplit : written key value = (key ++ [' ', '=']) ++ ' ' :: value := by simp [written]
  -- neither the key nor the equals sign opens a comment
  have hhead : (d.trim (written key value)).head?.any (· ∈ d.prefixes) = false := by
    unfold written
    rw [trim_written hkey.toIsKey hregular hequals]
    obtain ⟨c, rest, rfl⟩ := List.exists_cons_of_ne_nil hkey.nonempty
    exact decide_eq_false (hkey.prefixes c List.mem_cons_self)
  have htext : (d.content (written key value)).text = key ++ ' ' :: '=' ::
      d.trimRight ((' ' :: value).take ((d.commentAt (' ' :: value)).getD (value.length + 1))) := by
    unfold content
    simp only [hhead, Bool.false_eq_true, if_false]
    rw [hsplit, commentAt_append_blank hblank hfront, ← trim_written hkey.toIsKey hregular hequals]
    congr 1
    cases d.commentAt (' ' :: value) with
    | none =>
        rw [Option.map_none, Option.getD_none, Option.getD_none, List.take_length,
          List.take_of_length_le (by simp)]
        simp
    | some i =>
        rw [Option.map_some, Option.getD_some, Option.getD_some, List.take_length_add_append]
        simp
  obtain ⟨gap, hgap, hright⟩ := exists_trimRight_eq (d := d)
    ((' ' :: value).take ((d.commentAt (' ' :: value)).getD (value.length + 1)))
  rw [htext, hright]
  have hwrites : d.Writes (.option key (d.kept value))
      (key ++ [' '] ++ '=' :: (gap ++ d.kept value)) :=
    .option (by simpa using hregular.blank) hgap hequals
  simpa [kept] using hwrites

/-- A header that can be written on a line of its own. -/
structure PrintableName (d : Dialect) (name : Text) : Prop extends IsName name where
  prefixes : ∀ c ∈ name, c ∉ d.prefixes

theorem content_header {name : Text} (hname : d.PrintableName name) (hregular : d.Regular) :
    d.Writes (.header name) (d.content ('[' :: (name ++ [']']))).text := by
  have hfree : ∀ c ∈ '[' :: (name ++ [']']), c ∉ d.prefixes := by
    intro c hc
    simp only [List.mem_cons, List.mem_append, List.not_mem_nil, or_false] at hc
    rcases hc with rfl | hc | rfl
    · exact hregular.opening.2
    · exact hname.prefixes c hc
    · exact hregular.closing.2
  have hquiet : ∀ i, ¬ d.Comment ('[' :: (name ++ [']'])) i := by
    rintro i ⟨⟨c, hc, hget⟩, -⟩
    exact hfree c (List.mem_of_getElem? hget) hc
  have hsplit : '[' :: (name ++ [']']) = ('[' :: name) ++ [']'] := rfl
  have htrim : d.trim ('[' :: (name ++ [']'])) = '[' :: (name ++ [']']) := by
    rw [trim_of_head hregular.opening.1, hsplit, trimRight_append hregular.closing.1]
    rfl
  rw [content_of_quiet hquiet, htrim]
  exact .header name List.not_mem_nil

/-- The lines of a document: a section after the other, with a blank line at the end of each. -/
def render (doc : Document) : List Text :=
  doc.flatMap fun part =>
    ('[' :: (part.1 ++ [']'])) :: (part.2.map fun entry => written entry.1 entry.2) ++ [[]]

/-- A document whose names and keys can be written down; nothing is asked of the values. -/
structure Outline (d : Dialect) (doc : Document) : Prop where
  names : (doc.map (·.1)).Nodup
  name : ∀ part ∈ doc, d.PrintableName part.1
  keys : ∀ part ∈ doc, (part.2.map (·.1)).Nodup
  key : ∀ part ∈ doc, ∀ entry ∈ part.2, d.Printable entry.1

theorem Lays.append {items items' : List Item} {lines lines' : List Text} (h : d.Lays items lines)
    (h' : d.Lays items' lines') : d.Lays (items ++ items') (lines ++ lines') := by
  induction h with
  | nil => exact h'
  | noise hline _ ih => exact .noise hline ih
  | item hindent hline _ ih => exact .item hindent hline ih

theorem indentOf_cons {c : Char} {rest : Text} (h : d.space c = false) :
    d.indentOf (c :: rest) = 0 := by
  rw [indentOf, List.takeWhile_cons_of_neg (by simp [h])]
  rfl

theorem lays_options (hregular : d.Regular) (hequals : '=' ∈ d.delimiters)
    {options : List (Text × Text)} (h : ∀ entry ∈ options, d.Printable entry.1) :
    d.Lays ((options.map fun entry => (entry.1, d.kept entry.2)).map fun entry =>
        .option entry.1 entry.2)
      (options.map fun entry => written entry.1 entry.2) := by
  induction options with
  | nil => exact .nil
  | cons entry rest ih =>
      have hkey := h entry List.mem_cons_self
      have hindent : d.indentOf (written entry.1 entry.2) = 0 := by
        obtain ⟨c, others, hcons⟩ := List.exists_cons_of_ne_nil hkey.nonempty
        have hc : d.space c = false := by
          have hisKey := hkey.toIsKey
          rw [hcons] at hisKey
          exact hisKey.head
        rw [written, hcons]
        exact indentOf_cons hc
      refine .item hindent (content_written hkey hregular hequals) (ih ?_)
      exact fun entry hmem => h entry (List.mem_cons_of_mem _ hmem)

theorem lays_render (hregular : d.Regular) (hequals : '=' ∈ d.delimiters) {doc : Document}
    (h : d.Outline doc) : d.Lays (doc.mapValues d.kept).items (render doc) := by
  have hname := h.name
  have hkey := h.key
  clear h
  induction doc with
  | nil => exact .nil
  | cons part rest ih =>
      have hheader := content_header (hname part List.mem_cons_self) hregular
      have hoptions := lays_options hregular hequals (hkey part List.mem_cons_self)
      have hblank : (d.content []).text = [] := by
        rw [content_of_quiet]
        · rfl
        · rintro i ⟨⟨c, -, hget⟩, -⟩
          simp at hget
      have hpart : d.Lays (.header part.1 :: ((part.2.map fun entry =>
          (entry.1, d.kept entry.2)).map fun entry => .option entry.1 entry.2) ++ [])
          (('[' :: (part.1 ++ [']'])) ::
          (part.2.map fun entry => written entry.1 entry.2) ++ [[]]) :=
        .append (.item (indentOf_cons hregular.opening.1) hheader hoptions) (.noise hblank .nil)
      rw [List.append_nil] at hpart
      exact hpart.append (ih (fun part hmem => hname part (List.mem_cons_of_mem _ hmem))
        fun part hmem => hkey part (List.mem_cons_of_mem _ hmem))

theorem Outline.wellFormed {doc : Document} (h : d.Outline doc) :
    d.WellFormed (doc.mapValues d.kept) := by
  have hmem : ∀ part ∈ doc.mapValues d.kept, ∃ part' ∈ doc, part'.1 = part.1 ∧
      part.2 = part'.2.map fun entry => (entry.1, d.kept entry.2) := by
    intro part hpart
    obtain ⟨part', hpart', rfl⟩ := List.mem_map.mp hpart
    exact ⟨part', hpart', rfl, rfl⟩
  -- the values change, the names and the keys do not
  refine ⟨?_, ?_, ?_, ?_, ?_⟩
  · have hsame : (doc.mapValues d.kept).map (·.1) = doc.map (·.1) := by
      simp [Document.mapValues, List.map_map, Function.comp_def]
    rw [hsame]
    exact h.names
  · intro part hpart
    obtain ⟨part', hpart', hname, -⟩ := hmem part hpart
    rw [← hname]
    exact (h.name part' hpart').toIsName
  · intro part hpart
    obtain ⟨part', hpart', -, hoptions⟩ := hmem part hpart
    have hsame : part.2.map (·.1) = part'.2.map (·.1) := by
      rw [hoptions, List.map_map]
      rfl
    rw [hsame]
    exact h.keys part' hpart'
  · intro part hpart entry hentry
    obtain ⟨part', hpart', -, hoptions⟩ := hmem part hpart
    rw [hoptions] at hentry
    obtain ⟨entry', hentry', rfl⟩ := List.mem_map.mp hentry
    exact (h.key part' hpart' entry' hentry').toIsKey
  · intro part hpart entry hentry
    obtain ⟨part', hpart', -, hoptions⟩ := hmem part hpart
    rw [hoptions] at hentry
    obtain ⟨entry', hentry', rfl⟩ := List.mem_map.mp hentry
    exact trim_trim

/-- A document that is written down comes back with what is kept of each value. -/
theorem read_render (hregular : d.Regular) (hequals : '=' ∈ d.delimiters) {doc : Document}
    (h : d.Outline doc) : d.read (render doc) = .ok (doc.mapValues d.kept).file :=
  read_of_lays hregular h.wellFormed (lays_render hregular hequals h)

/-! ## References -/

/-- A text with every percent sign doubled. -/
def quote (text : Text) : Text := text.flatMap fun c => if c = '%' then ['%', '%'] else [c]

theorem quote_of_free (h : '%' ∉ text) : quote text = text := by
  induction text with
  | nil => rfl
  | cons c rest ih =>
      rw [List.mem_cons, not_or] at h
      have hrest := ih h.2
      unfold quote at hrest ⊢
      rw [List.flatMap_cons, if_neg (Ne.symm h.1), hrest]
      rfl

/-- A quoted text is taken literally, by induction on it. -/
theorem expandWith_quote (nested : Text → Except Fault Text) (find : Text → Option Text) {fuel : ℕ}
    (hfuel : (quote text).length ≤ fuel) :
    d.expandWith nested find fuel (quote text) = .ok text := by
  induction text generalizing fuel with
  | nil => cases fuel <;> rfl
  | cons c rest ih =>
      by_cases hc : c = '%'
      · subst hc
        have hquote : quote ('%' :: rest) = '%' :: '%' :: quote rest := rfl
        rw [hquote, List.length_cons, List.length_cons] at hfuel
        obtain ⟨fuel, rfl⟩ : ∃ left, fuel = left + 1 := ⟨fuel - 1, by omega⟩
        rw [hquote, expandWith]
        simp only [ne_eq, not_true_eq_false, if_false]
        rw [ih (by omega)]
        rfl
      · have hquote : quote (c :: rest) = c :: quote rest := by
          simp [quote, hc]
        rw [hquote, List.length_cons] at hfuel
        obtain ⟨fuel, rfl⟩ : ∃ left, fuel = left + 1 := ⟨fuel - 1, by omega⟩
        rw [hquote]
        unfold expandWith
        rw [if_pos hc, ih (by omega)]
        rfl

theorem expand_quote (find : Text → Option Text) (depth : ℕ) :
    d.expand find (depth + 1) (quote text) = .ok text :=
  expandWith_quote _ find (le_refl _)

/-! ## Looking an option up -/

theorem lookup_entry {κ β : Type} [BEq κ] (key : κ) (entry : κ × β) (rest : List (κ × β)) :
    (entry :: rest).lookup key = if key == entry.1 then some entry.2 else rest.lookup key := by
  rw [List.lookup_cons]
  cases key == entry.1 <;> rfl

theorem lookup_options (name name' key : Text) (options : List (Text × Text)) :
    ((options.map fun entry => ((name', entry.1), entry.2)).find? (·.1 = (name, key))).map (·.2) =
      if name' = name then options.lookup key else none := by
  induction options with
  | nil => simp
  | cons entry rest ih =>
      rw [List.map_cons, List.find?_cons]
      by_cases hname : name' = name
      · rw [if_pos hname] at ih ⊢
        by_cases hkey : key = entry.1
        · simp [hname, hkey, lookup_entry]
        · simp only [hname, Prod.mk.injEq, true_and, Ne.symm hkey, decide_false]
          simpa [hname, lookup_entry, beq_false_of_ne hkey] using ih
      · rw [if_neg hname] at ih ⊢
        simp [hname]

theorem lookup_file (doc : Document) (name key : Text) :
    doc.file.lookup (name, key) =
      doc.findSome? fun part => if part.1 = name then part.2.lookup key else none := by
  unfold File.lookup Document.file
  rw [List.find?_flatMap, List.map_findSome?]
  refine congrArg (fun f => doc.findSome? f) (funext fun part => ?_)
  rw [Function.comp_apply, lookup_options]

/-- A section that is there once is the one that is looked into. -/
theorem findSome?_section {doc : Document} (hnames : (doc.map (·.1)).Nodup) (name key : Text) :
    (doc.findSome? fun part => if part.1 = name then part.2.lookup key else none) =
      (doc.lookup name).bind (·.lookup key) := by
  induction doc with
  | nil => rfl
  | cons part rest ih =>
      rw [List.map_cons, List.nodup_cons] at hnames
      have hrest := ih hnames.2
      by_cases hname : name = part.1
      · have hnone :
            (rest.findSome? fun part => if part.1 = name then part.2.lookup key else none) =
              none := by
          rw [List.findSome?_eq_none_iff]
          intro other hother
          refine if_neg fun heq => hnames.1 ?_
          rw [← hname, ← heq]
          exact List.mem_map_of_mem hother
        subst hname
        rw [List.findSome?_cons, hnone]
        cases hlookup : part.2.lookup key <;> simp [lookup_entry, hlookup]
      · simp [lookup_entry, beq_false_of_ne hname, Ne.symm hname, hrest]

theorem entry_file {doc : Document} (h : d.WellFormed doc) {name key : Text}
    (hname : name ≠ defaultSection) :
    doc.file.entry name key = (doc.lookup name).bind (·.lookup key) := by
  have hdefault : doc.file.lookup (defaultSection, key) = none := by
    rw [lookup_file, List.findSome?_eq_none_iff]
    exact fun part hpart => if_neg (h.name part hpart).notDefault
  unfold File.entry
  rw [hdefault, Option.or_none, lookup_file, findSome?_section h.names]
  split
  · rfl
  · rename_i habsent
    rw [not_or] at habsent
    have hnone : doc.lookup name = none := by
      rw [List.lookup_eq_none_iff]
      intro part hpart
      rw [bne_iff_ne]
      rintro rfl
      exact habsent.1 (List.mem_map_of_mem hpart)
    rw [hnone]
    rfl

/-- A quoted value is found as it was. -/
theorem get_file {doc : Document} (h : d.WellFormed doc) {name key : Text}
    (hname : name ≠ defaultSection) (hkey : d.lower key = key) {value : Option Text}
    (hvalue : (doc.lookup name).bind (·.lookup key) = value.map quote) :
    doc.file.get d name key = .ok value := by
  unfold File.get
  rw [hkey, entry_file h hname, hvalue]
  cases value with
  | none => rfl
  | some value =>
      rw [Option.map_some]
      simp only [maxDepth, expand_quote]
      rfl

/-- White space is not what a percent sign is, so doubling those changes nothing at the ends. -/
theorem trim_quote (hpercent : d.space '%' = false) (h : d.trim text = text) :
    d.trim (quote text) = quote text := by
  have hquoted : ∀ c, d.space c = false → ∃ rest, (∀ b ∈ rest, d.space b = false) ∧
      quote [c] = c :: rest := by
    intro c hc
    by_cases hsign : c = '%'
    · exact ⟨['%'], by simpa using hpercent, by subst hsign; rfl⟩
    · exact ⟨[], by simp, by simp [quote, hsign]⟩
  have happend : ∀ front rest, quote (front ++ rest) = quote front ++ quote rest :=
    fun front rest => List.flatMap_append
  have hright : d.trimRight (quote text) = quote text := by
    have hsame := trimRight_of_trim h
    -- nothing is trimmed on the right: the last character is no white space
    cases text using List.reverseRecOn with
    | nil => rfl
    | append_singleton front last _ =>
        have hlast : d.space last = false := by
          by_contra hspace
          rw [trimRight_append_space (by simpa using hspace)] at hsame
          have hlength : (d.trimRight front).length ≤ front.length :=
            (List.rdropWhile_prefix d.space _).length_le
          rw [hsame, List.length_append, List.length_singleton] at hlength
          omega
        obtain ⟨rest, hrest, heq⟩ := hquoted last hlast
        rw [happend, heq, trimRight_append hlast]
        have hkept : d.trimRight rest = rest := by
          rw [trimRight, List.rdropWhile_eq_self_iff]
          intro hne
          simp [hrest _ (List.getLast_mem hne)]
        rw [hkept]
  cases text with
  | nil => rfl
  | cons c rest =>
      -- nor on the left
      have hc : d.space c = false := by
        by_contra hspace
        have hlength : (d.trim rest).length ≤ rest.length := length_trim_le
        rw [← trim_cons c (by simpa using hspace), h, List.length_cons] at hlength
        omega
      obtain ⟨more, -, heq⟩ := hquoted c hc
      have hcons : quote (c :: rest) = c :: (more ++ quote rest) := by
        rw [← List.singleton_append, happend, heq, List.cons_append]
      rw [hcons] at hright ⊢
      rw [trim_of_head hc, hright]

end Dialect

end Ini
