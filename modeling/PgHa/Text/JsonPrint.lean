import PgHa.Text.Json

/-!
# `json.dumps`

The encoder of the standard library with its default options: one line of ASCII
characters, `", "` between items and `": "` after a key, every other character
as an escape of its UTF-16 codes.

`loads_dumps`: the decoder reads every value back that is not nested deeper than
it allows and whose objects have no key twice.  What is assumed of `repr` is that
it writes a floating-point number as a literal that `float` reads back (`Exact`).
Any text may follow a value that does not go on with its number (`Stops`), so
that the texts of the items of an array or an object can be put together.
-/

namespace PgHa.JsonText

open Scanner

/-! ## The encoder -/

/-- `'{0:x}'.format(digit)` -/
def hexDigit (digit : ℕ) : Char := Char.ofNat (if digit < 10 then 48 + digit else 87 + digit)

/-- `'\\u{0:04x}'.format(code)` -/
def unicodeEscape (code : ℕ) : List Char :=
  ['\\', 'u', hexDigit (code / 4096 % 16), hexDigit (code / 256 % 16), hexDigit (code / 16 % 16),
    hexDigit (code % 16)]

/-- The UTF-16 codes of a character. -/
def codesOf (c : Char) : List ℕ :=
  if c.toNat < 0x10000 then [c.toNat]
  else [0xd800 + (c.toNat - 0x10000) / 0x400, 0xdc00 + (c.toNat - 0x10000) % 0x400]

/-- `ESCAPE_DCT` -/
def shortEscape : Char → Option Char
  | '\\' => some '\\'
  | '"' => some '"'
  | '\x08' => some 'b'
  | '\x0c' => some 'f'
  | '\n' => some 'n'
  | '\r' => some 'r'
  | '\t' => some 't'
  | _ => none

def printChar (c : Char) : List Char :=
  match shortEscape c with
  | some letter => ['\\', letter]
  | none => if ' ' ≤ c ∧ c ≤ '~' then [c] else (codesOf c).flatMap unicodeEscape

/-- `py_encode_basestring_ascii` -/
def printString (text : String) : List Char := '"' :: (text.toList.flatMap printChar ++ ['"'])

def printInt (value : Int) : List Char :=
  (if value < 0 then ['-'] else []) ++ Nat.toDigits 10 value.natAbs

/-- What the encoder and the decoder depend on; the encoder on `float.__repr__`. -/
structure Coding extends Decoding where
  reprFloat : Rat → List Char

namespace Coding

variable (d : Coding)

mutual

/-- `json.dumps(value)` -/
def dumps : Json → List Char
  | .null => ['n', 'u', 'l', 'l']
  | .bool true => ['t', 'r', 'u', 'e']
  | .bool false => ['f', 'a', 'l', 's', 'e']
  | .num value => printInt value
  | .real (.finite value) => d.reprFloat value
  | .real (.infinite false) => ['I', 'n', 'f', 'i', 'n', 'i', 't', 'y']
  | .real (.infinite true) => ['-', 'I', 'n', 'f', 'i', 'n', 'i', 't', 'y']
  | .real .nan => ['N', 'a', 'N']
  | .str text => printString text
  | .arr [] => ['[', ']']
  | .arr (first :: rest) => '[' :: (dumps first ++ (dumpsItems rest ++ [']']))
  | .obj [] => ['{', '}']
  | .obj ((key, first) :: rest) =>
      '{' :: (printString key ++ ([':', ' '] ++ (dumps first ++ (dumpsMembers rest ++ ['}']))))

/-- The items after the first one. -/
def dumpsItems : List Json → List Char
  | [] => []
  | item :: rest => [',', ' '] ++ dumps item ++ dumpsItems rest

/-- The members after the first one. -/
def dumpsMembers : List (String × Json) → List Char
  | [] => []
  | (key, item) :: rest =>
      [',', ' '] ++ (printString key ++ ([':', ' '] ++ dumps item)) ++ dumpsMembers rest

end

end Coding

/-! ## Strings -/

theorem hexValue_hexDigit {digit : ℕ} (h : digit < 16) :
    hexValue (hexDigit digit) = some digit := by
  have hall : ∀ digit < 16, hexValue (hexDigit digit) = some digit := by decide
  exact hall digit h

/-- Any text may follow. -/
def anything (_ : List Char) : Prop := True

theorem reads_char (c : Char) : Reads anything char [c] c := reads_token c

theorem reads_hexDigits {code : ℕ} (h : code < 0x10000) :
    Reads anything (hexDigits 0 4)
      [hexDigit (code / 4096 % 16), hexDigit (code / 256 % 16), hexDigit (code / 16 % 16),
        hexDigit (code % 16)] code := by
  have hdigits (digit : ℕ) : hexValue (hexDigit (digit % 16)) = some (digit % 16) :=
    hexValue_hexDigit (Nat.mod_lt _ (by omega))
  have hcode : 16 * (16 * (16 * (16 * 0 + code / 4096 % 16) + code / 256 % 16) + code / 16 % 16) +
      code % 16 = code := by omega
  intro rest _
  simp only [hexDigits, Scanner.bind, char, token, List.cons_append, List.nil_append, hdigits,
    Scanner.pure, hcode]

theorem reads_unicodeEscape {code : ℕ} (h : code < 0x10000) :
    Reads anything stringStep (unicodeEscape code) (some code) := by
  have hescape : Reads anything escape ('u' :: (unicodeEscape code).drop 2) code := by
    refine (reads_char 'u').bind ?_ fun _ _ => trivial
    exact reads_hexDigits h
  refine (reads_char '\\').bind ?_ fun _ _ => trivial
  exact hescape.map some

theorem simpleEscape_of_shortEscape {c letter : Char} (h : shortEscape c = some letter) :
    simpleEscape letter = some c := by
  unfold shortEscape at h
  split at h <;> first | (cases h; rfl) | cases h

theorem reads_shortEscape {c letter : Char} (h : shortEscape c = some letter) :
    Reads anything stringStep ['\\', letter] (some c.toNat) := by
  have hescape : Reads anything escape [letter] c.toNat := by
    refine (reads_char letter).bind_nil ?_
    rw [simpleEscape_of_shortEscape h]
    exact reads_pure _
  refine (reads_char '\\').bind ?_ fun _ _ => trivial
  exact hescape.map some

theorem lt_of_mem_codesOf {c : Char} {code : ℕ} (h : code ∈ codesOf c) : code < 0x10000 := by
  have hvalid : c.toNat < 0xd800 ∨ 0xdfff < c.toNat ∧ c.toNat < 0x110000 := c.valid
  unfold codesOf at h
  split at h
  · rw [List.mem_singleton] at h
    omega
  · simp only [List.mem_cons, List.not_mem_nil, or_false] at h
    omega

theorem collects_printChar (c : Char) (exc : Exc) :
    Collects anything stringStep exc (printChar c) (codesOf c) := by
  unfold printChar
  cases hshort : shortEscape c with
  | some letter =>
      have hcodes : codesOf c = [c.toNat] := by
        unfold shortEscape at hshort
        split at hshort <;> first | rfl | cases hshort
      rw [hcodes]
      exact collects_step shrinks_stringStep (reads_shortEscape hshort)
  | none =>
      have hquote : c ≠ '"' := by
        rintro rfl
        cases hshort
      have hbackslash : c ≠ '\\' := by
        rintro rfl
        cases hshort
      dsimp only
      split
      · rename_i hprintable
        have hlow : 32 ≤ c.toNat := hprintable.1
        have hhigh : c.toNat ≤ 126 := hprintable.2
        have hcodes : codesOf c = [c.toNat] := if_pos (by omega)
        rw [hcodes]
        refine collects_step shrinks_stringStep ((reads_char c).bind_nil ?_)
        rw [if_neg hquote, if_neg hbackslash, if_neg (by omega)]
        exact reads_pure _
      -- a character that is escaped is read code unit by code unit
      · have hcollects : Collects anything stringStep exc ((codesOf c).flatMap unicodeEscape)
            ((codesOf c).flatMap fun code => [code]) := by
          refine .flatMap (fun code hcode => ?_) fun _ _ _ _ => trivial
          exact collects_step shrinks_stringStep (reads_unicodeEscape (lt_of_mem_codesOf hcode))
        rwa [List.flatMap_singleton'] at hcollects

/-- A code that is no half of a pair stands for itself. -/
theorem joinSurrogates_single {code : ℕ} (hvalid : code.isValidChar) (rest : List ℕ) :
    joinSurrogates (code :: rest) = Char.ofNat code :: joinSurrogates rest := by
  have hno : ¬ (0xd800 ≤ code ∧ code ≤ 0xdbff) := by
    rintro ⟨hlow, hhigh⟩
    rcases hvalid with h | h <;> omega
  cases rest with
  | nil => simp [joinSurrogates, hvalid]
  | cons low rest =>
      rw [joinSurrogates, if_neg fun h => hno ⟨h.1, h.2.1⟩, if_pos hvalid]

theorem joinSurrogates_codesOf (text : List Char) :
    joinSurrogates (text.flatMap codesOf) = text := by
  induction text with
  | nil => rfl
  | cons c text ih =>
      have hvalid : c.toNat < 0xd800 ∨ 0xdfff < c.toNat ∧ c.toNat < 0x110000 := c.valid
      rw [List.flatMap_cons]
      by_cases hplain : c.toNat < 0x10000
      · rw [show codesOf c = [c.toNat] from if_pos hplain, List.singleton_append,
          joinSurrogates_single hvalid, ih, Char.ofNat_toNat]
      · have hcode : 0x10000 + (0xd800 + (c.toNat - 0x10000) / 0x400 - 0xd800) * 0x400 +
            (0xdc00 + (c.toNat - 0x10000) % 0x400 - 0xdc00) = c.toNat := by omega
        rw [show codesOf c = _ from if_neg hplain, List.cons_append, List.singleton_append,
          joinSurrogates, if_pos (by omega), ih, hcode, Char.ofNat_toNat]

/-- A string is read back, after its opening quote. -/
theorem reads_string (text : String) :
    Reads anything string (text.toList.flatMap printChar ++ ['"']) text := by
  have hcodes : Collects anything stringStep (decodeError "Unterminated string starting at")
      (text.toList.flatMap printChar) (text.toList.flatMap codesOf) :=
    .flatMap (fun c _ => collects_printChar c _) fun _ _ _ _ => trivial
  have hclose : Reads anything stringStep ['"'] none := fun _ _ => rfl
  have hread := (hcodes.reads hclose fun _ _ => trivial).map
    fun codes => String.ofList (joinSurrogates codes)
  rwa [joinSurrogates_codesOf, String.ofList_toList] at hread

/-! ## Numbers -/

/-- The digits of a number, as they are written and as they are read. -/
inductive Digits : List Char → Prop
  | zero : Digits ['0']
  | many {c : Char} {rest : List Char} (hne : c ≠ '0') (hc : isDigit c = true)
      (hrest : ∀ c ∈ rest, isDigit c = true) : Digits (c :: rest)

theorem natOfDigits_toDigits (n : ℕ) : natOfDigits (Nat.toDigits 10 n) = n := by
  have hfold := @Nat.ofDigitChars_ten_toDigits n
  rwa [Nat.ofDigitChars_eq_foldl] at hfold

/-- A number that is not zero has no leading zero. -/
theorem head?_toDigits {n : ℕ} (hn : 0 < n) : (Nat.toDigits 10 n).head? ≠ some '0' := by
  induction n using Nat.strongRecOn with
  | ind n ih =>
      rcases Nat.lt_or_ge n 10 with hlt | hge
      · have hdigit : ∀ n < 10, 0 < n → Nat.digitChar n ≠ '0' := by decide
        rw [Nat.toDigits_of_lt_base hlt]
        simpa using hdigit n hlt hn
      · rw [Nat.toDigits_of_base_le (by omega) hge,
          List.head?_append_of_ne_nil _ Nat.toDigits_ne_nil]
        exact ih (n / 10) (by omega) (by omega)

theorem digits_toDigits (n : ℕ) : Digits (Nat.toDigits 10 n) := by
  rcases Nat.eq_zero_or_pos n with rfl | hn
  · exact .zero
  · cases htext : Nat.toDigits 10 n with
    | nil => exact absurd htext Nat.toDigits_ne_nil
    | cons c rest =>
        have hall : ∀ c ∈ Nat.toDigits 10 n, isDigit c = true :=
          fun c hc => Nat.isDigit_of_mem_toDigits (by omega) (by omega) hc
        rw [htext] at hall
        have hne : c ≠ '0' := by simpa [htext] using head?_toDigits hn
        exact .many hne (hall c List.mem_cons_self) fun c hc => hall c (List.mem_cons_of_mem _ hc)

/-- What may follow a digit that is the last one. -/
def NoDigit (rest : List Char) : Prop := ∀ c ∈ rest.head?, isDigit c = false

/-- What may follow a number. -/
structure Stops (rest : List Char) : Prop where
  digit : NoDigit rest
  point : rest.head? ≠ some '.'
  exponent : rest.head? ≠ some 'e' ∧ rest.head? ≠ some 'E'

theorem reads_digitsAfter (text : List Char) {digits : List Char}
    (h : ∀ c ∈ digits, isDigit c = true) :
    Reads NoDigit (digitsAfter text) digits (text ++ digits) :=
  (reads_takeWhile h fun _ hrest => hrest).map fun digits => text ++ digits

theorem reads_integer {c : Char} {rest : List Char} (h : Digits (c :: rest)) :
    Reads NoDigit (integer c) rest (c :: rest) := by
  generalize htext : c :: rest = text at h
  cases h with
  | zero =>
      obtain ⟨rfl, rfl⟩ := List.cons.inj htext
      exact reads_pure _
  | many hne hc hrest =>
      obtain ⟨rfl, rfl⟩ := List.cons.inj htext
      rw [integer, if_neg hne, if_pos hc]
      exact reads_digitsAfter [c] hrest

/-- The part of a literal that begins with a point, if there is one. -/
inductive Fractional : List Char → Prop
  | none : Fractional []
  | digits {digit : Char} {rest : List Char} (hdigit : isDigit digit = true)
      (hrest : ∀ c ∈ rest, isDigit c = true) : Fractional ('.' :: digit :: rest)

theorem reads_fraction {text : List Char} (h : Fractional text) :
    Reads (fun rest => NoDigit rest ∧ rest.head? ≠ some '.') fraction text text := by
  rintro rest ⟨hdigit, hpoint⟩
  cases h with
  | none =>
      match rest with
      | [] => rfl
      | [c] => rfl
      | c :: digit :: rest =>
          have hc : c ≠ '.' := by simpa using hpoint
          exact if_neg fun h => hc h.1
  | @digits digit more hfirst hmore =>
      have hread := reads_digitsAfter ['.', digit] hmore rest hdigit
      rw [List.cons_append, List.cons_append, fraction, if_pos ⟨rfl, hfirst⟩]
      exact hread

/-- The part of a literal that begins with an `e`, if there is one. -/
inductive Exponential : List Char → Prop
  | none : Exponential []
  | plain {digit : Char} {rest : List Char} (hdigit : isDigit digit = true)
      (hrest : ∀ c ∈ rest, isDigit c = true) : Exponential ('e' :: digit :: rest)
  | signed {sign digit : Char} {rest : List Char} (hsign : sign = '-' ∨ sign = '+')
      (hdigit : isDigit digit = true) (hrest : ∀ c ∈ rest, isDigit c = true) :
      Exponential ('e' :: sign :: digit :: rest)

theorem reads_exponent {text : List Char} (h : Exponential text) :
    Reads (fun rest => NoDigit rest ∧ rest.head? ≠ some 'e' ∧ rest.head? ≠ some 'E') exponent text
      text := by
  rintro rest ⟨hdigit, hlower, hupper⟩
  cases h with
  | none =>
      match rest with
      | [] => rfl
      | [e] => rfl
      | e :: c :: rest =>
          have he : ¬ (e = 'e' ∨ e = 'E') := by simpa using And.intro hlower hupper
          have hsigned : signedExponent e c rest = .ok ([], e :: c :: rest) := by
            cases rest with
            | nil => rfl
            | cons digit rest => exact if_neg fun h => he h.1
          rw [List.nil_append, exponent, if_neg fun h => he h.1, hsigned]
  | @plain digit more hfirst hmore =>
      have hread := reads_digitsAfter ['e', digit] hmore rest hdigit
      rw [List.cons_append, List.cons_append, exponent, if_pos ⟨.inl rfl, hfirst⟩]
      exact hread
  | @signed sign digit more hsign hfirst hmore =>
      have hno : isDigit sign = false := by rcases hsign with rfl | rfl <;> rfl
      have hread := reads_digitsAfter ['e', sign, digit] hmore rest hdigit
      rw [List.cons_append, List.cons_append, List.cons_append, exponent,
        if_neg fun h => by simp [hno] at h, signedExponent, if_pos ⟨.inl rfl, hsign, hfirst⟩]
      exact hread

/-- A number is read back from its digits. -/
theorem reads_number (parseFloat : String → Real) (negative : Bool) {c : Char}
    {digits fractional exponential : List Char} (hdigits : Digits (c :: digits))
    (hfractional : Fractional fractional) (hexponential : Exponential exponential) :
    Reads Stops (number parseFloat negative c) (digits ++ (fractional ++ exponential))
      (numberOf parseFloat negative (c :: digits) fractional exponential) := by
  have hpoint : ∀ rest, Stops rest → NoDigit (exponential ++ rest) ∧
      (exponential ++ rest).head? ≠ some '.' := by
    intro rest hrest
    cases hexponential with
    | none => exact ⟨hrest.digit, hrest.point⟩
    | _ => exact ⟨fun c hc => by cases hc; rfl, by simp⟩
  refine (reads_integer hdigits).bind ((reads_fraction hfractional).bind ?_ hpoint) ?_
  · refine ((reads_exponent hexponential).mono fun rest hrest => ?_).map _
    exact ⟨hrest.digit, hrest.exponent⟩
  · intro rest hrest
    rw [List.append_assoc]
    cases hfractional with
    | none => exact (hpoint rest hrest).1
    | digits => exact fun c hc => by cases hc; rfl

/-- How a floating-point number is written. -/
structure Literal where
  negative : Bool
  first : Char
  digits : List Char
  fractional : List Char
  exponential : List Char

namespace Literal

def text (literal : Literal) : List Char :=
  (if literal.negative then ['-'] else []) ++ (literal.first :: literal.digits) ++
    literal.fractional ++ literal.exponential

/-- A literal with a point or an exponent. -/
structure WellFormed (literal : Literal) : Prop where
  digits : Digits (literal.first :: literal.digits)
  fractional : Fractional literal.fractional
  exponential : Exponential literal.exponential
  float : literal.fractional ≠ [] ∨ literal.exponential ≠ []

end Literal

/-- A value that does not begin with a brace or a bracket is neither an object nor an array. -/
theorem value_scalar (parseFloat : String → Real) (limit : ℕ) {c : Char} (hbrace : c ≠ '{')
    (hbracket : c ≠ '[') : value parseFloat limit c = scalar parseFloat c := by
  cases limit with
  | zero => exact if_neg fun h => h.elim hbrace hbracket
  | succ limit => rw [value, if_neg hbrace, if_neg hbracket]

/-- The first character of a number is not that of any other value. -/
theorem value_digit (parseFloat : String → Real) (limit : ℕ) {c : Char} (h : isDigit c = true) :
    value parseFloat limit c = number parseFloat false c := by
  have hne {c' : Char} (h' : isDigit c' = false) : c ≠ c' := by
    rintro rfl
    simp [h] at h'
  rw [value_scalar parseFloat limit (hne rfl) (hne rfl), scalar, if_neg (hne rfl), if_neg (hne rfl),
    if_neg (hne rfl), if_neg (hne rfl), if_neg (hne rfl), if_neg (hne rfl), if_neg (hne rfl)]

theorem value_minus (parseFloat : String → Real) (limit : ℕ) :
    value parseFloat limit '-' = char.bind fun c =>
      if c = 'I' then word ['n', 'f', 'i', 'n', 'i', 't', 'y'] (.real (.infinite true))
      else number parseFloat true c := by
  rw [value_scalar parseFloat limit (by decide) (by decide)]
  rfl

theorem isDigit_of_digits {c : Char} {rest : List Char} (h : Digits (c :: rest)) :
    isDigit c = true := by
  cases h with
  | zero => rfl
  | many _ hc _ => exact hc

/-- A number with its sign. -/
theorem reads_literal (parseFloat : String → Real) (limit : ℕ) (negative : Bool) {c : Char}
    {digits fractional exponential : List Char} (hdigits : Digits (c :: digits))
    (hfractional : Fractional fractional) (hexponential : Exponential exponential) :
    Reads Stops (char.bind (value parseFloat limit))
      ((if negative then ['-'] else []) ++ (c :: digits) ++ fractional ++ exponential)
      (numberOf parseFloat negative (c :: digits) fractional exponential) := by
  have hnumber := fun negative => reads_number parseFloat negative hdigits hfractional hexponential
  have hdigit : isDigit c = true := isDigit_of_digits hdigits
  rw [List.append_assoc, List.append_assoc, List.cons_append]
  cases negative with
  | false =>
      refine (reads_char c).bind ?_ fun _ _ => trivial
      rw [value_digit parseFloat limit hdigit]
      exact hnumber false
  | true =>
      have hne : c ≠ 'I' := by
        rintro rfl
        cases hdigit
      refine (reads_char '-').bind ?_ fun _ _ => trivial
      rw [value_minus]
      refine (reads_char c).bind ?_ fun _ _ => trivial
      rw [if_neg hne]
      exact hnumber true

theorem reads_printInt (parseFloat : String → Real) (limit : ℕ) (number : Int) :
    Reads Stops (char.bind (value parseFloat limit)) (printInt number) (.num number) := by
  cases htext : Nat.toDigits 10 number.natAbs with
  | nil => exact absurd htext Nat.toDigits_ne_nil
  | cons c digits =>
      have hdigits : Digits (c :: digits) := htext ▸ digits_toDigits number.natAbs
      have hvalue : natOfDigits (c :: digits) = number.natAbs := htext ▸ natOfDigits_toDigits _
      have hread := reads_literal parseFloat limit (decide (number < 0)) hdigits .none .none
      have hnumber : numberOf parseFloat (decide (number < 0)) (c :: digits) [] [] =
          .num number := by
        rw [numberOf, if_pos ⟨rfl, rfl⟩, hvalue]
        congr 1
        by_cases h : number < 0
        · rw [decide_eq_true h, if_pos rfl]
          omega
        · rw [decide_eq_false h, if_neg Bool.false_ne_true]
          omega
      rw [hnumber] at hread
      simpa [printInt, htext] using hread

namespace Coding

variable {d : Coding}

/-- The number is written as a literal that is read back. -/
structure Exact (d : Coding) (value : Rat) : Prop where
  literal : ∃ literal : Literal, literal.WellFormed ∧ d.reprFloat value = literal.text
  inverse : d.parseFloat (String.ofList (d.reprFloat value)) = .finite value

theorem reads_reprFloat {number : Rat} (h : d.Exact number) (limit : ℕ) :
    Reads Stops (char.bind (value d.parseFloat limit)) (d.reprFloat number)
      (.real (.finite number)) := by
  obtain ⟨literal, hliteral, htext⟩ := h.literal
  have hinverse := h.inverse
  rw [htext] at hinverse ⊢
  have hread := reads_literal d.parseFloat limit literal.negative hliteral.digits
    hliteral.fractional hliteral.exponential
  have hfloat : ¬ (literal.fractional = [] ∧ literal.exponential = []) :=
    fun h => hliteral.float.elim (· h.1) (· h.2)
  rw [numberOf, if_neg hfloat] at hread
  rw [← hinverse]
  exact hread

/-! ## Values -/

/-- The values that `json.dumps` is given: no object has a key twice, none is nested in more than
`limit` others, and its floating-point numbers are written exactly. -/
inductive Fits (d : Coding) : ℕ → Json → Prop
  | null {limit : ℕ} : Fits d limit .null
  | bool {limit : ℕ} (value : Bool) : Fits d limit (.bool value)
  | num {limit : ℕ} (value : Int) : Fits d limit (.num value)
  | finite {limit : ℕ} {value : Rat} (h : d.Exact value) : Fits d limit (.real (.finite value))
  | infinite {limit : ℕ} (negative : Bool) : Fits d limit (.real (.infinite negative))
  | nan {limit : ℕ} : Fits d limit (.real .nan)
  | str {limit : ℕ} (text : String) : Fits d limit (.str text)
  | arr {limit : ℕ} {values : List Json} (h : ∀ value ∈ values, Fits d limit value) :
      Fits d (limit + 1) (.arr values)
  | obj {limit : ℕ} {fields : List (String × Json)} (hkeys : (fields.map Prod.fst).Nodup)
      (h : ∀ field ∈ fields, Fits d limit field.2) : Fits d (limit + 1) (.obj fields)

/-- The first character of a value. -/
structure Opening (c : Char) : Prop where
  isWs : isWs c = false
  bracket : c ≠ ']'
  brace : c ≠ '}'
  mark : c ≠ '\ufeff'

instance (c : Char) : Decidable (Opening c) :=
  decidable_of_iff (JsonText.isWs c = false ∧ c ≠ ']' ∧ c ≠ '}' ∧ c ≠ '\ufeff')
    ⟨fun h => ⟨h.1, h.2.1, h.2.2.1, h.2.2.2⟩, fun h => ⟨h.1, h.2, h.3, h.4⟩⟩

/-- A text that begins as a value does. -/
def Opens (text : List Char) : Prop := ∃ c rest, text = c :: rest ∧ Opening c

theorem opens_cons {c : Char} (rest : List Char) (h : Opening c) : Opens (c :: rest) :=
  ⟨c, rest, rfl, h⟩

theorem opening_of_isDigit {c : Char} (h : isDigit c = true) : Opening c := by
  have hne {c' : Char} (h' : isDigit c' = false) : c ≠ c' := by
    rintro rfl
    simp [h] at h'
  refine ⟨?_, hne rfl, hne rfl, hne rfl⟩
  rw [isWs, beq_false_of_ne (hne rfl), beq_false_of_ne (hne rfl), beq_false_of_ne (hne rfl),
    beq_false_of_ne (hne rfl)]
  rfl

theorem opens_literal {negative : Bool} {c : Char} {digits : List Char} (h : Digits (c :: digits))
    (rest : List Char) : Opens ((if negative then ['-'] else []) ++ (c :: digits) ++ rest) := by
  cases negative with
  | true => exact opens_cons _ (by decide)
  | false => exact opens_cons _ (opening_of_isDigit (isDigit_of_digits h))

theorem opens_printInt (number : Int) : Opens (printInt number) := by
  cases htext : Nat.toDigits 10 number.natAbs with
  | nil => exact absurd htext Nat.toDigits_ne_nil
  | cons c digits =>
      have hdigits : Digits (c :: digits) := htext ▸ digits_toDigits number.natAbs
      have hopens : Opens ((if decide (number < 0) then ['-'] else []) ++ (c :: digits) ++ []) :=
        opens_literal hdigits []
      simpa [printInt, htext] using hopens

theorem opens_reprFloat {number : Rat} (h : d.Exact number) : Opens (d.reprFloat number) := by
  obtain ⟨literal, hliteral, htext⟩ := h.literal
  rw [htext, Literal.text, List.append_assoc]
  exact opens_literal hliteral.digits _

theorem opens_dumps {limit : ℕ} {json : Json} (h : Fits d limit json) : Opens (d.dumps json) := by
  cases h with
  | num number => exact opens_printInt number
  | finite h => exact opens_reprFloat h
  | bool value => cases value <;> exact opens_cons _ (by decide)
  | infinite negative => cases negative <;> exact opens_cons _ (by decide)
  | @arr _ values _ => cases values <;> exact opens_cons _ (by decide)
  | @obj _ fields _ _ => cases fields <;> exact opens_cons _ (by decide)
  | _ => exact opens_cons _ (by decide)

/-! ## Items and members -/

/-- After an item comes a comma or the end, neither of which goes on with a number. -/
theorem stops_cons {c : Char} (h : isDigit c = false) (hpoint : c ≠ '.')
    (hexponent : c ≠ 'e' ∧ c ≠ 'E') (rest : List Char) : Stops (c :: rest) :=
  ⟨fun c' hc => by cases hc; exact h, by simpa using hpoint, by simpa using hexponent⟩

/-- White space ends before this text. -/
def NoWs (rest : List Char) : Prop := ∀ c ∈ rest.head?, isWs c = false

theorem noWs_of_opens {text : List Char} (h : Opens text) (rest : List Char) :
    NoWs (text ++ rest) := by
  obtain ⟨c, more, rfl, hc⟩ := h
  exact fun c' hc' => by cases hc'; exact hc.isWs

/-- White space that is not there. -/
theorem Reads.skip {β : Type} {stops : List Char → Prop} {next : List Char → Reader β}
    {text : List Char} {value : β} (h : Reads stops (next []) text value)
    (hstops : ∀ rest, stops rest → NoWs (text ++ rest)) :
    Reads stops (skip.bind next) text value := by
  have hskip : Reads NoWs JsonText.skip [] [] := reads_takeWhile (by simp) fun _ hrest => hrest
  exact hskip.bind h hstops

theorem reads_space : Reads NoWs skip [' '] [' '] :=
  reads_takeWhile (by simp [isWs]) fun _ hrest => hrest

section Items

variable {α : Type} {item : Reader α} {text : List Char} {first : α}

theorem reads_following (close : Char) (h : Reads Stops item text first) (hopens : Opens text) :
    Reads Stops (following close item) ([',', ' '] ++ text) (some first) := by
  refine Reads.skip ?_ fun _ _ => by simp [NoWs, isWs]
  refine (reads_char ',').bind ?_ fun _ _ => trivial
  rw [if_pos rfl]
  refine reads_space.bind (h.map some) fun rest _ => noWs_of_opens hopens rest

theorem reads_close {close : Char} (hclose : isWs close = false) (hcomma : close ≠ ',') :
    Reads anything (following close item) [close] none := by
  refine Reads.skip ?_ fun _ _ => by simp [NoWs, hclose]
  refine (reads_char close).bind_nil ?_
  rw [if_neg hcomma, if_pos rfl]
  exact reads_pure _

/-- The items after the first one, and the end. -/
theorem reads_items {β : Type} {close : Char} {item : Reader α} (hkeeps : Keeps item)
    (hclose : isWs close = false) (hcomma : close ≠ ',') (hstops : ∀ rest, Stops (close :: rest))
    (first : α) {others : List β} {texts : β → List Char} {valueOf : β → α}
    (h : ∀ x ∈ others, Reads Stops item (texts x) (valueOf x))
    (hopens : ∀ x ∈ others, Opens (texts x)) :
    Reads anything (items close item first)
      ((others.flatMap fun x => [',', ' '] ++ texts x) ++ [close])
      (first :: others.map valueOf) := by
  have hcollects : Collects Stops (following close item) (decodeError "Expecting value")
      (others.flatMap fun x => [',', ' '] ++ texts x) (others.flatMap fun x => [valueOf x]) := by
    refine .flatMap (fun x hx => ?_) fun x _ rest _ => ?_
    · exact collects_step (shrinks_following close hkeeps)
        (reads_following close (h x hx) (hopens x hx))
    · exact stops_cons rfl (by decide) (by decide) _
  have hmap : (others.flatMap fun x => [valueOf x]) = others.map valueOf := by
    rw [List.map_eq_flatMap]
  have hread := hcollects.reads (reads_close hclose hcomma) fun rest _ => hstops rest
  rw [hmap] at hread
  exact hread.map fun others => first :: others

end Items

/-- A member, with its key. -/
theorem reads_member {value : Char → Reader Json} {text : List Char} {json : Json}
    (h : Reads Stops (char.bind value) text json) (hopens : Opens text) (key : String) :
    Reads Stops (char.bind (member value)) (printString key ++ ([':', ' '] ++ text))
      (key, json) := by
  have hcolon : Reads Stops (char.bind fun colon =>
      if colon = ':' then
        JsonText.skip.bind fun _ => (char.bind value).bind fun item => Scanner.pure (key, item)
      else refuse "Expecting ':' delimiter") ([':'] ++ ([' '] ++ text)) (key, json) := by
    refine (reads_char ':').bind ?_ fun _ _ => trivial
    rw [if_pos rfl]
    exact reads_space.bind (h.map fun item => (key, item)) fun rest _ => noWs_of_opens hopens rest
  rw [printString, List.cons_append]
  refine (reads_char '"').bind ?_ fun _ _ => trivial
  rw [member, if_pos rfl]
  refine (reads_string key).bind (Reads.skip hcolon ?_) fun _ _ => trivial
  exact fun _ _ => by simp [NoWs, isWs]

/-- A dictionary without a key twice is made of its members. -/
theorem toDict_of_nodup {fields : List (String × Json)} (h : (fields.map Prod.fst).Nodup) :
    toDict fields = fields := by
  -- by induction on the members that are still to be entered
  have hfold (before : List (String × Json)) (hall : ((before ++ fields).map Prod.fst).Nodup) :
      fields.foldl setItem before = before ++ fields := by
    clear h
    induction fields generalizing before with
    | nil => rw [List.foldl_nil, List.append_nil]
    | cons field fields ih =>
        have hnew : before.any (·.1 == field.1) = false := by
          rw [List.any_eq_false]
          intro other hother
          rw [List.map_append, List.nodup_append] at hall
          simpa using hall.2.2 _ (List.mem_map_of_mem hother) _ (by simp)
        have hset : setItem before field = before ++ [field] := by
          rw [setItem, hnew, if_neg Bool.false_ne_true]
        rw [List.foldl_cons, hset, ih _ (by simpa using hall), List.append_assoc,
          List.singleton_append]
  simpa [toDict] using hfold [] (by simpa using h)

theorem dumpsItems_eq (values : List Json) :
    d.dumpsItems values = values.flatMap fun value => [',', ' '] ++ d.dumps value := by
  induction values with
  | nil => simp only [dumpsItems, List.flatMap_nil]
  | cons value values ih => simp only [dumpsItems, List.flatMap_cons, ih]

/-- A member as it is written. -/
def dumpsMember (d : Coding) (field : String × Json) : List Char :=
  printString field.1 ++ ([':', ' '] ++ d.dumps field.2)

theorem dumpsMembers_eq (fields : List (String × Json)) :
    d.dumpsMembers fields = fields.flatMap fun field => [',', ' '] ++ d.dumpsMember field := by
  induction fields with
  | nil => simp only [dumpsMembers, List.flatMap_nil]
  | cons field fields ih => simp only [dumpsMembers, dumpsMember, List.flatMap_cons, ih]

/-- The reader that goes on from a first character. -/
theorem reads_of_char {α : Type} {stops : List Char → Prop} {next : Char → Reader α} {c : Char}
    {text : List Char} {value : α} (h : Reads stops (char.bind next) (c :: text) value) :
    Reads stops (next c) text value := h

theorem reads_word (rest : List Char) (json : Json) :
    Reads anything (word rest json) rest json := by
  induction rest with
  | nil => exact reads_pure _
  | cons c rest ih =>
      refine (reads_char c).bind ?_ fun _ _ => trivial
      rw [if_pos rfl]
      exact ih

/-- Items are followed by a comma or the end. -/
theorem stops_others {β : Type} (texts : β → List Char) (others : List β) {close : Char}
    (hclose : ∀ rest, Stops (close :: rest)) (rest : List Char) :
    Stops (((others.flatMap fun x => [',', ' '] ++ texts x) ++ [close]) ++ rest) := by
  cases others with
  | nil => exact hclose rest
  | cons x others => exact stops_cons rfl (by decide) (by decide) _

theorem reads_array (limit : ℕ) {values : List Json}
    (hopens : ∀ item ∈ values, Opens (d.dumps item))
    (h : ∀ item ∈ values, Reads Stops (char.bind (value d.parseFloat limit)) (d.dumps item) item) :
    Reads anything (array (value d.parseFloat limit)) ((d.dumps (.arr values)).drop 1)
      (.arr values) := by
  have hend : ∀ rest, Stops (']' :: rest) := stops_cons rfl (by decide) (by decide)
  cases values with
  | nil =>
      refine Reads.skip ((reads_char ']').bind_nil ?_) fun _ _ => by simp [NoWs, dumps, isWs]
      exact reads_pure _
  | cons first rest =>
      obtain ⟨c, more, htext, hc⟩ := hopens first List.mem_cons_self
      have hfirst := h first List.mem_cons_self
      have hitems : Reads anything (items ']' (char.bind (value d.parseFloat limit)) first)
          (d.dumpsItems rest ++ [']']) (first :: rest) := by
        rw [dumpsItems_eq]
        have hread := reads_items (shrinks_char.keeps.bind (keeps_value d.parseFloat limit)) rfl
          (by decide) hend first (fun x hx => h x (List.mem_cons_of_mem _ hx))
          fun x hx => hopens x (List.mem_cons_of_mem _ hx)
        rwa [List.map_id'] at hread
      have hstops : ∀ tail, anything tail → Stops (d.dumpsItems rest ++ [']'] ++ tail) := by
        intro tail _
        rw [dumpsItems_eq]
        exact stops_others _ _ hend tail
      -- the first item is read after the bracket, without a comma before it
      rw [htext] at hfirst
      simp only [dumps, htext, List.drop_succ_cons, List.drop_zero, List.cons_append]
      refine Reads.skip ((reads_char c).bind ?_ fun _ _ => trivial) fun _ _ => ?_
      · rw [if_neg hc.bracket]
        exact (reads_of_char hfirst).bind (hitems.map Json.arr) hstops
      · simpa [NoWs] using hc.isWs

theorem reads_object (limit : ℕ) {fields : List (String × Json)}
    (hkeys : (fields.map Prod.fst).Nodup) (hopens : ∀ field ∈ fields, Opens (d.dumps field.2))
    (h : ∀ field ∈ fields,
      Reads Stops (char.bind (value d.parseFloat limit)) (d.dumps field.2) field.2) :
    Reads anything (object (value d.parseFloat limit)) ((d.dumps (.obj fields)).drop 1)
      (.obj fields) := by
  have hend : ∀ rest, Stops ('}' :: rest) := stops_cons rfl (by decide) (by decide)
  cases fields with
  | nil =>
      refine Reads.skip ((reads_char '}').bind_nil ?_) fun _ _ => by simp [NoWs, dumps, isWs]
      exact reads_pure _
  | cons first rest =>
      have hmember (field : String × Json) (hfield : field ∈ first :: rest) :
          Reads Stops (char.bind (member (value d.parseFloat limit))) (d.dumpsMember field) field :=
        reads_member (h field hfield) (hopens field hfield) field.1
      have hitems : Reads anything (items '}' (char.bind (member (value d.parseFloat limit))) first)
          (d.dumpsMembers rest ++ ['}']) (first :: rest) := by
        rw [dumpsMembers_eq]
        have hread := reads_items
          (shrinks_char.keeps.bind fun c => keeps_member (keeps_value d.parseFloat limit) c) rfl
          (by decide) hend first (fun x hx => hmember x (List.mem_cons_of_mem _ hx))
          fun x hx => opens_cons _ (by decide)
        rwa [List.map_id'] at hread
      have hstops : ∀ tail, anything tail → Stops (d.dumpsMembers rest ++ ['}'] ++ tail) := by
        intro tail _
        rw [dumpsMembers_eq]
        exact stops_others _ _ hend tail
      have htext : (d.dumps (.obj (first :: rest))).drop 1 =
          d.dumpsMember first ++ (d.dumpsMembers rest ++ ['}']) := by
        simp only [dumps, dumpsMember, List.drop_succ_cons, List.drop_zero, List.append_assoc]
      have hfirst := hmember first List.mem_cons_self
      rw [htext]
      rw [dumpsMember, printString, List.cons_append] at hfirst ⊢
      refine Reads.skip ((reads_char '"').bind ?_ fun _ _ => trivial) fun _ _ => by
        simp [NoWs, isWs]
      rw [if_neg (by decide)]
      have hobject := hitems.map fun members => Json.obj (toDict members)
      -- keys that differ do not overwrite each other
      rw [toDict_of_nodup hkeys] at hobject
      exact (reads_of_char hfirst).bind hobject hstops

/-- **What is encoded is decoded again**, whatever follows it. -/
theorem reads_dumps {limit : ℕ} {json : Json} (h : Fits d limit json) :
    Reads Stops (char.bind (value d.parseFloat limit)) (d.dumps json) json := by
  have hword {c : Char} {rest : List Char} {json : Json} (limit : ℕ)
      (hvalue : value d.parseFloat limit c = word rest json) :
      Reads Stops (char.bind (value d.parseFloat limit)) (c :: rest) json := by
    refine (reads_char c).bind (hvalue ▸ (reads_word rest json).mono fun _ _ => trivial) ?_
    exact fun _ _ => trivial
  -- by induction on how deep the value is nested
  induction h with
  | @null limit => exact hword limit (value_scalar _ _ (by decide) (by decide))
  | @bool limit value =>
      cases value <;> exact hword limit (value_scalar _ _ (by decide) (by decide))
  | @num limit number => exact reads_printInt d.parseFloat limit number
  | @finite limit number h => exact reads_reprFloat h limit
  | @infinite limit negative =>
      cases negative with
      | false => exact hword limit (value_scalar _ _ (by decide) (by decide))
      | true =>
          refine (reads_char '-').bind ?_ fun _ _ => trivial
          rw [value_minus]
          refine (reads_char 'I').bind ?_ fun _ _ => trivial
          exact (reads_word _ _).mono fun _ _ => trivial
  | @nan limit => exact hword limit (value_scalar _ _ (by decide) (by decide))
  | @str limit text =>
      refine (reads_char '"').bind ?_ fun _ _ => trivial
      rw [value_scalar _ _ (by decide) (by decide)]
      exact ((reads_string text).map Json.str).mono fun _ _ => trivial
  | @arr limit values h ih =>
      have hread := reads_array limit (fun value hvalue => opens_dumps (h value hvalue)) ih
      have htext : d.dumps (.arr values) = '[' :: (d.dumps (.arr values)).drop 1 := by
        cases values <;> simp only [dumps, List.drop_succ_cons, List.drop_zero]
      rw [htext]
      exact (reads_char '[').bind (hread.mono fun _ _ => trivial) fun _ _ => trivial
  | @obj limit fields hkeys h ih =>
      have hread := reads_object limit hkeys (fun field hfield => opens_dumps (h field hfield)) ih
      have htext : d.dumps (.obj fields) = '{' :: (d.dumps (.obj fields)).drop 1 := by
        cases fields with
        | nil => simp only [dumps, List.drop_succ_cons, List.drop_zero]
        | cons first rest => simp only [dumps, List.drop_succ_cons, List.drop_zero]
      rw [htext]
      exact (reads_char '{').bind (hread.mono fun _ _ => trivial) fun _ _ => trivial

/-- `json.loads(json.dumps(value))` is the value. -/
theorem loads_dumps {json : Json} (h : Fits d (d.limit + 1) json) :
    loads d.toDecoding (d.dumps json) = .ok json := by
  obtain ⟨c, rest, htext, hc⟩ := opens_dumps h
  have hdocument : document d.toDecoding (d.dumps json) = .ok (json, []) := by
    have hread : Reads Stops (document d.toDecoding) (d.dumps json) json :=
      Reads.skip (reads_dumps h) fun rest _ => noWs_of_opens (opens_dumps h) rest
    have hend : Stops [] := ⟨by simp [NoDigit], by simp, by simp⟩
    simpa using hread [] hend
  unfold loads
  rw [htext] at hdocument ⊢
  split
  · rename_i heq
    exact absurd (List.cons.inj heq).1 hc.mark
  · rw [hdocument]
    rfl

end Coding

end PgHa.JsonText
