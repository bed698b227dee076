import Mathlib.Data.List.TakeWhile
import PgHa.Model.Interface
import PgHa.Text.Scanner

/-!
# `json.loads`

The decoder of the standard library, with its recursion limit.  The rounding of
a floating-point number is a parameter.  A text of the model cannot hold half of
a surrogate pair, so an escape that stands for one is read as U+FFFD.

An object knows where it ends: `loads_of_cut` says that a beginning of its text
that leaves more than white space out is refused with a `ValueError`.
-/

namespace PgHa.JsonText

open Scanner

/-- Scanners of texts. -/
abbrev Reader (α : Type) : Type := Scanner Char Exc α

/-- `JSONDecodeError`, without the position. -/
def decodeError (message : String) : Exc := ⟨.valueError, message⟩

def refuse {α : Type} (message : String) : Reader α := fail (decodeError message)

def recursionError : Exc :=
  ⟨.runtimeError, "maximum recursion depth exceeded while decoding a JSON object"⟩

/-- White space between tokens. -/
def isWs (c : Char) : Bool := c == ' ' || c == '\t' || c == '\n' || c == '\r'

def skip : Reader (List Char) := takeWhile isWs

def char : Reader Char := token (decodeError "Expecting value")

/-! ## Strings -/

def hexValue (c : Char) : Option ℕ :=
  if '0' ≤ c ∧ c ≤ '9' then some (c.toNat - '0'.toNat)
  else if 'a' ≤ c ∧ c ≤ 'f' then some (c.toNat - 'a'.toNat + 10)
  else if 'A' ≤ c ∧ c ≤ 'F' then some (c.toNat - 'A'.toNat + 10)
  else none

/-- The hexadecimal digits of an escape, after those that make up `read`. -/
def hexDigits (read : ℕ) : ℕ → Reader ℕ
  | 0 => pure read
  | count + 1 => char.bind fun c =>
      match hexValue c with
      | some digit => hexDigits (16 * read + digit) count
      | none => refuse "Invalid \\uXXXX escape"

def simpleEscape : Char → Option Char
  | '"' => some '"'
  | '\\' => some '\\'
  | '/' => some '/'
  | 'b' => some '\x08'
  | 'f' => some '\x0c'
  | 'n' => some '\n'
  | 'r' => some '\r'
  | 't' => some '\t'
  | _ => none

/-- What a backslash stands for, with the characters after it. -/
def escape : Reader ℕ := char.bind fun c =>
  match simpleEscape c with
  | some plain => pure plain.toNat
  | none => if c = 'u' then hexDigits 0 4 else refuse "Invalid \\escape"

/-- The next code of a string, or none at its closing quote. -/
def stringStep : Reader (Option ℕ) := char.bind fun c =>
  if c = '"' then pure none
  else if c = '\\' then escape.bind fun code => pure (some code)
  else if c.toNat < 0x20 then refuse "Invalid control character at"
  else pure (some c.toNat)

/-- The characters that the codes stand for; the two halves of a surrogate pair are one. -/
def joinSurrogates : List ℕ → List Char
  | high :: low :: rest =>
      if 0xd800 ≤ high ∧ high ≤ 0xdbff ∧ 0xdc00 ≤ low ∧ low ≤ 0xdfff then
        Char.ofNat (0x10000 + (high - 0xd800) * 0x400 + (low - 0xdc00)) :: joinSurrogates rest
      else
        (if high.isValidChar then Char.ofNat high else '\ufffd') :: joinSurrogates (low :: rest)
  | [code] => [if code.isValidChar then Char.ofNat code else '\ufffd']
  | [] => []

/-- A string after its opening quote. -/
def string : Reader String :=
  (collectAll stringStep (decodeError "Unterminated string starting at")).bind fun codes =>
    pure (String.ofList (joinSurrogates codes))

/-! ## Numbers -/

def isDigit (c : Char) : Bool := '0' ≤ c && c ≤ '9'

def natOfDigits (digits : List Char) : ℕ :=
  digits.foldl (fun value digit => 10 * value + (digit.toNat - '0'.toNat)) 0

/-- `text`, with the digits that follow. -/
def digitsAfter (text : List Char) : Reader (List Char) :=
  (takeWhile isDigit).bind fun digits => pure (text ++ digits)

/-- The digits before the point, of which `c` is the first one. -/
def integer (c : Char) : Reader (List Char) :=
  if c = '0' then pure ['0']
  else if isDigit c then digitsAfter [c]
  else refuse "Expecting value"

/-- A point counts only with a digit after it. -/
def fraction : Reader (List Char)
  | c :: digit :: rest =>
      if c = '.' ∧ isDigit digit then digitsAfter [c, digit] rest else .ok ([], c :: digit :: rest)
  | input => .ok ([], input)

/-- So does the sign of an exponent. -/
def signedExponent (e sign : Char) : Reader (List Char)
  | digit :: rest =>
      if (e = 'e' ∨ e = 'E') ∧ (sign = '-' ∨ sign = '+') ∧ isDigit digit then
        digitsAfter [e, sign, digit] rest
      else .ok ([], e :: sign :: digit :: rest)
  | [] => .ok ([], [e, sign])

def exponent : Reader (List Char)
  | e :: c :: rest =>
      if (e = 'e' ∨ e = 'E') ∧ isDigit c then digitsAfter [e, c] rest else signedExponent e c rest
  | input => .ok ([], input)

/-- The number that is written like this. -/
def numberOf (parseFloat : String → Real) (negative : Bool)
    (digits fractional exponential : List Char) :
    Json :=
  if fractional = [] ∧ exponential = [] then
    .num (if negative then -(natOfDigits digits : Int) else natOfDigits digits)
  else
    .real (parseFloat (String.ofList ((if negative then ['-'] else []) ++ digits ++ fractional ++
      exponential)))

/-- A number, from its first digit on. -/
def number (parseFloat : String → Real) (negative : Bool) (c : Char) : Reader Json :=
  (integer c).bind fun digits => fraction.bind fun fractional => exponent.bind fun exponential =>
    pure (numberOf parseFloat negative digits fractional exponential)

/-! ## Values -/

/-- A word, after its first letter. -/
def word (rest : List Char) (value : Json) : Reader Json :=
  match rest with
  | [] => pure value
  | c :: rest => char.bind fun c' => if c' = c then word rest value else refuse "Expecting value"

/-- Everything but objects and arrays, with its first character. -/
def scalar (parseFloat : String → Real) (c : Char) : Reader Json :=
  if c = '"' then string.bind fun text => pure (.str text)
  else if c = 'n' then word ['u', 'l', 'l'] .null
  else if c = 't' then word ['r', 'u', 'e'] (.bool true)
  else if c = 'f' then word ['a', 'l', 's', 'e'] (.bool false)
  else if c = 'N' then word ['a', 'N'] (.real .nan)
  else if c = 'I' then word ['n', 'f', 'i', 'n', 'i', 't', 'y'] (.real (.infinite false))
  else if c = '-' then char.bind fun c =>
    if c = 'I' then word ['n', 'f', 'i', 'n', 'i', 't', 'y'] (.real (.infinite true))
    else number parseFloat true c
  else number parseFloat false c

/-- What follows an item: a comma and another item, or the end. -/
def following {α : Type} (close : Char) (item : Reader α) : Reader (Option α) :=
  skip.bind fun _ => char.bind fun c =>
    if c = ',' then skip.bind fun _ => item.bind fun value => pure (some value)
    else if c = close then pure none
    else refuse "Expecting ',' delimiter"

/-- The items after `first`. -/
def items {α : Type} (close : Char) (item : Reader α) (first : α) : Reader (List α) :=
  (collectAll (following close item) (decodeError "Expecting value")).bind fun others =>
    pure (first :: others)

/-- A member of an object, with its first character; `value` reads on from the first
character of a value. -/
def member (value : Char → Reader Json) (c : Char) : Reader (String × Json) :=
  if c = '"' then
    string.bind fun key => skip.bind fun _ => char.bind fun colon =>
      if colon = ':' then
        skip.bind fun _ => (char.bind value).bind fun item => pure (key, item)
      else refuse "Expecting ':' delimiter"
  else refuse "Expecting property name enclosed in double quotes"

/-- `fields[key] = value` -/
def setItem (fields : List (String × Json)) (entry : String × Json) : List (String × Json) :=
  if fields.any (·.1 == entry.1) then
    fields.map fun field => if field.1 == entry.1 then entry else field
  else fields ++ [entry]

/-- The dictionary with these members; of several under one key the last one counts. -/
def toDict (members : List (String × Json)) : List (String × Json) := members.foldl setItem []

/-- An object, after its brace. -/
def object (value : Char → Reader Json) : Reader Json :=
  skip.bind fun _ => char.bind fun c =>
    if c = '}' then pure (.obj [])
    else (member value c).bind fun first =>
      (items '}' (char.bind (member value)) first).bind fun members =>
        pure (.obj (toDict members))

/-- An array, after its bracket. -/
def array (value : Char → Reader Json) : Reader Json :=
  skip.bind fun _ => char.bind fun c =>
    if c = ']' then pure (.arr [])
    else (value c).bind fun first =>
      (items ']' (char.bind value) first).bind fun values => pure (.arr values)

/-- A value, with its first character, inside of at most `limit` others. -/
def value (parseFloat : String → Real) : ℕ → Char → Reader Json
  | 0, c => if c = '{' ∨ c = '[' then fail recursionError else scalar parseFloat c
  | limit + 1, c =>
      if c = '{' then object (value parseFloat limit)
      else if c = '[' then array (value parseFloat limit)
      else scalar parseFloat c

/-- What the decoder depends on: how deep the recursion limit lets an object or an array be
nested, and `float(text)`. -/
structure Decoding where
  limit : ℕ
  parseFloat : String → Real

/-- A value, with the white space before it. -/
def document (d : Decoding) : Reader Json :=
  skip.bind fun _ => char.bind (value d.parseFloat (d.limit + 1))

/-- `json.loads(text)` -/
def loads (d : Decoding) (text : List Char) : Except Exc Json :=
  match text with
  | '\ufeff' :: _ => .error (decodeError "Unexpected UTF-8 BOM (decode using utf-8-sig)")
  | _ =>
      match document d text with
      | .ok (result, rest) =>
          if rest.dropWhile isWs = [] then .ok result else .error (decodeError "Extra data")
      | .error exc => .error exc

/-! ## The loops have fuel enough -/

theorem shrinks_char : Shrinks char := shrinks_token _

theorem keeps_skip : Keeps skip := keeps_takeWhile _

theorem shrinks_refuse {α : Type} (message : String) : Shrinks (refuse message : Reader α) :=
  shrinks_fail _

theorem keeps_hexDigits (count read : ℕ) : Keeps (hexDigits read count) := by
  induction count generalizing read with
  | zero => exact keeps_pure read
  | succ count ih =>
      refine shrinks_char.keeps.bind fun c => ?_
      cases hexValue c with
      | some digit => exact ih _
      | none => exact (shrinks_refuse _).keeps

theorem shrinks_stringStep : Shrinks stringStep := by
  have hescape : Keeps escape := by
    refine shrinks_char.keeps.bind fun c => ?_
    cases simpleEscape c with
    | some plain => exact keeps_pure _
    | none => exact keeps_ite (keeps_hexDigits _ _) (shrinks_refuse _).keeps
  refine shrinks_char.bind fun c => keeps_ite (keeps_pure none) (keeps_ite ?_ ?_)
  · exact hescape.bind fun code => keeps_pure _
  · exact keeps_ite (shrinks_refuse _).keeps (keeps_pure _)

theorem shrinks_following {α : Type} (close : Char) {item : Reader α} (hitem : Keeps item) :
    Shrinks (following close item) := by
  refine keeps_skip.bind_shrinks fun _ => shrinks_char.bind fun c => keeps_ite ?_ ?_
  · exact keeps_skip.bind fun _ => hitem.bind fun value => keeps_pure _
  · exact keeps_ite (keeps_pure none) (shrinks_refuse _).keeps

theorem keeps_string : Keeps string :=
  (keeps_collectAll shrinks_stringStep).bind fun _ => keeps_pure _

theorem keeps_digitsAfter (text : List Char) : Keeps (digitsAfter text) :=
  (keeps_takeWhile _).bind fun _ => keeps_pure _

theorem keeps_fraction : Keeps fraction := by
  intro input text rest h
  unfold fraction at h
  split at h
  · split at h
    · have hafter := keeps_digitsAfter _ _ _ _ h
      simp only [List.length_cons]
      omega
    · cases h
      exact Nat.le_refl _
  · cases h
    exact Nat.le_refl _

theorem keeps_exponent : Keeps exponent := by
  intro input text rest h
  unfold exponent signedExponent at h
  split at h
  · split at h
    · have hafter := keeps_digitsAfter _ _ _ _ h
      simp only [List.length_cons]
      omega
    · split at h
      · split at h
        · have hafter := keeps_digitsAfter _ _ _ _ h
          simp only [List.length_cons]
          omega
        · cases h
          exact Nat.le_refl _
      · cases h
        exact Nat.le_refl _
  · cases h
    exact Nat.le_refl _

theorem keeps_number (parseFloat : String → Real) (negative : Bool) (c : Char) :
    Keeps (number parseFloat negative c) := by
  have hinteger : Keeps (integer c) := keeps_ite (keeps_pure _)
    (keeps_ite (keeps_digitsAfter _) (shrinks_refuse _).keeps)
  exact hinteger.bind fun digits => keeps_fraction.bind fun fractional =>
    keeps_exponent.bind fun exponential => keeps_pure _

theorem keeps_word (rest : List Char) (value : Json) : Keeps (word rest value) := by
  induction rest with
  | nil => exact keeps_pure value
  | cons c rest ih =>
      exact shrinks_char.keeps.bind fun c' => keeps_ite ih (shrinks_refuse _).keeps

theorem keeps_scalar (parseFloat : String → Real) (c : Char) : Keeps (scalar parseFloat c) := by
  refine keeps_ite (keeps_string.bind fun text => keeps_pure _) ?_
  refine keeps_ite (keeps_word _ _) (keeps_ite (keeps_word _ _) (keeps_ite (keeps_word _ _) ?_))
  refine keeps_ite (keeps_word _ _) (keeps_ite (keeps_word _ _) (keeps_ite ?_ (keeps_number _ _ _)))
  exact shrinks_char.keeps.bind fun c => keeps_ite (keeps_word _ _) (keeps_number _ _ _)

theorem keeps_items {α : Type} (close : Char) {item : Reader α} (hitem : Keeps item) (first : α) :
    Keeps (items close item first) :=
  (keeps_collectAll (shrinks_following close hitem)).bind fun _ => keeps_pure _

theorem keeps_member {value : Char → Reader Json} (hvalue : ∀ c, Keeps (value c)) (c : Char) :
    Keeps (member value c) := by
  refine keeps_ite (keeps_string.bind fun key => keeps_skip.bind fun _ => ?_)
    (shrinks_refuse _).keeps
  refine shrinks_char.keeps.bind fun colon => keeps_ite ?_ (shrinks_refuse _).keeps
  exact keeps_skip.bind fun _ => (shrinks_char.keeps.bind hvalue).bind fun item => keeps_pure _

/-- No value is longer than its text, so no loop of the decoder runs out of fuel. -/
theorem keeps_value (parseFloat : String → Real) (limit : ℕ) (c : Char) :
    Keeps (value parseFloat limit c) := by
  -- by induction on how deep the value may nest
  induction limit generalizing c with
  | zero => exact keeps_ite (shrinks_fail _).keeps (keeps_scalar _ _)
  | succ limit ih =>
      have hmember (c : Char) : Keeps (member (value parseFloat limit) c) := keeps_member ih c
      refine keeps_ite ?_ (keeps_ite ?_ (keeps_scalar _ _))
      · refine keeps_skip.bind fun _ => shrinks_char.keeps.bind fun c => keeps_ite (keeps_pure _) ?_
        refine (hmember c).bind fun first => ?_
        exact (keeps_items _ (shrinks_char.keeps.bind hmember) _).bind fun members => keeps_pure _
      · refine keeps_skip.bind fun _ => shrinks_char.keeps.bind fun c => keeps_ite (keeps_pure _) ?_
        refine (ih c).bind fun first => ?_
        exact (keeps_items _ (shrinks_char.keeps.bind ih) _).bind fun values => keeps_pure _

theorem collect_stringStep_eq {fuel : ℕ} {input : List Char}
    (hfuel : input.length < fuel) (exc : Exc) :
    collect stringStep exc fuel input = collectAll stringStep exc input :=
  collect_eq shrinks_stringStep hfuel

theorem collect_following_eq (close : Char) (parseFloat : String → Real) (limit : ℕ) {fuel : ℕ}
    {input : List Char} (hfuel : input.length < fuel) (exc : Exc) :
    collect (following close (char.bind (value parseFloat limit))) exc fuel input =
      collectAll (following close (char.bind (value parseFloat limit))) exc input :=
  collect_eq (shrinks_following close
    (shrinks_char.keeps.bind (keeps_value parseFloat limit))) hfuel

/-! ## A part of the text -/

def isDecodeError (exc : Exc) : Prop := exc.cls = .valueError

/-- Where a number may stop that goes on in the rest of the text. -/
def Dangling (left : List Char) : Prop :=
  left = [] ∨ ∃ c rest, left = c :: rest ∧ (c = '.' ∨ c = 'e' ∨ c = 'E')

/-- A part of the text makes the reader fail, or stop where `stuck` says, if it does not go as
far as the reader. -/
abbrev Cuts {α : Type} (stuck : α → List Char → Prop) (reader : Reader α) : Prop :=
  Cut isDecodeError stuck reader reader

theorem isDecodeError_decodeError (message : String) : isDecodeError (decodeError message) := rfl

theorem cut_char {stuck : Char → List Char → Prop} : Cuts stuck char :=
  cut_token (isDecodeError_decodeError _)

theorem cut_refuse {α : Type} {stuck : α → List Char → Prop} (message : String) :
    Cuts stuck (refuse message) := cut_fail _

theorem cut_hexDigits (count read : ℕ) : Cuts nowhere (hexDigits read count) := by
  induction count generalizing read with
  | zero => exact cut_pure read
  | succ count ih =>
      refine cut_char.then fun c => ?_
      cases hexValue c with
      | some digit => exact ih _
      | none => exact cut_refuse _

theorem cut_stringStep : Cuts nowhere stringStep := by
  have hescape : Cuts nowhere escape := by
    refine cut_char.then fun c => ?_
    cases simpleEscape c with
    | some plain => exact cut_pure _
    | none => exact cut_ite (cut_hexDigits _ _) (cut_refuse _)
  refine cut_char.then fun c => cut_ite (cut_pure none) (cut_ite ?_ ?_)
  · exact hescape.then fun code => cut_pure _
  · exact cut_ite (cut_refuse _) (cut_pure _)

theorem cut_string : Cuts nowhere string := by
  have hstep : Cuts (fun value left => value.isSome ∧ (fun _ => False) left) stringStep :=
    cut_stringStep.weaken
  exact (cut_collectAll (isDecodeError_decodeError _) hstep fun left hleft => hleft.elim).then
    fun codes => cut_pure _

/-- A run of characters stops at the end of the part. -/
theorem cut_run {p : Char → Bool} : Cuts (fun _ left => left = []) (takeWhile p) :=
  cut_takeWhile fun _ => rfl

theorem cut_digitsAfter (text : List Char) : Cuts (fun _ left => left = []) (digitsAfter text) := by
  refine cut_run.bind (fun digits => cut_pure _) ?_
  rintro digits left rfl
  exact .inr ⟨_, _, rfl, rfl⟩

theorem cut_integer (c : Char) : Cuts (fun _ left => left = []) (integer c) :=
  cut_ite (cut_pure _) (cut_ite (cut_digitsAfter _) (cut_refuse _))

/-- What neither the part nor the whole text is read of. -/
theorem cut_of_unread {α : Type} {stuck : α → List Char → Prop} {reader : Reader α}
    {first more rest : List Char} {value unread : α}
    (hwhole : reader (first ++ more) = .ok (unread, first ++ more))
    (hpart : reader first = .ok (unread, first))
    (hok : reader (first ++ more) = .ok (value, rest)) :
    Halts isDecodeError stuck reader first ∨
      ∃ left, reader first = .ok (value, left) ∧ rest = left ++ more := by
  rw [hwhole] at hok
  cases hok
  exact .inr ⟨first, hpart, rfl⟩

/-- Where the digits of a number are read from, in the part and in the whole text. -/
theorem cut_of_digits {reader : Reader (List Char)} {stuck : List Char → List Char → Prop}
    {first more rest after text value : List Char} (hstuck : ∀ value, stuck value [])
    (hwhole : reader (first ++ more) = digitsAfter text (after ++ more))
    (hpart : reader first = digitsAfter text after)
    (hok : reader (first ++ more) = .ok (value, rest)) :
    Halts isDecodeError stuck reader first ∨
      ∃ left, reader first = .ok (value, left) ∧ rest = left ++ more := by
  rw [hwhole] at hok
  rw [Halts, Fails, hpart]
  rcases cut_digitsAfter text after more value rest hok with hhalts | hleft
  · rcases hhalts with hfails | ⟨value, left, hvalue, rfl⟩
    · exact .inl (.inl hfails)
    · exact .inl (.inr ⟨value, [], hvalue, hstuck value⟩)
  · exact .inr hleft

/-- A point at the end of the part may be followed by a digit. -/
theorem cut_fraction : Cuts (fun _ left => left = [] ∨ left = ['.']) fraction := by
  intro first more text rest h
  match first with
  | [] => exact .inl (.inr ⟨[], [], rfl, .inl rfl⟩)
  | [c] =>
      -- the part ends at a point, or where no fraction begins
      by_cases hpoint : c = '.'
      · exact .inl (.inr ⟨[], [c], rfl, .inr (by rw [hpoint])⟩)
      · refine cut_of_unread ?_ rfl h
        cases more with
        | nil => rfl
        | cons digit after => exact if_neg fun hread => hpoint hread.1
  | c :: digit :: after =>
      by_cases hread : c = '.' ∧ isDigit digit = true
      · exact cut_of_digits (fun _ => .inl rfl) (if_pos hread) (if_pos hread) h
      · exact cut_of_unread (if_neg hread) (if_neg hread) h

/-- The exponent of a number may have lost its digits, or its sign as well. -/
theorem cut_exponent : Cuts (fun _ left => Dangling left) exponent := by
  intro first more text rest h
  have hstop {e : Char} (he : e = 'e' ∨ e = 'E') (left : List Char) : Dangling (e :: left) :=
    .inr ⟨e, left, rfl, .inr he⟩
  match first with
  | [] => exact .inl (.inr ⟨[], [], rfl, .inl rfl⟩)
  | [e] =>
      by_cases he : e = 'e' ∨ e = 'E'
      · exact .inl (.inr ⟨[], [e], rfl, hstop he []⟩)
      · refine cut_of_unread ?_ rfl h
        match more with
        | [] => rfl
        | [c] => exact if_neg fun hread => he hread.1
        | c :: digit :: after =>
            exact (if_neg fun hread => he hread.1).trans (if_neg fun hread => he hread.1)
  | [e, c] =>
      -- the second character may be the sign of an exponent whose digits are missing
      by_cases hread : (e = 'e' ∨ e = 'E') ∧ isDigit c = true
      · exact cut_of_digits (fun _ => .inl rfl) (if_pos hread) (if_pos hread) h
      · by_cases he : e = 'e' ∨ e = 'E'
        · exact .inl (.inr ⟨[], [e, c], if_neg hread, hstop he [c]⟩)
        · refine cut_of_unread ?_ (if_neg hread) h
          cases more with
          | nil => exact if_neg hread
          | cons digit after => exact (if_neg hread).trans (if_neg fun hread => he hread.1)
  | e :: c :: digit :: after =>
      by_cases hread : (e = 'e' ∨ e = 'E') ∧ isDigit c = true
      · exact cut_of_digits (fun _ => .inl rfl) (if_pos hread) (if_pos hread) h
      · by_cases hsigned : (e = 'e' ∨ e = 'E') ∧ (c = '-' ∨ c = '+') ∧ isDigit digit = true
        · exact cut_of_digits (fun _ => .inl rfl) ((if_neg hread).trans (if_pos hsigned))
            ((if_neg hread).trans (if_pos hsigned)) h
        · exact cut_of_unread ((if_neg hread).trans (if_neg hsigned))
            ((if_neg hread).trans (if_neg hsigned)) h

theorem cut_number (parseFloat : String → Real) (negative : Bool) (c : Char) :
    Cuts (fun _ left => Dangling left) (number parseFloat negative c) := by
  have hpoint : Dangling ['.'] := .inr ⟨'.', [], rfl, .inl rfl⟩
  have hpure (value : Json) (left : List Char) (hleft : Dangling left) :
      Halts isDecodeError (fun _ left => Dangling left) (pure value : Reader Json) left :=
    .inr ⟨value, left, rfl, hleft⟩
  refine (cut_integer c).bind (fun digits => cut_fraction.bind (fun fractional =>
    cut_exponent.bind (fun exponential => cut_pure _) ?_) ?_) ?_
  · exact fun exponential left hleft => hpure _ left hleft
  -- after a part that ends in the digits, no exponent is read
  · rintro fractional left (rfl | rfl)
    · exact hpure _ [] (.inl rfl)
    · exact hpure _ ['.'] hpoint
  · rintro digits left rfl
    exact hpure _ [] (.inl rfl)

theorem cut_word (rest : List Char) (value : Json) : Cuts nowhere (word rest value) := by
  induction rest with
  | nil => exact cut_pure value
  | cons c rest ih => exact cut_char.then fun c' => cut_ite ih (cut_refuse _)

theorem cut_scalar (parseFloat : String → Real) (c : Char) :
    Cuts (fun _ left => Dangling left) (scalar parseFloat c) := by
  have hword (rest : List Char) (value : Json) :
      Cuts (fun _ left => Dangling left) (word rest value) := (cut_word rest value).weaken
  refine cut_ite (cut_string.then fun text => cut_pure _) ?_
  refine cut_ite (hword _ _) (cut_ite (hword _ _) (cut_ite (hword _ _) ?_))
  refine cut_ite (hword _ _) (cut_ite (hword _ _) (cut_ite ?_ (cut_number _ _ _)))
  exact cut_char.then fun c => cut_ite (hword _ _) (cut_number _ _ _)

/-- Skipping white space stops at the end of the part, where the next character is missing. -/
theorem cut_skip_char {α : Type} {stuck : α → List Char → Prop} {next : Char → Reader α}
    (hnext : ∀ c, Cuts stuck (next c)) : Cuts stuck (skip.bind fun _ => char.bind next) := by
  refine cut_run.bind (fun _ => cut_char.then hnext) ?_
  rintro blank left rfl
  exact .inl ⟨_, rfl, rfl⟩

/-- No item follows where a number dangles. -/
theorem fails_following {α : Type} {close : Char} (hclose : close = '}' ∨ close = ']')
    {item : Reader α} {left : List Char} (hleft : Dangling left) :
    Fails isDecodeError (following close item) left := by
  rcases hleft with rfl | ⟨c, rest, rfl, hc⟩
  · exact ⟨_, rfl, rfl⟩
  · refine ⟨decodeError "Expecting ',' delimiter", ?_, rfl⟩
    rcases hclose with rfl | rfl <;> rcases hc with rfl | rfl | rfl <;> rfl

theorem cut_following {α : Type} (close : Char) {next : Char → Reader α}
    (hnext : ∀ c, Cuts (fun _ left => Dangling left) (next c)) :
    Cuts (fun value left => value.isSome ∧ Dangling left) (following close (char.bind next)) := by
  refine cut_skip_char fun c => cut_ite ?_ (cut_ite (cut_pure none) (cut_refuse _))
  refine cut_run.bind (fun _ => (cut_char.then hnext).bind (fun value => cut_pure _) ?_) ?_
  · exact fun value left hleft => .inr ⟨_, _, rfl, rfl, hleft⟩
  · rintro blank left rfl
    exact .inl ⟨_, rfl, rfl⟩

/-- The items of an array or an object go on to its end. -/
theorem cut_items {α : Type} {close : Char} (hclose : close = '}' ∨ close = ']')
    {next : Char → Reader α}
    (hnext : ∀ c, Cuts (fun _ left => Dangling left) (next c)) (first : α) :
    Cuts nowhere (items close (char.bind next) first) :=
  (cut_collectAll (isDecodeError_decodeError _) (cut_following close hnext)
    fun _ hleft => fails_following hclose hleft).then fun _ => cut_pure _

/-- After a first item that dangles, the items fail. -/
theorem fails_items {α β : Type} {close : Char} (hclose : close = '}' ∨ close = ']')
    {item : Reader α} {first : α} {next : List α → Reader β} {left : List Char}
    (hleft : Dangling left) : Fails isDecodeError ((items close item first).bind next) left :=
  (fails_following hclose hleft).bind.bind.bind

theorem cut_member {value : Char → Reader Json}
    (hvalue : ∀ c, Cuts (fun _ left => Dangling left) (value c)) (c : Char) :
    Cuts (fun _ left => Dangling left) (member value c) := by
  refine cut_ite (cut_string.then fun key => cut_skip_char fun colon => ?_) (cut_refuse _)
  refine cut_ite ?_ (cut_refuse _)
  refine cut_run.bind (fun _ => (cut_char.then hvalue).bind (fun item => cut_pure _) ?_) ?_
  · exact fun item left hleft => .inr ⟨_, _, rfl, hleft⟩
  · rintro blank left rfl
    exact .inl ⟨_, rfl, rfl⟩

theorem cut_object {value : Char → Reader Json}
    (hvalue : ∀ c, Cuts (fun _ left => Dangling left) (value c)) : Cuts nowhere (object value) := by
  have hmember (c : Char) : Cuts (fun _ left => Dangling left) (member value c) :=
    cut_member hvalue c
  refine cut_skip_char fun c => cut_ite (cut_pure _) ((hmember c).bind (fun first => ?_) ?_)
  · exact (cut_items (.inl rfl) hmember first).then fun members => cut_pure _
  · exact fun first left hleft => (fails_items (.inl rfl) hleft).halts

theorem cut_array {value : Char → Reader Json}
    (hvalue : ∀ c, Cuts (fun _ left => Dangling left) (value c)) : Cuts nowhere (array value) := by
  refine cut_skip_char fun c => cut_ite (cut_pure _) ((hvalue c).bind (fun first => ?_) ?_)
  · exact (cut_items (.inr rfl) hvalue first).then fun values => cut_pure _
  · exact fun first left hleft => (fails_items (.inr rfl) hleft).halts

theorem cut_value (parseFloat : String → Real) (limit : ℕ) (c : Char) :
    Cuts (fun _ left => Dangling left) (value parseFloat limit c) := by
  induction limit generalizing c with
  | zero => exact cut_ite (cut_fail _) (cut_scalar _ _)
  | succ limit ih =>
      exact cut_ite (cut_object ih).weaken (cut_ite (cut_array ih).weaken (cut_scalar _ _))

/-- An object does not stop before its closing brace. -/
theorem cut_value_brace (parseFloat : String → Real) (limit : ℕ) :
    Cuts nowhere (value parseFloat limit '{') := by
  cases limit with
  | zero => exact cut_fail _
  | succ limit => exact cut_object (cut_value parseFloat limit)

/-! ## Objects -/

theorem word_eq_ok {rest : List Char} {result value : Json} {input left : List Char}
    (h : word rest result input = .ok (value, left)) : value = result := by
  induction rest generalizing input with
  | nil =>
      cases h
      rfl
  | cons c rest ih =>
      obtain ⟨c', after, -, hafter⟩ := bind_eq_ok h
      split at hafter
      · exact ih hafter
      · cases hafter

theorem number_ne_obj {parseFloat : String → Real} {negative : Bool} {c : Char}
    {fields : List (String × Json)} {input left : List Char} :
    number parseFloat negative c input ≠ .ok (.obj fields, left) := by
  intro h
  obtain ⟨digits, _, -, h⟩ := bind_eq_ok h
  obtain ⟨fractional, _, -, h⟩ := bind_eq_ok h
  obtain ⟨exponential, _, -, h⟩ := bind_eq_ok h
  have hvalue : numberOf parseFloat negative digits fractional exponential = .obj fields :=
    congrArg Prod.fst (Except.ok.inj h)
  unfold numberOf at hvalue
  split at hvalue <;> cases hvalue

theorem scalar_ne_obj {parseFloat : String → Real} {c : Char} {fields : List (String × Json)}
    {input left : List Char} : scalar parseFloat c input ≠ .ok (.obj fields, left) := by
  intro h
  have hword {rest : List Char} {result : Json} (hresult : result ≠ .obj fields)
      {input : List Char} (h : word rest result input = .ok (.obj fields, left)) : False :=
    hresult (word_eq_ok h).symm
  unfold scalar at h
  split_ifs at h
  · obtain ⟨text, _, -, h⟩ := bind_eq_ok h
    cases h
  · exact hword (by simp) h
  · exact hword (by simp) h
  · exact hword (by simp) h
  · exact hword (by simp) h
  · exact hword (by simp) h
  · obtain ⟨c', _, -, h⟩ := bind_eq_ok h
    split at h
    · exact hword (by simp) h
    · exact number_ne_obj h
  · exact number_ne_obj h

/-- Only what begins with a brace is an object. -/
theorem brace_of_obj {parseFloat : String → Real} {limit : ℕ} {c : Char}
    {fields : List (String × Json)} {input left : List Char}
    (h : value parseFloat limit c input = .ok (.obj fields, left)) : c = '{' := by
  by_contra hbrace
  cases limit with
  | zero =>
      unfold value at h
      split at h
      · cases h
      · exact scalar_ne_obj h
  | succ limit =>
      unfold value at h
      rw [if_neg hbrace] at h
      split at h
      · obtain ⟨_, _, -, h⟩ := bind_eq_ok h
        obtain ⟨c', _, -, h⟩ := bind_eq_ok h
        split at h
        · cases h
        · obtain ⟨first, _, -, h⟩ := bind_eq_ok h
          obtain ⟨values, _, -, h⟩ := bind_eq_ok h
          cases h
      · exact scalar_ne_obj h

/-! ## The beginning of an object -/

theorem document_of_loads {d : Decoding} {text : List Char} {result : Json}
    (h : loads d text = .ok result) :
    ∃ rest, document d text = .ok (result, rest) ∧ rest.dropWhile isWs = [] := by
  unfold loads at h
  split at h
  · cases h
  · split at h
    · rename_i rest hdocument
      split at h
      · rename_i hblank
        cases h
        exact ⟨rest, hdocument, hblank⟩
      · cases h
    · cases h

theorem loads_of_fails {d : Decoding} {text : List Char}
    (h : Fails isDecodeError (document d) text) :
    ∃ exc, loads d text = .error exc ∧ isDecodeError exc := by
  obtain ⟨exc, hdocument, hexc⟩ := h
  unfold loads
  split
  · exact ⟨_, rfl, rfl⟩
  · rw [hdocument]
    exact ⟨exc, rfl, hexc⟩

/-- **An object ends where it ends.**  The beginning of its text is refused, unless it leaves
nothing but white space out. -/
theorem loads_of_cut {d : Decoding} {first more : List Char} {fields : List (String × Json)}
    (h : loads d (first ++ more) = .ok (.obj fields)) :
    (∃ exc, loads d first = .error exc ∧ isDecodeError exc) ∨ ∀ c ∈ more, isWs c = true := by
  obtain ⟨rest, hdocument, hblank⟩ := document_of_loads h
  obtain ⟨blank, afterSkip, hskip, hdocument⟩ := bind_eq_ok hdocument
  obtain ⟨c, afterChar, hchar, hvalue⟩ := bind_eq_ok hdocument
  obtain rfl := brace_of_obj hvalue
  -- the part may end in the white space, before the brace, or inside the object
  rcases cut_run first more blank afterSkip hskip with (hfails | ⟨_, left, hfirst, rfl⟩) |
    ⟨left, hfirst, rfl⟩
  · exact .inl (loads_of_fails hfails.bind)
  · -- the part holds white space only
    exact .inl (loads_of_fails (Fails.after hfirst ⟨_, rfl, rfl⟩))
  · rcases cut_char left more '{' afterChar hchar with hhalts | ⟨left', hleft, rfl⟩
    · exact .inl (loads_of_fails (Fails.after hfirst (hhalts.fails).bind))
    · rcases cut_value_brace d.parseFloat (d.limit + 1) left' more _ rest hvalue with
        hhalts | ⟨left'', -, rfl⟩
      · exact .inl (loads_of_fails (Fails.after hfirst (Fails.after hleft hhalts.fails)))
      · right
        intro c hc
        exact List.dropWhile_eq_nil_iff.mp hblank c (List.mem_append_right _ hc)

end PgHa.JsonText
