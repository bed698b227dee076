import Mathlib.Data.List.Basic

/-!
# Mount tables

A mount table lists the mounted filesystems, oldest first.  The mounts at one directory
are a stack: a mount covers the ones before it, and an unmount removes the last one.

`/proc/mounts` shows the table as text, one line for each mount.  The characters that
would break a line into other fields are written as a backslash and three octal digits.
-/

namespace Linux

/-- A mounted filesystem: the disk that carries it, the device and the directory as the
kernel knows them, what the table shows after them, and whether its root can be read. -/
structure Mount (δ : Type) where
  disk : δ
  device : String
  dir : String
  options : String
  healthy : Bool

abbrev MountTable (δ : Type) : Type := List (Mount δ)

namespace MountTable

variable {δ : Type} (table : MountTable δ) (dir : String)

/-! ## The stack at a directory -/

/-- The mounts at a directory, the topmost one last. -/
def stackAt : List (Mount δ) := table.filter (·.dir == dir)

/-- The filesystem that is seen at a directory. -/
def topAt : Option (Mount δ) := (table.stackAt dir).getLast?

/-- The topmost mount at a directory is removed. -/
def unmountAt : MountTable δ → MountTable δ
  | [] => []
  | mount :: rest =>
      if mount.dir == dir && (stackAt rest dir).isEmpty then rest else mount :: unmountAt rest

variable {table dir}

theorem stackAt_cons_of_eq {mount : Mount δ} (h : mount.dir = dir) :
    stackAt (mount :: table) dir = mount :: stackAt table dir :=
  List.filter_cons_of_pos (by simpa using h)

theorem stackAt_cons_of_ne {mount : Mount δ} (h : mount.dir ≠ dir) :
    stackAt (mount :: table) dir = stackAt table dir :=
  List.filter_cons_of_neg (by simpa using h)

/-- A mount covers what is there. -/
theorem stackAt_append_of_eq {mount : Mount δ} (h : mount.dir = dir) :
    stackAt (table ++ [mount]) dir = stackAt table dir ++ [mount] := by
  rw [stackAt, List.filter_append, List.filter_singleton]
  simp [stackAt, h]

/-- An unmount removes the last mount at its directory. -/
theorem stackAt_unmountAt : stackAt (unmountAt dir table) dir = (stackAt table dir).dropLast := by
  induction table with
  | nil => rfl
  | cons mount rest ih =>
      unfold unmountAt
      by_cases hdir : mount.dir = dir
      · rw [stackAt_cons_of_eq hdir]
        cases hrest : stackAt rest dir with
        | nil => simp [hdir, hrest]
        | cons top below =>
            rw [if_neg (by simp), stackAt_cons_of_eq hdir, ih, hrest]
            rfl
      · rw [if_neg (by simp [hdir]), stackAt_cons_of_ne hdir, stackAt_cons_of_ne hdir, ih]

end MountTable

/-! ## The text of a table -/

/-- A character as a backslash and three octal digits. -/
def octal (char : Char) : List Char :=
  let digit (place : ℕ) : Char := Char.ofNat ('0'.toNat + char.toNat / place % 8)
  ['\\', digit 64, digit 8, digit 1]

/-- Write the special characters of a text in octal. -/
def escape (special : Char → Bool) (text : List Char) : List Char :=
  text.flatMap fun char => if special char then octal char else [char]

/-- The characters that are escaped in the name of a directory. -/
def special (char : Char) : Bool :=
  char == ' ' || char == '\t' || char == '\n' || char == '\\'

/-- A directory as the table shows it. -/
def shownDir (dir : String) : String := String.ofList (escape special dir.toList)

/-- A device as the table shows it: there, `#` is escaped too. -/
def shownDevice (device : String) : String :=
  String.ofList (escape (fun char => special char || char == '#') device.toList)

namespace Mount

variable {δ : Type}

/-- The line of a mount. -/
def line (mount : Mount δ) : String :=
  shownDevice mount.device ++ " " ++ shownDir mount.dir ++ " " ++ mount.options

end Mount

/-- The text of a table. -/
def MountTable.text {δ : Type} (table : MountTable δ) : String :=
  String.join (table.map fun mount => mount.line ++ "\n")

/-! ## What an escaped name contains -/

section Escape

variable {isSpecial : Char → Bool} {text : List Char}

theorem escape_ne_nil (h : text ≠ []) : escape isSpecial text ≠ [] := by
  cases text with
  | nil => exact absurd rfl h
  | cons char rest =>
      simp only [escape, List.flatMap_cons]
      split <;> simp [octal]

/-- What holds of a backslash, of the digits and of every character that is not escaped
holds throughout an escaped name. -/
theorem forall_mem_escape {P : Char → Prop} (hbackslash : P '\\')
    (hdigit : ∀ n < 8, P (Char.ofNat ('0'.toNat + n)))
    (hplain : ∀ char ∈ text, isSpecial char = false → P char) :
    ∀ char ∈ escape isSpecial text, P char := by
  intro char hmem
  obtain ⟨source, hsource, hchar⟩ := List.mem_flatMap.mp hmem
  split at hchar
  · simp only [octal, List.mem_cons, List.not_mem_nil, or_false] at hchar
    have hplace (place : ℕ) : P (Char.ofNat ('0'.toNat + source.toNat / place % 8)) :=
      hdigit _ (Nat.mod_lt _ (by omega))
    rcases hchar with rfl | rfl | rfl | rfl
    · exact hbackslash
    · exact hplace 64
    · exact hplace 8
    · exact hplace 1
  · obtain rfl : char = source := List.mem_singleton.mp hchar
    exact hplain char hsource (by simpa using ‹¬ isSpecial char = true›)

/-- A name ends in a character that is not a digit if its escaped form does. -/
theorem getLast?_of_escape {char : Char} (hdigit : ∀ n < 8, Char.ofNat ('0'.toNat + n) ≠ char)
    (h : (escape isSpecial text).getLast? = some char) : text.getLast? = some char := by
  rcases List.eq_nil_or_concat' text with rfl | ⟨init, last, rfl⟩
  · exact h
  · rw [escape, List.flatMap_append, List.flatMap_singleton] at h
    split at h
    · have hlast : Char.ofNat ('0'.toNat + last.toNat / 1 % 8) = char := by
        simpa [octal] using h
      exact absurd hlast (hdigit _ (Nat.mod_lt _ (by omega)))
    · simpa using h

end Escape

end Linux
