import PgHa.Effect.Triple
import PgHa.Model.Types

/-!
# Who is killed for using the mount point

`_kill_mount_users` takes the users of a mount point from `/proc`: a process uses it if its
current directory, its root or one of its open files is at the mount point or beneath it.
The names of the files are compared as text, up to the slashes at the end of the mount
point, and for plain paths this is the order of the directories (`under_plain_iff`).

Each open file is read in a `try` of its own, but the current directory and the root share
one: if the current directory cannot be read, the root is not looked at.  That is the only
way to miss a user, and nobody else is killed (`killsUsers_iff`).
-/

namespace PgHa.MountUsers

open Effect

/-! ## The scan -/

/-- What the scan asks of the system. -/
inductive ProcCall
  | listdir (path : String)
  | readlink (path : String)
  /-- `os.kill(pid, signal.SIGKILL)`. -/
  | kill (pid : ℕ)

abbrev ProcCall.Ret : ProcCall → Type
  | .listdir _ => List String
  | .readlink _ => String
  | .kill _ => Unit

abbrev Scan (α : Type) : Type := Prog ProcCall.Ret Exc α

def listdir (path : String) : Scan (List String) := .perform (ProcCall.listdir path)

def readlink (path : String) : Scan String := .perform (ProcCall.readlink path)

def kill (pid : ℕ) : Scan Unit := .perform (ProcCall.kill pid)

/-- `except OSError:`, for a program that then has found nothing. -/
def orNot (program : Scan Bool) : Scan Bool :=
  program.except fun exc => if exc.isOSError then pure false else .raise exc

/-- `entry.isdigit()`, for the names in `/proc`, which are ASCII. -/
def isdigit (entry : String) : Bool := entry != "" && entry.toList.all (·.isDigit)

/-- `int(entry)`, for a name of digits. -/
def int (entry : String) : ℕ :=
  entry.toList.foldl (fun value char => 10 * value + (char.toNat - '0'.toNat)) 0

def procPath (pid : ℕ) : String := "/proc/" ++ toString pid

def fdDir (pid : ℕ) : String := procPath pid ++ "/fd"

variable (mountPt : String)

/-- The test of a link's target. -/
def isUnder (target : String) : Bool :=
  startswith target (rstripSlashes mountPt ++ "/") || target == rstripSlashes mountPt

/-- `for link in ("cwd", "root"):`, up to the first link that cannot be read. -/
def scanLinks : List String → Scan Bool
  | [] => pure false
  | path :: rest => do
      let target ← readlink path
      if isUnder mountPt target then pure true else scanLinks rest

/-- `for fd in os.listdir(fd_dir):`, leaving out what cannot be read. -/
def scanFds (dir : String) : List String → Scan Bool
  | [] => pure false
  | fd :: rest => do
      if ← orNot (do pure (isUnder mountPt (← readlink (dir ++ "/" ++ fd)))) then pure true
      else scanFds dir rest

def usesDirs (pid : ℕ) : Scan Bool :=
  orNot (scanLinks mountPt [procPath pid ++ "/cwd", procPath pid ++ "/root"])

def usesFiles (pid : ℕ) : Scan Bool :=
  orNot (do scanFds mountPt (fdDir pid) (← listdir (fdDir pid)))

/-- `for entry in os.listdir("/proc"):`, from a set of processes to one with the users among
the entries. -/
def scanEntries : List String → List ℕ → Scan (List ℕ)
  | [], pids => pure pids
  | entry :: rest, pids =>
      if isdigit entry then
        if int entry ≤ 1000 then scanEntries rest pids
        else do
          let pids := if ← usesDirs mountPt (int entry) then pids.insert (int entry) else pids
          if int entry ∈ pids then scanEntries rest pids
          else
            let pids := if ← usesFiles mountPt (int entry) then pids.insert (int entry) else pids
            scanEntries rest pids
      else scanEntries rest pids

/-- `for pid in pids_to_kill:`, whether or not a process can be killed. -/
def killAll : List ℕ → Scan Unit
  | [] => pure ()
  | pid :: rest => do
      (kill pid).except fun exc => if exc.isOSError then pure () else .raise exc
      killAll rest

/-- The first part of `_kill_mount_users`, in its `try`. -/
def scan : Scan (List ℕ) := do
  scanEntries mountPt (← listdir "/proc") []

def killMountUsers : Scan Unit := do
  match ← (scan mountPt).attempt with
  | .ok pids => killAll pids
  | .error _ => pure ()

/-! ## What is killed -/

/-- What `/proc` shows: directories and links, as far as they can be read. -/
structure ProcTable where
  dir : String → Option (List String)
  link : String → Option String

/-- The answer shows what can be read, or is an `OSError`. -/
def Shows {α : Type} (shown : Option α) (answer : Except Exc α) : Prop :=
  match shown with
  | some value => answer = .ok value
  | none => ∃ exc, answer = .error exc ∧ exc.isOSError = true

/-- Everything is read from the table, and a process that cannot be killed is an `OSError`. -/
def procStep (table : ProcTable) (event : Event ProcCall.Ret Exc) (table' : ProcTable) : Prop :=
  table' = table ∧
    match event with
    | ⟨.listdir path, answer⟩ => Shows (table.dir path) answer
    | ⟨.readlink path, answer⟩ => Shows (table.link path) answer
    | ⟨.kill _, answer⟩ => ∀ exc, answer = .error exc → exc.isOSError = true

variable {mountPt} {table : ProcTable}

/-- A target is the mount point, or goes on after it with a slash. -/
def Under (mountPt target : String) : Prop :=
  target = rstripSlashes mountPt ∨ ∃ rest, target = rstripSlashes mountPt ++ "/" ++ rest

/-- A link can be read and is under the mount point. -/
def Linked (mountPt : String) (table : ProcTable) (path : String) : Prop :=
  ∃ target, table.link path = some target ∧ Under mountPt target

/-- The processes that `/proc` lists. -/
def Process (table : ProcTable) (pid : ℕ) : Prop :=
  ∃ entries, table.dir "/proc" = some entries ∧
    ∃ entry ∈ entries, isdigit entry = true ∧ int entry = pid

/-- An open file of the process is under the mount point. -/
def FileUnder (mountPt : String) (table : ProcTable) (pid : ℕ) : Prop :=
  ∃ fds, table.dir (fdDir pid) = some fds ∧
    ∃ fd ∈ fds, Linked mountPt table (fdDir pid ++ "/" ++ fd)

/-- The process uses the mount point. -/
def Uses (mountPt : String) (table : ProcTable) (pid : ℕ) : Prop :=
  Linked mountPt table (procPath pid ++ "/cwd") ∨ Linked mountPt table (procPath pid ++ "/root") ∨
    FileUnder mountPt table pid

/-- A signal has been sent to the process. -/
def Killed (trace : List (Event ProcCall.Ret Exc)) (pid : ℕ) : Prop :=
  ∃ event ∈ trace, event.op = .kill pid

theorem isUnder_iff {target : String} : isUnder mountPt target = true ↔ Under mountPt target := by
  rw [isUnder, Bool.or_eq_true, beq_iff_eq, startswith, List.isPrefixOf_iff_prefix, Under, or_comm]
  refine or_congr Iff.rfl ⟨?_, ?_⟩
  · rintro ⟨rest, hrest⟩
    refine ⟨String.ofList rest, ?_⟩
    rw [← String.toList_inj, String.toList_append, String.toList_ofList, hrest]
  · rintro ⟨rest, rfl⟩
    exact ⟨rest.toList, (String.toList_append ..).symm⟩

/-! ### Plain paths -/

/-- The path of a directory, from the names on the way to it. -/
def plain (names : List (List Char)) : String := String.ofList (names.flatMap ('/' :: ·))

/-- The names of a path are not empty and have no slash in them. -/
def Named (names : List (List Char)) : Prop := ∀ name ∈ names, name ≠ [] ∧ '/' ∉ name

theorem dropWhile_slashes {rest : List Char} (h : rest.head? ≠ some '/') (slashes : ℕ) :
    (List.replicate slashes '/' ++ rest).dropWhile (· == '/') = rest := by
  induction slashes with
  | zero =>
      cases rest with
      | nil => rfl
      | cons char rest =>
          have hchar : char ≠ '/' := fun hchar => h (by rw [List.head?_cons, hchar])
          exact List.dropWhile_cons_of_neg (by simpa using hchar)
  | succ slashes ih =>
      rw [List.replicate_succ, List.cons_append, List.dropWhile_cons_of_pos (by rfl), ih]

/-- A plain path is what is left when slashes at its end are removed. -/
theorem rstripSlashes_plain {names : List (List Char)} (h : Named names) (slashes : ℕ) :
    rstripSlashes (plain names ++ String.ofList (List.replicate slashes '/')) = plain names := by
  have hend : (names.flatMap ('/' :: ·)).reverse.head? ≠ some '/' := by
    rcases List.eq_nil_or_concat' names with rfl | ⟨init, name, rfl⟩
    · simp
    · obtain ⟨hname, hslash⟩ := h name (by simp)
      rcases List.eq_nil_or_concat' name with rfl | ⟨front, last, rfl⟩
      · exact absurd rfl hname
      · intro hlast
        have hchar : last = '/' := by simpa using hlast
        exact hslash (by simp [hchar])
  rw [rstripSlashes, plain, String.toList_append, String.toList_ofList, String.toList_ofList,
    List.reverse_append, List.reverse_replicate, dropWhile_slashes hend, List.reverse_reverse]

/-- A name ends where the path ends or goes on with a slash. -/
theorem append_inj_of_name {name name' rest rest' : List Char} (hname : '/' ∉ name)
    (hname' : '/' ∉ name') (hrest : rest = [] ∨ rest.head? = some '/')
    (hrest' : rest' = [] ∨ rest'.head? = some '/') (h : name ++ rest = name' ++ rest') :
    name = name' ∧ rest = rest' := by
  have htake {name rest : List Char} (hname : '/' ∉ name)
      (hrest : rest = [] ∨ rest.head? = some '/') : (name ++ rest).takeWhile (· != '/') = name := by
    have hplain : ∀ char ∈ name, (char != '/') = true := by
      intro char hmem
      simpa using fun hchar : char = '/' => hname (hchar ▸ hmem)
    rw [List.takeWhile_append_of_pos hplain]
    cases rest with
    | nil => simp
    | cons char rest =>
        obtain rfl : char = '/' := by simpa using hrest
        simp
  have hsame : name = name' := by rw [← htake hname hrest, h, htake hname' hrest']
  subst hsame
  exact ⟨rfl, List.append_cancel_left h⟩

theorem flatMap_head? (names : List (List Char)) : names.flatMap ('/' :: ·) = [] ∨
    (names.flatMap ('/' :: ·)).head? = some '/' := by
  cases names <;> simp

/-- One path goes on after another exactly when its names do. -/
theorem append_eq_flatMap_iff {mount target : List (List Char)} (hmount : Named mount)
    (htarget : Named target) : (∃ rest, (rest = [] ∨ rest.head? = some '/') ∧
      target.flatMap ('/' :: ·) = mount.flatMap ('/' :: ·) ++ rest) ↔ mount <+: target := by
  constructor
  · rintro ⟨rest, hrest, happend⟩
    -- component by component, from the front
    induction mount generalizing target with
    | nil => exact List.nil_prefix
    | cons name mount ih =>
        cases target with
        | nil => simp at happend
        | cons name' target =>
            obtain ⟨-, hname⟩ := hmount name List.mem_cons_self
            obtain ⟨-, hname'⟩ := htarget name' List.mem_cons_self
            have hnext : mount.flatMap ('/' :: ·) ++ rest = [] ∨
                (mount.flatMap ('/' :: ·) ++ rest).head? = some '/' := by
              rcases flatMap_head? mount with hnil | hhead
              · rwa [hnil, List.nil_append]
              · exact .inr (by rw [List.head?_append, hhead]; rfl)
            -- a component holds no slash, so the two first ones end at the same place
            have htail : name' ++ target.flatMap ('/' :: ·) =
                name ++ (mount.flatMap ('/' :: ·) ++ rest) := by
              simpa using happend
            obtain ⟨rfl, hrest'⟩ :=
              append_inj_of_name hname' hname (flatMap_head? target) hnext htail
            rw [List.prefix_cons_inj]
            exact ih (fun name hmem => hmount name (List.mem_cons_of_mem _ hmem))
              (fun name hmem => htarget name (List.mem_cons_of_mem _ hmem)) hrest'
  · rintro ⟨rest, rfl⟩
    exact ⟨_, flatMap_head? rest, List.flatMap_append⟩

/-- Under a plain mount point, with or without slashes at its end, is what has the names of the
mount point first. -/
theorem under_plain_iff {mount target : List (List Char)} (hmount : Named mount)
    (htarget : Named target) (slashes : ℕ) :
    Under (plain mount ++ String.ofList (List.replicate slashes '/')) (plain target) ↔
      mount <+: target := by
  rw [← append_eq_flatMap_iff hmount htarget, Under, rstripSlashes_plain hmount]
  simp only [← String.toList_inj, String.toList_append, plain, String.toList_ofList]
  constructor
  · rintro (heq | ⟨rest, hrest⟩)
    · exact ⟨[], .inl rfl, by simpa using heq⟩
    · exact ⟨'/' :: rest.toList, .inr rfl, by simpa using hrest⟩
  · rintro ⟨rest, rfl | hhead, happend⟩
    · exact .inl (by simpa using happend)
    · obtain ⟨tail, rfl⟩ : ∃ tail, rest = '/' :: tail := by
        cases rest with
        | nil => cases hhead
        | cons char tail => exact ⟨tail, by simpa using hhead⟩
      exact .inr ⟨String.ofList tail, by simpa using happend⟩

/-! ## What each part of the scan finds -/

/-- A link under the mount point comes before all that cannot be read. -/
def Reaches (mountPt : String) (table : ProcTable) : List String → Prop
  | [] => False
  | path :: rest =>
      ∃ target, table.link path = some target ∧
        (Under mountPt target ∨ Reaches mountPt table rest)

/-- A program has told whether something is the case. -/
def told (table : ProcTable) (P : Prop) : Outcome Exc Bool → ProcTable → Prop
  | .returned found, table' => table' = table ∧ (found = true ↔ P)
  | .raised _, _ | .stuck, _ => False

/-- As `told`, but what is not the case may also be told by an `OSError`. -/
def toldOrRaised (table : ProcTable) (P : Prop) : Outcome Exc Bool → ProcTable → Prop
  | .returned found, table' => table' = table ∧ (found = true ↔ P)
  | .raised exc, table' => table' = table ∧ exc.isOSError = true ∧ ¬ P
  | .stuck, _ => False

section Parts

variable {α : Type} {post : Outcome Exc α → ProcTable → Prop} {P : Prop}

/-- What an operation answers is what the table shows. -/
theorem wp_shown (op : ProcCall) {shown : Option op.Ret} {next : op.Ret → Scan α}
    (hshows : ∀ answer table', procStep table ⟨op, answer⟩ table' →
      table' = table ∧ Shows shown answer)
    (hread : ∀ value, shown = some value → (next value).wp (demonic procStep) post table)
    (hraised : ∀ exc : Exc, shown = none → exc.isOSError = true → post (.raised exc) table) :
    ((Prog.perform op).bind next).wp (demonic procStep) post table := by
  rw [Prog.wp_bind, Prog.wp_perform]
  intro answer table' hstep
  obtain ⟨rfl, hanswer⟩ := hshows answer table' hstep
  cases hshown : shown with
  | some value =>
      obtain rfl : answer = .ok value := by simpa [hshown, Shows] using hanswer
      exact hread value hshown
  | none =>
      obtain ⟨exc, rfl, hclass⟩ : ∃ exc, answer = .error exc ∧ exc.isOSError = true := by
        simpa [hshown, Shows] using hanswer
      exact hraised exc hshown hclass

theorem wp_readlink {path : String} {next : String → Scan α}
    (hread : ∀ target, table.link path = some target →
      (next target).wp (demonic procStep) post table)
    (hraised : ∀ exc : Exc, table.link path = none → exc.isOSError = true →
      post (.raised exc) table) :
    ((readlink path).bind next).wp (demonic procStep) post table :=
  wp_shown (.readlink path) (fun _ _ hstep => hstep) hread hraised

theorem wp_listdir {path : String} {next : List String → Scan α}
    (hread : ∀ entries, table.dir path = some entries →
      (next entries).wp (demonic procStep) post table)
    (hraised : ∀ exc : Exc, table.dir path = none → exc.isOSError = true →
      post (.raised exc) table) :
    ((listdir path).bind next).wp (demonic procStep) post table :=
  wp_shown (.listdir path) (fun _ _ hstep => hstep) hread hraised

theorem wp_told {program : Scan Bool} {next : Bool → Scan α}
    (h : program.wp (demonic procStep) (told table P) table)
    (hnext : ∀ found : Bool, (found = true ↔ P) → (next found).wp (demonic procStep) post table) :
    (program.bind next).wp (demonic procStep) post table := by
  rw [Prog.wp_bind]
  apply Prog.wp_mono (demonic_monotone _) _ h
  intro outcome table' htold
  cases outcome with
  | returned found =>
      obtain ⟨rfl, hfound⟩ := htold
      exact hnext found hfound
  | raised exc => exact htold.elim
  | stuck => exact htold.elim

theorem wp_pure_told {found : Bool} (h : found = true ↔ P) :
    (pure found : Scan Bool).wp (demonic procStep) (told table P) table :=
  ⟨rfl, h⟩

theorem wp_pure_toldOrRaised {found : Bool} (h : found = true ↔ P) :
    (pure found : Scan Bool).wp (demonic procStep) (toldOrRaised table P) table :=
  ⟨rfl, h⟩

/-- An `OSError` means that nothing has been found. -/
theorem wp_orNot {program : Scan Bool}
    (h : program.wp (demonic procStep) (toldOrRaised table P) table) :
    (orNot program).wp (demonic procStep) (told table P) table := by
  rw [orNot, Prog.wp_except]
  apply Prog.wp_mono (demonic_monotone _) _ h
  intro outcome table' htold
  cases outcome with
  | returned found => exact htold
  | raised exc =>
      obtain ⟨rfl, hclass, hnot⟩ := htold
      rw [Prog.handled_raised, if_pos hclass]
      exact ⟨rfl, by simp [hnot]⟩
  | stuck => exact htold.elim

theorem wp_scanLinks (paths : List String) : (scanLinks mountPt paths).wp (demonic procStep)
    (toldOrRaised table (Reaches mountPt table paths)) table := by
  induction paths with
  | nil => exact wp_pure_toldOrRaised (by simp [Reaches])
  | cons path rest ih =>
      apply wp_readlink
      · intro target hlink
        have hreaches : Reaches mountPt table (path :: rest) ↔
            Under mountPt target ∨ Reaches mountPt table rest := by
          simp [Reaches, hlink]
        rw [hreaches, ← isUnder_iff]
        cases isUnder mountPt target with
        | true => exact wp_pure_toldOrRaised (by simp)
        | false => simpa using ih
      · intro exc hlink hclass
        exact ⟨rfl, hclass, by simp [Reaches, hlink]⟩

theorem wp_scanFds (dir : String) (fds : List String) :
    (scanFds mountPt dir fds).wp (demonic procStep)
      (told table (∃ fd ∈ fds, Linked mountPt table (dir ++ "/" ++ fd))) table := by
  induction fds with
  | nil => exact wp_pure_told (by simp)
  | cons fd rest ih =>
      have hfd : (orNot (do pure (isUnder mountPt (← readlink (dir ++ "/" ++ fd))))).wp
          (demonic procStep) (told table (Linked mountPt table (dir ++ "/" ++ fd))) table := by
        apply wp_orNot
        apply wp_readlink
        · intro target hlink
          exact wp_pure_toldOrRaised (by simp [Linked, hlink, isUnder_iff])
        · intro exc hlink hclass
          exact ⟨rfl, hclass, by simp [Linked, hlink]⟩
      apply wp_told hfd
      intro found hfound
      rw [List.exists_mem_cons_iff]
      split_ifs with hyes
      · exact wp_pure_told (by simp [hfound.mp hyes])
      · have hnot : ¬ Linked mountPt table (dir ++ "/" ++ fd) := fun h => hyes (hfound.mpr h)
        simpa [hnot] using ih

theorem wp_usesDirs (pid : ℕ) : (usesDirs mountPt pid).wp (demonic procStep)
    (told table (Reaches mountPt table [procPath pid ++ "/cwd", procPath pid ++ "/root"])) table :=
  wp_orNot (wp_scanLinks _)

theorem wp_usesFiles (pid : ℕ) : (usesFiles mountPt pid).wp (demonic procStep)
    (told table (FileUnder mountPt table pid)) table := by
  apply wp_orNot
  apply wp_listdir
  · intro fds hdir
    apply Prog.wp_mono (demonic_monotone _) _ (wp_scanFds (fdDir pid) fds)
    intro outcome table' htold
    cases outcome with
    | returned found => exact ⟨htold.1, by simpa [FileUnder, hdir] using htold.2⟩
    | raised exc => exact htold.elim
    | stuck => exact htold.elim
  · intro exc hdir hclass
    exact ⟨rfl, hclass, by simp [FileUnder, hdir]⟩

end Parts

/-! ## What the whole scan finds -/

/-- The scan finds that the process uses the mount point. -/
def Found (mountPt : String) (table : ProcTable) (pid : ℕ) : Prop :=
  Reaches mountPt table [procPath pid ++ "/cwd", procPath pid ++ "/root"] ∨
    FileUnder mountPt table pid

/-- The entry of a process that is to be killed. -/
def Doomed (mountPt : String) (table : ProcTable) (entry : String) : Prop :=
  isdigit entry = true ∧ 1000 < int entry ∧ Found mountPt table (int entry)

/-- A program has returned the processes for which `P` holds. -/
def listed (table : ProcTable) (P : ℕ → Prop) : Outcome Exc (List ℕ) → ProcTable → Prop
  | .returned pids, table' => table' = table ∧ ∀ pid, pid ∈ pids ↔ P pid
  | .raised _, _ | .stuck, _ => False

/-- The processes of a set, and those of the entries that are to be killed. -/
def Collected (mountPt : String) (table : ProcTable) (entries : List String) (pids : List ℕ)
    (pid : ℕ) : Prop :=
  pid ∈ pids ∨ ∃ entry ∈ entries, Doomed mountPt table entry ∧ int entry = pid

theorem collected_cons {entry : String} {rest : List String} {pids pids' : List ℕ}
    (h : ∀ pid, pid ∈ pids' ↔ pid ∈ pids ∨ Doomed mountPt table entry ∧ int entry = pid) :
    Collected mountPt table (entry :: rest) pids = Collected mountPt table rest pids' := by
  funext pid
  rw [Collected, Collected, List.exists_mem_cons_iff, h pid, or_assoc]

theorem mem_add {found : Bool} {P : Prop} (h : found = true ↔ P) {new : ℕ} {pids : List ℕ}
    (pid : ℕ) : pid ∈ (if found then pids.insert new else pids) ↔ pid ∈ pids ∨ P ∧ new = pid := by
  rw [← h]
  cases found <;> simp [or_comm, eq_comm]

theorem wp_scanEntries (entries : List String) (pids : List ℕ)
    (hpids : ∀ pid ∈ pids, Found mountPt table pid) :
    (scanEntries mountPt entries pids).wp (demonic procStep)
      (listed table (Collected mountPt table entries pids)) table := by
  induction entries generalizing pids with
  | nil => exact ⟨rfl, by simp [Collected]⟩
  | cons entry rest ih =>
      -- wherever the rest is scanned, the process of the entry has been added if it is doomed
      have hrest (pids' : List ℕ) (hpids' : ∀ pid, pid ∈ pids' ↔
          pid ∈ pids ∨ Doomed mountPt table entry ∧ int entry = pid) :
          (scanEntries mountPt rest pids').wp (demonic procStep)
            (listed table (Collected mountPt table (entry :: rest) pids)) table := by
        rw [collected_cons hpids']
        apply ih
        intro pid hmem
        rcases (hpids' pid).mp hmem with hold | ⟨hdoomed, rfl⟩
        · exact hpids pid hold
        · exact hdoomed.2.2
      have hspared (hnot : ¬ Doomed mountPt table entry) :=
        hrest pids fun pid => by simp [hnot]
      rw [scanEntries]
      split_ifs with hdigits hlow
      · exact hspared fun hdoomed => absurd hdoomed.2.1 (by omega)
      · have hdoomed : Doomed mountPt table entry ↔ Found mountPt table (int entry) :=
          ⟨fun h => h.2.2, fun h => ⟨hdigits, by omega, h⟩⟩
        apply wp_told (wp_usesDirs (int entry))
        intro byDir hbyDir
        cases byDir with
        | true =>
            have hyes : Doomed mountPt table entry := hdoomed.mpr (.inl (hbyDir.mp rfl))
            rw [if_pos rfl, if_pos List.mem_insert_self]
            have hadd : true = true ↔ Doomed mountPt table entry := by simp [hyes]
            exact hrest _ (mem_add hadd)
        | false =>
            rw [if_neg Bool.false_ne_true]
            dsimp only
            split_ifs with hmem
            · have hyes : Doomed mountPt table entry := hdoomed.mpr (hpids _ hmem)
              apply hrest
              intro pid
              exact ⟨.inl, fun h => h.elim id fun ⟨_, heq⟩ => heq ▸ hmem⟩
            · apply wp_told (wp_usesFiles (int entry))
              intro byFile hbyFile
              apply hrest _ (mem_add _)
              rw [hdoomed, hbyFile, Found]
              simp [← hbyDir]
      · exact hspared fun hdoomed => hdigits hdoomed.1

/-- The process is to be killed. -/
def Target (mountPt : String) (table : ProcTable) (pid : ℕ) : Prop :=
  Process table pid ∧ 1000 < pid ∧ Found mountPt table pid

/-- A program has returned the processes that are to be killed, or has raised where there are
none. -/
def swept (mountPt : String) (table : ProcTable) : Outcome Exc (List ℕ) → Prop
  | .returned pids => ∀ pid, pid ∈ pids ↔ Target mountPt table pid
  | .raised _ => ∀ pid, ¬ Target mountPt table pid
  | .stuck => False

theorem wp_scan : (scan mountPt).wp (demonic procStep)
    (fun outcome _ => swept mountPt table outcome) table := by
  apply wp_listdir
  · intro entries hdir
    apply Prog.wp_mono (demonic_monotone _) _ (wp_scanEntries entries [] (by simp))
    intro outcome table' hlisted
    cases outcome with
    | returned pids =>
        intro pid
        rw [hlisted.2 pid]
        simp only [Collected, Doomed, Target, Process, hdir, List.not_mem_nil, false_or,
          Option.some.injEq, exists_eq_left']
        constructor
        · rintro ⟨entry, hmem, ⟨hdigits, hlow, hfound⟩, rfl⟩
          exact ⟨⟨entry, hmem, hdigits, rfl⟩, hlow, hfound⟩
        · rintro ⟨⟨entry, hmem, hdigits, rfl⟩, hlow, hfound⟩
          exact ⟨entry, hmem, ⟨hdigits, hlow, hfound⟩, rfl⟩
    | raised exc => exact hlisted.elim
    | stuck => exact hlisted.elim
  · intro exc hdir _ pid htarget
    obtain ⟨entries, hentries, -⟩ := htarget.1
    rw [hdir] at hentries
    cases hentries

/-! ## Who is killed -/

def isRead : ProcCall → Prop
  | .kill _ => False
  | _ => True

theorem scanLinks_calls (paths : List String) : (scanLinks mountPt paths).Calls isRead := by
  induction paths with
  | nil => trivial
  | cons path rest ih =>
      apply Prog.Calls.perform_bind trivial
      intro target
      cases isUnder mountPt target with
      | true => trivial
      | false => exact ih

theorem orNot_calls {program : Scan Bool} (h : program.Calls isRead) :
    (orNot program).Calls isRead :=
  .except h fun _ => .ite trivial trivial

theorem scanFds_calls (dir : String) (fds : List String) :
    (scanFds mountPt dir fds).Calls isRead := by
  induction fds with
  | nil => trivial
  | cons fd rest ih =>
      have hfd : (do pure (isUnder mountPt (← readlink (dir ++ "/" ++ fd))) : Scan Bool).Calls
          isRead := .perform_bind trivial fun _ => trivial
      exact .bind (orNot_calls hfd) fun found => .ite trivial ih

theorem usesDirs_calls (pid : ℕ) : (usesDirs mountPt pid).Calls isRead :=
  orNot_calls (scanLinks_calls _)

theorem usesFiles_calls (pid : ℕ) : (usesFiles mountPt pid).Calls isRead := by
  have hscan : (do scanFds mountPt (fdDir pid) (← listdir (fdDir pid)) : Scan Bool).Calls isRead :=
    .perform_bind trivial fun fds => scanFds_calls _ fds
  exact orNot_calls hscan

theorem scanEntries_calls (entries : List String) (pids : List ℕ) :
    (scanEntries mountPt entries pids).Calls isRead := by
  induction entries generalizing pids with
  | nil => trivial
  | cons entry rest ih =>
      refine .ite (.ite (ih pids) ?_) (ih pids)
      refine .bind (usesDirs_calls _) fun byDir => .ite (ih _) ?_
      exact .bind (usesFiles_calls _) fun byFile => ih _

theorem scan_spec : Spec procStep (scan mountPt) fun table outcome log _ =>
    swept mountPt table outcome ∧ ∀ event ∈ log, isRead event.op := by
  have hswept : Spec procStep (scan mountPt) fun table outcome _ _ =>
      swept mountPt table outcome :=
    fun table log outcome table' htrace hhistory => Prog.trace_wp wp_scan htrace hhistory
  exact hswept.with_calls (.perform_bind trivial fun entries => scanEntries_calls entries [])

theorem killAll_spec (pids : List ℕ) : Spec procStep (killAll pids) fun _ outcome log _ =>
    outcome = .returned () ∧ ∀ pid, Killed log pid ↔ pid ∈ pids := by
  induction pids with
  | nil => exact Spec.of_wp fun _ => ⟨rfl, by simp [Killed]⟩
  | cons pid rest ih =>
      have hrest (table : ProcTable) (event : Event ProcCall.Ret Exc) (hop : event.op = .kill pid) :
          (killAll rest).wp (demonic (logged procStep)) (fun outcome s =>
            outcome = .returned () ∧ ∀ other, Killed s.2 other ↔ other ∈ pid :: rest)
            (table, [event]) := by
        apply ih.wp
        rintro outcome log table' ⟨houtcome, hkilled⟩
        refine ⟨houtcome, fun other => ?_⟩
        rw [List.mem_cons, ← hkilled other]
        simp [Killed, hop, eq_comm]
      apply Spec.of_wp
      intro table
      simp only [killAll, kill, Prog.bind_eq, Prog.wp_bind, Prog.wp_except, Prog.wp_perform,
        demonic_logged_iff]
      rintro (exc | value) table' ⟨-, hclass⟩
      · rw [Prog.answered_error, Prog.handled_raised, if_pos (hclass exc rfl)]
        exact hrest table' _ rfl
      · exact hrest table' _ rfl

/-- Exactly the processes that the scan finds are killed. -/
theorem killMountUsers_spec : Spec procStep (killMountUsers mountPt) fun table outcome log _ =>
    outcome = .returned () ∧ ∀ pid, Killed log pid ↔ Target mountPt table pid := by
  apply Spec.of_wp
  intro table
  simp only [killMountUsers, Prog.bind_eq, Prog.wp_bind, Prog.wp_attempt]
  apply scan_spec.wp
  rintro outcome scanned table' ⟨hswept, hreads⟩
  have hnone (pid : ℕ) : ¬ Killed scanned pid := by
    rintro ⟨event, hmem, hop⟩
    have hread := hreads event hmem
    rw [hop] at hread
    exact hread
  cases outcome with
  | returned pids =>
      apply (killAll_spec pids).wp
      rintro outcome log table'' ⟨houtcome, hkilled⟩
      refine ⟨houtcome, fun pid => ?_⟩
      rw [← hswept pid, ← hkilled pid]
      constructor
      · rintro ⟨event, hmem, hop⟩
        rcases List.mem_append.mp hmem with hfirst | hsecond
        · exact absurd ⟨event, hfirst, hop⟩ (hnone pid)
        · exact ⟨event, hsecond, hop⟩
      · rintro ⟨event, hmem, hop⟩
        exact ⟨event, List.mem_append_right _ hmem, hop⟩
  | raised exc => exact ⟨rfl, fun pid => iff_of_false (hnone pid) (hswept pid)⟩
  | stuck => exact hswept.elim

/-- A user that is not found: its current directory cannot be read, its root is under the mount
point, and none of its open files is. -/
structure Hidden (mountPt : String) (table : ProcTable) (pid : ℕ) : Prop where
  process : Process table pid
  low : 1000 < pid
  cwd : table.link (procPath pid ++ "/cwd") = none
  root : Linked mountPt table (procPath pid ++ "/root")
  files : ¬ FileUnder mountPt table pid

/-- Who is found uses the mount point. -/
theorem uses_of_found {pid : ℕ} (h : Found mountPt table pid) : Uses mountPt table pid := by
  rcases h with ⟨cwd, hcwd, hunder | ⟨root, hroot, hunder | hrest⟩⟩ | hfile
  · exact .inl ⟨cwd, hcwd, hunder⟩
  · exact .inr (.inl ⟨root, hroot, hunder⟩)
  · exact hrest.elim
  · exact .inr (.inr hfile)

/-- Who uses the mount point is found, but for one case. -/
theorem found_or_of_uses {pid : ℕ} (h : Uses mountPt table pid) :
    Found mountPt table pid ∨ table.link (procPath pid ++ "/cwd") = none ∧
      Linked mountPt table (procPath pid ++ "/root") := by
  rcases h with ⟨cwd, hcwd, hunder⟩ | hroot | hfile
  · exact .inl (.inl ⟨cwd, hcwd, .inl hunder⟩)
  · cases hcwd : table.link (procPath pid ++ "/cwd") with
    | none => exact .inr ⟨rfl, hroot⟩
    | some cwd =>
        obtain ⟨root, hlink, hunder⟩ := hroot
        exact .inl (.inl ⟨cwd, hcwd, .inr ⟨root, hlink, .inl hunder⟩⟩)
  · exact .inl (.inr hfile)

/-- Who is hidden is not found. -/
theorem Hidden.not_found {pid : ℕ} (h : Hidden mountPt table pid) :
    ¬ Found mountPt table pid := by
  rintro (⟨cwd, hcwd, -⟩ | hfile)
  · rw [h.cwd] at hcwd
    cases hcwd
  · exact h.files hfile

/-- **Killing the users.**  Exactly the processes above 1000 that use the mount point are killed,
unless one of them is hidden. -/
theorem killsUsers_iff (mountPt : String) (table table' : ProcTable)
    (trace : List (Event ProcCall.Ret Exc)) (outcome : Outcome Exc Unit)
    (htrace : (killMountUsers mountPt).Trace trace outcome)
    (hhistory : History procStep table trace table') :
    (∀ pid, Killed trace pid ↔ Process table pid ∧ 1000 < pid ∧ Uses mountPt table pid) ↔
      ∀ pid, ¬ Hidden mountPt table pid := by
  obtain ⟨-, hkilled⟩ := killMountUsers_spec table trace outcome table' htrace hhistory
  simp only [hkilled, Target]
  constructor
  · intro h pid hhidden
    have huses : Uses mountPt table pid := .inr (.inl hhidden.root)
    exact hhidden.not_found ((h pid).mpr ⟨hhidden.process, hhidden.low, huses⟩).2.2
  · intro h pid
    constructor
    · rintro ⟨hprocess, hlow, hfound⟩
      exact ⟨hprocess, hlow, uses_of_found hfound⟩
    · rintro ⟨hprocess, hlow, huses⟩
      refine ⟨hprocess, hlow, ?_⟩
      by_contra hfound
      rcases found_or_of_uses huses with hyes | ⟨hcwd, hroot⟩
      · exact hfound hyes
      · exact h pid ⟨hprocess, hlow, hcwd, hroot, fun hfile => hfound (.inr hfile)⟩

/-! ## Sample scans -/

section Sample

/-- Answer from the table. -/
def consult : (op : ProcCall) → ProcTable → Except Exc op.Ret × ProcTable
  | .listdir path, table =>
      ((table.dir path).elim (.error ⟨.osError, "Permission denied"⟩) .ok, table)
  | .readlink path, table =>
      ((table.link path).elim (.error ⟨.osError, "Permission denied"⟩) .ok, table)
  | .kill _, table => (.ok (), table)

theorem procStep_consult (table : ProcTable) (op : ProcCall) :
    procStep table ⟨op, (consult op table).1⟩ (consult op table).2 := by
  have hshows {α : Type} (shown : Option α) :
      Shows shown (shown.elim (.error ⟨.osError, "Permission denied"⟩) .ok) := by
    cases shown with
    | none => exact ⟨_, rfl, rfl⟩
    | some value => rfl
  cases op with
  | listdir path => exact ⟨rfl, hshows _⟩
  | readlink path => exact ⟨rfl, hshows _⟩
  | kill pid => exact ⟨rfl, fun exc hexc => by cases hexc⟩

/-- One process, of which only the link to its root can be read. -/
def jailed (root : String) : ProcTable where
  dir path := if path = "/proc" then some ["1234", "self"] else none
  link path := if path = "/proc/1234/root" then some root else none

/-- A scan for the users of a mount point. -/
def sweep (table : ProcTable) : Run ProcCall.Ret Exc Unit ProcTable :=
  (killMountUsers "/pgdata").run consult table

/-- One process, which works under the mount point. -/
def backend : ProcTable where
  dir path := if path = "/proc" then some ["1234", "self"] else none
  link path := if path = "/proc/1234/cwd" then some "/pgdata/base" else none

theorem killsUsers_backend : Killed (sweep backend).log 1234 := by
  have hiff := killsUsers_iff "/pgdata" backend (sweep backend).final _ _ (trace_run _ _ _)
    (history_run procStep_consult _ _)
  have hone (pid : ℕ) (h : Process backend pid) : pid = 1234 := by
    obtain ⟨entries, hentries, entry, hmem, hdigit, rfl⟩ := h
    obtain rfl : ["1234", "self"] = entries := Option.some.inj hentries
    rcases List.mem_pair.mp hmem with rfl | rfl
    · decide
    · exact absurd hdigit (by decide)
  have hshown : ∀ pid, ¬ Hidden "/pgdata" backend pid := by
    rintro pid h
    obtain rfl := hone pid h.process
    exact absurd h.cwd (by decide)
  have hprocess : Process backend 1234 := ⟨_, rfl, "1234", by decide, by decide, by decide⟩
  have hcwd : Linked "/pgdata" backend (procPath 1234 ++ "/cwd") :=
    ⟨"/pgdata/base", by decide, isUnder_iff.mp (by decide)⟩
  exact (hiff.mpr hshown 1234).mpr ⟨hprocess, by decide, .inl hcwd⟩

/-- The process in the jail under the mount point is not found. -/
theorem hidden_jailed : Hidden "/pgdata" (jailed "/pgdata/jail") 1234 where
  process := ⟨_, rfl, "1234", by decide, by decide, by decide⟩
  low := by decide
  cwd := by decide
  root := ⟨"/pgdata/jail", by decide, isUnder_iff.mp (by decide)⟩
  files := by
    rintro ⟨fds, hfds, -⟩
    have hdir : (jailed "/pgdata/jail").dir (fdDir 1234) = none := by decide
    rw [hdir] at hfds
    cases hfds

theorem not_killsUsers : ¬ ∀ mountPt table trace outcome table', mountPt ≠ "/" →
    (killMountUsers mountPt).Trace trace outcome → History procStep table trace table' →
      ∀ pid, Killed trace pid ↔ Process table pid ∧ 1000 < pid ∧ Uses mountPt table pid := by
  intro h
  have htrace : (killMountUsers "/pgdata").Trace (sweep (jailed "/pgdata/jail")).log
      (sweep (jailed "/pgdata/jail")).outcome := trace_run _ _ _
  have hhistory : History procStep (jailed "/pgdata/jail") (sweep (jailed "/pgdata/jail")).log
      (sweep (jailed "/pgdata/jail")).final := history_run procStep_consult _ _
  have hkilled := (h "/pgdata" _ _ _ _ (by decide) htrace hhistory 1234).mpr
    ⟨hidden_jailed.process, hidden_jailed.low, .inr (.inl hidden_jailed.root)⟩
  obtain ⟨-, hspec⟩ := killMountUsers_spec _ _ _ _ htrace hhistory
  exact hidden_jailed.not_found ((hspec 1234).mp hkilled).2.2

end Sample

end PgHa.MountUsers
