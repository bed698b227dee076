import PgHa.Effect.Triple
import PgHa.Gcp.Footprint
import PgHa.Linux.MountTable
import PgHa.Model.Host

/-!
# What is mounted at the mount point

`_is_mounted` looks for the configured mount point in `/proc/mounts`: as the second field
of a line, character for character.  Whatever is mounted there counts, if it can be
listed, as the cluster's filesystem (`mounted_iff`).  Another spelling of the same
directory is not found, and of several mounts one is removed (`unmounted_iff`).

Two things are found out only by trying: whether a directory at which nothing is mounted can
be listed, and whether the forced unmount of `mount_disk` takes anything away.  They are the
`Trial` of a run, and every run has one (`exists_trial`).
-/

namespace PgHa.Mounts

open Effect DiskManager Linux

variable {cfg : Config}

/-- What the paths of the configuration stand for: directories as the kernel names them,
and disks. -/
structure Host where
  dirOf : String → String
  diskAt : String → String

variable {host : Host}

/-- A new mount of the disk behind a device can be read. -/
structure Fresh (host : Host) (device path : String) (mount : Mount String) : Prop where
  disk : mount.disk = host.diskAt device
  dir : mount.dir = host.dirOf path
  healthy : mount.healthy = true

/-- A command has the effect of a step, if it succeeds; if it fails, nothing has happened,
and if it is not known how it has ended, either. -/
def Effected {α : Type} (answer : Except Exc CompletedProcess) (effect : α → α → Prop)
    (s s' : α) : Prop :=
  match answer with
  | .ok result => if result.returncode = 0 then effect s s' else s' = s
  | .error _ => s' = s ∨ effect s s'

/-- `/proc/mounts` shows the table, a directory can be listed if what is mounted there can
be read, and nobody else mounts and unmounts. -/
def mountStep (host : Host) (table : MountTable String) (event : Event SysCall.Ret Exc)
    (table' : MountTable String) : Prop :=
  match event with
  | ⟨.host .readMounts, answer⟩ =>
      table' = table ∧ ∀ lines, answer = .ok lines → lines = linesOf table.text
  | ⟨.host (.listdir path), answer⟩ =>
      table' = table ∧ ∀ mount, table.topAt (host.dirOf path) = some mount →
        (answer.toBool = true ↔ mount.healthy = true)
  | ⟨.host (.run (.umount _ path)), answer⟩ =>
      Effected answer (fun s s' => s' = MountTable.unmountAt (host.dirOf path) s) table table'
  | ⟨.host (.run (.mount device path)), answer⟩ =>
      Effected answer (fun s s' => ∃ mount, Fresh host device path mount ∧ s' = s ++ [mount])
        table table'
  | _ => table' = table

/-- The mounts at the mount point, the topmost one last. -/
def mountStack (cfg : Config) (host : Host) (table : MountTable String) : List (Mount String) :=
  table.stackAt (host.dirOf cfg.gcp.diskMountPoint)

/-- `/proc/mounts` shows the mount point as it is configured. -/
def Listed (cfg : Config) (table : MountTable String) : Prop :=
  (linesOf table.text).any (mountsAt cfg.gcp.diskMountPoint) = true

/-! ## What `/proc/mounts` shows -/

/-- A mount whose names contain no white space but such that is escaped. -/
structure Plain (mount : Mount String) : Prop where
  device_ne : mount.device.toList ≠ []
  device : ∀ char ∈ mount.device.toList, isSpace char = true → special char = true
  dir_ne : mount.dir.toList ≠ []
  dir : ∀ char ∈ mount.dir.toList, isSpace char = true → special char = true
  options : '\n' ∉ mount.options.toList ∧ '\r' ∉ mount.options.toList

theorem isSpace_of_octal : isSpace '\\' = false ∧
    ∀ n < 8, isSpace (Char.ofNat ('0'.toNat + n)) = false := by
  decide

/-- An escaped name is one field. -/
theorem isSpace_escape {isSpecial : Char → Bool} {text : List Char}
    (h : ∀ char ∈ text, isSpace char = true → isSpecial char = true) :
    ∀ char ∈ escape isSpecial text, isSpace char = false := by
  refine forall_mem_escape (P := fun char => isSpace char = false) isSpace_of_octal.1
    isSpace_of_octal.2 fun char hmem hplain => ?_
  rw [Bool.eq_false_iff]
  intro hspace
  rw [h char hmem hspace] at hplain
  cases hplain

theorem toList_line (mount : Mount String) : mount.line.toList =
    (shownDevice mount.device).toList ++ ' ' :: ((shownDir mount.dir).toList ++
      ' ' :: mount.options.toList) := by
  simp [Mount.line]

/-- The first two fields of a line are the device and the directory. -/
theorem split_line {mount : Mount String} (h : Plain mount) :
    ∃ rest, split mount.line = shownDevice mount.device :: shownDir mount.dir :: rest := by
  have hdevice : ∀ char ∈ (shownDevice mount.device).toList, isSpace char = false := by
    rw [shownDevice, String.toList_ofList]
    apply isSpace_escape
    intro char hmem hspace
    simp [h.device char hmem hspace]
  have hdir : ∀ char ∈ (shownDir mount.dir).toList, isSpace char = false := by
    rw [shownDir, String.toList_ofList]
    exact isSpace_escape h.dir
  have hdevice_ne : (shownDevice mount.device).toList ≠ [] := by
    rw [shownDevice, String.toList_ofList]
    exact escape_ne_nil h.device_ne
  have hdir_ne : (shownDir mount.dir).toList ≠ [] := by
    rw [shownDir, String.toList_ofList]
    exact escape_ne_nil h.dir_ne
  have hblank : isSpace ' ' = true := by decide
  rw [split, toList_line, List.splitOnP_append_cons_of_forall_mem hdevice _ hblank,
    List.splitOnP_append_cons_of_forall_mem hdir _ hblank]
  simp [hdevice_ne, hdir_ne]

/-- The mount point is found in a line exactly when it is spelled as the table shows it. -/
theorem mountsAt_line {mount : Mount String} (h : Plain mount) (mountPt : String) :
    mountsAt mountPt mount.line = true ↔ shownDir mount.dir = mountPt := by
  obtain ⟨rest, hsplit⟩ := split_line h
  simp [mountsAt, hsplit]

theorem universalNewlines_eq_self {text : List Char} (h : '\r' ∉ text) :
    universalNewlines text = text := by
  induction text with
  | nil => rfl
  | cons char rest ih =>
      have hrest : universalNewlines rest = rest := ih (List.not_mem_of_not_mem_cons h)
      have hchar : char ≠ '\r' := fun hchar => h (hchar ▸ List.mem_cons_self)
      unfold universalNewlines
      split <;> simp_all

/-- A line has no line end in it. -/
theorem not_mem_line {mount : Mount String} (h : Plain mount) :
    '\n' ∉ mount.line.toList ∧ '\r' ∉ mount.line.toList := by
  have hname {isSpecial : Char → Bool} {text : List Char} {char : Char}
      (hescaped : ∀ char ∈ text, isSpace char = true → isSpecial char = true)
      (hchar : isSpace char = true) : char ∉ escape isSpecial text := by
    intro hmem
    rw [isSpace_escape hescaped char hmem] at hchar
    cases hchar
  have hdevice : ∀ char ∈ mount.device.toList, isSpace char = true →
      (special char || char == '#') = true := by
    intro char hmem hspace
    simp [h.device char hmem hspace]
  rw [toList_line, shownDevice, shownDir, String.toList_ofList, String.toList_ofList]
  constructor
  · simp [hname hdevice, hname h.dir, h.options.1, show isSpace '\n' = true by decide]
  · simp [hname hdevice, hname h.dir, h.options.2, show isSpace '\r' = true by decide]

theorem toList_text (table : MountTable String) :
    table.text.toList = table.flatMap fun mount => mount.line.toList ++ ['\n'] := by
  simp [MountTable.text, String.toList_join, List.flatMap_map]

theorem splitOnP_text {table : MountTable String} (h : ∀ mount ∈ table, Plain mount) :
    table.text.toList.splitOnP (· == '\n') = table.map (·.line.toList) ++ [[]] := by
  rw [toList_text]
  induction table with
  | nil => rfl
  | cons mount rest ih =>
      have hmount : ∀ char ∈ mount.line.toList, (char == '\n') = false := by
        intro char hmem
        have hne : char ≠ '\n' := fun hchar =>
          (not_mem_line (h mount List.mem_cons_self)).1 (hchar ▸ hmem)
        simpa using hne
      have hrest := ih fun other hother => h other (List.mem_cons_of_mem _ hother)
      rw [List.flatMap_cons, List.append_assoc, List.singleton_append,
        List.splitOnP_append_cons_of_forall_mem hmount _ (by rfl), hrest]
      rfl

/-- The lines of the table are those of its mounts. -/
theorem linesOf_text {table : MountTable String} (h : ∀ mount ∈ table, Plain mount) :
    linesOf table.text = table.map Mount.line ++ [""] := by
  have hkept : universalNewlines table.text.toList = table.text.toList := by
    apply universalNewlines_eq_self
    rw [toList_text]
    intro hmem
    obtain ⟨mount, hmount, hchar⟩ := List.mem_flatMap.mp hmem
    simp [(not_mem_line (h mount hmount)).2] at hchar
  rw [linesOf, hkept, List.splitOn_eq_splitOnP, splitOnP_text h]
  simp [Function.comp_def]

/-- The mount point is listed exactly when it is spelled as the table shows some mount. -/
theorem listed_iff {table : MountTable String} (h : ∀ mount ∈ table, Plain mount) :
    Listed cfg table ↔ ∃ mount ∈ table, shownDir mount.dir = cfg.gcp.diskMountPoint := by
  have hempty : mountsAt cfg.gcp.diskMountPoint "" = false := by
    have hfields : split "" = [] := by decide
    simp [mountsAt, hfields]
  rw [Listed, linesOf_text h]
  simp only [List.any_append, List.any_map, List.any_cons, List.any_nil, hempty, Bool.or_false,
    List.any_eq_true, Function.comp_apply]
  constructor
  · rintro ⟨mount, hmem, hmount⟩
    exact ⟨mount, hmem, (mountsAt_line (h mount hmem) _).mp hmount⟩
  · rintro ⟨mount, hmem, hmount⟩
    exact ⟨mount, hmem, (mountsAt_line (h mount hmem) _).mpr hmount⟩

/-- A mount point with white space in it is never listed: the table shows it escaped. -/
theorem Listed.isSpace {table : MountTable String} (h : ∀ mount ∈ table, Plain mount)
    (hlisted : Listed cfg table) :
    ∀ char ∈ cfg.gcp.diskMountPoint.toList, isSpace char = false := by
  obtain ⟨mount, hmem, hshown⟩ := (listed_iff h).mp hlisted
  rw [← hshown, shownDir, String.toList_ofList]
  exact isSpace_escape (h mount hmem).dir

/-- Nor is one with a slash at its end, as the table shows none but that of the root. -/
theorem Listed.eq_root {table : MountTable String} (h : ∀ mount ∈ table, Plain mount)
    (hroot : ∀ mount ∈ table, mount.dir.toList.getLast? = some '/' → mount.dir = "/")
    (hlisted : Listed cfg table) (hslash : cfg.gcp.diskMountPoint.toList.getLast? = some '/') :
    cfg.gcp.diskMountPoint = "/" := by
  obtain ⟨mount, hmem, hshown⟩ := (listed_iff h).mp hlisted
  rw [← hshown, shownDir, String.toList_ofList] at hslash
  have hdir : mount.dir = "/" := by
    apply hroot mount hmem
    exact getLast?_of_escape (by decide) hslash
  rw [← hshown, hdir]
  decide

/-! ## Unmounting -/

theorem stack_unmountAt (table : MountTable String) :
    mountStack cfg host (table.unmountAt (host.dirOf cfg.gcp.diskMountPoint)) =
      (mountStack cfg host table).dropLast :=
  MountTable.stackAt_unmountAt

/-- One mount is removed, and nothing is left if there were no others. -/
theorem dropLast_eq_nil_iff {α : Type} {stack : List α} :
    stack.dropLast = [] ↔ stack = [] ∨ stack.length = 1 := by
  cases stack with
  | nil => simp
  | cons top rest => cases rest <;> simp

/-- A normal return of `unmount_disk`: the mount point is not listed and nothing has
happened, or one mount at it has been removed. -/
theorem unmountDisk_triple (table : MountTable String) :
    Prog.Triple (demonic (mountStep host)) (· = table) (unmountDisk cfg)
      (fun _ table' => ¬ Listed cfg table ∧ table' = table ∨
        Listed cfg table ∧ mountStack cfg host table' = (mountStack cfg host table).dropLast)
      fun _ => True := by
  rintro s rfl
  simp only [unmountDisk, isMounted, Prog.bind_eq, Prog.wp_bind, Prog.wp_perform]
  rintro (exc | lines) table₁ ⟨rfl, hlines⟩
  · trivial
  · obtain rfl : lines = linesOf table₁.text := hlines lines rfl
    rw [Prog.answered_ok, Prog.andThen_returned, Prog.pure_eq, Prog.wp_pure, Prog.andThen_returned,
      Prog.wp_ite]
    split_ifs with hlisted
    · simp only [Prog.wp_bind, Prog.wp_perform]
      rintro (exc | result) table₂ hfirst
      · trivial
      · rw [Prog.answered_ok, Prog.andThen_returned, Prog.wp_ite]
        split_ifs with hexit
        · obtain rfl : table₂ = _ := (if_pos hexit).mp hfirst
          exact .inr ⟨hlisted, stack_unmountAt _⟩
        · obtain rfl : table₂ = table₁ := (if_neg hexit).mp hfirst
          simp only [Prog.wp_bind, Prog.wp_perform]
          rintro (exc | resultLazy) table₃ hlazy
          · trivial
          · rw [Prog.answered_ok, Prog.andThen_returned, Prog.wp_ite]
            -- the forced unmount has failed as well
            split_ifs with hexit'
            · trivial
            · obtain rfl : table₃ = _ := (if_pos (not_not.mp hexit')).mp hlazy
              exact .inr ⟨hlisted, stack_unmountAt _⟩
    · exact .inl ⟨hlisted, rfl⟩

theorem stack_of_unmountDisk {table table' : MountTable String}
    {trace : List (Event SysCall.Ret Exc)} (htrace : (unmountDisk cfg).Trace trace (.returned ()))
    (hhistory : History (mountStep host) table trace table') :
    mountStack cfg host table' = [] ↔ mountStack cfg host table = [] ∨
      (mountStack cfg host table).length = 1 ∧ Listed cfg table := by
  rcases Prog.trace_wp (unmountDisk_triple table table rfl) htrace hhistory with
    ⟨hnot, rfl⟩ | ⟨hlisted, hstack⟩
  · simp [hnot]
  · rw [hstack, dropLast_eq_nil_iff]
    simp [hlisted]

/-- **Unmounting.**  A normal return leaves nothing mounted at the mount point exactly when
nothing was, or one filesystem was and the configured mount point is listed. -/
theorem unmounted_iff (cfg : Config) (host : Host) (table table' : MountTable String)
    (trace : List (Event SysCall.Ret Exc))
    (htrace : (unmountDisk cfg).Trace trace (.returned ()))
    (hhistory : History (mountStep host) table trace table') :
    mountStack cfg host table' = [] ↔ mountStack cfg host table = [] ∨
      (mountStack cfg host table).length = 1 ∧ Listed cfg table :=
  stack_of_unmountDisk htrace hhistory

/-! ## Mounting -/

/-- The command that mounts the disk. -/
def mountCommand (cfg : Config) : SysCall :=
  .host (.run (.mount (devPath cfg) cfg.gcp.diskMountPoint))

/-- A mount of the cluster's disk that cannot be read any more. -/
def Stale (cfg : Config) (host : Host) (stack : List (Mount String)) : Prop :=
  ∃ mount ∈ stack, mount.disk = host.diskAt (devPath cfg) ∧ mount.healthy = false

/-- What is seen at the mount point is the filesystem of the cluster's disk, it can be read,
and it covers no stale mount of the disk. -/
def Mounted (cfg : Config) (host : Host) (table : MountTable String) : Prop :=
  ∃ below mount, mountStack cfg host table = below ++ [mount] ∧
    mount.disk = host.diskAt (devPath cfg) ∧ mount.healthy = true ∧ ¬ Stale cfg host below

theorem mounted_append_iff {table : MountTable String} {mount : Mount String}
    (h : Fresh host (devPath cfg) cfg.gcp.diskMountPoint mount) :
    Mounted cfg host (table ++ [mount]) ↔ ¬ Stale cfg host (mountStack cfg host table) := by
  have hstack : mountStack cfg host (table ++ [mount]) = mountStack cfg host table ++ [mount] :=
    MountTable.stackAt_append_of_eq h.dir
  rw [Mounted, hstack]
  constructor
  · rintro ⟨below, top, happend, -, -, hstale⟩
    rwa [List.append_inj_left' happend rfl]
  · exact fun hstale => ⟨_, mount, rfl, h.disk, h.healthy, hstale⟩

/-- What only trying tells: whether the bare directory can be listed, where nothing is
mounted at it, and whether the forced unmount takes the topmost mount away. -/
structure Trial where
  listable : Bool
  unmounts : Bool

/-- What an unmount leaves. -/
def Trial.leaves (trial : Trial) (dir : String) (table : MountTable String) : MountTable String :=
  if trial.unmounts then table.unmountAt dir else table

variable {trial : Trial}

/-- A step of the host on which the trials end as given.  That an unmount which exits with 0
takes the topmost mount away, and one which exits with another code does not, is said by
`mountStep`; one that raises may end either way. -/
def trialStep (host : Host) (trial : Trial) (table : MountTable String)
    (event : Event SysCall.Ret Exc) (table' : MountTable String) : Prop :=
  mountStep host table event table' ∧
    match event with
    | ⟨.host (.listdir path), answer⟩ =>
        table.topAt (host.dirOf path) = none → answer.toBool = trial.listable
    | ⟨.host (.run (.umount _ path)), _⟩ =>
        table' = trial.leaves (host.dirOf path) table
    | _ => True

/-- What is seen at the mount point can be listed: the topmost mount is healthy, or nothing is
mounted there and the bare directory can be listed. -/
def Readable (cfg : Config) (host : Host) (trial : Trial) (table : MountTable String) : Prop :=
  ((table.topAt (host.dirOf cfg.gcp.diskMountPoint)).map (·.healthy)).getD trial.listable = true

/-- Looking changes nothing. -/
theorem look_keeps {α : Type} {program : Sys α} (hcalls : program.Calls isLook)
    (table : MountTable String) :
    Prog.Keeps (demonic (trialStep host trial)) (· = table) program := by
  refine Prog.Triple.of_calls (demonic_monotone _) ?_ hcalls
  rintro op hop s rfl answer s' ⟨hstep, -⟩
  cases op with
  | gcp call => exact hstep
  | host call => cases call <;> first | exact hop.elim | exact hstep | exact hstep.1

/-- A normal return of the second part of `mount_disk` has mounted the disk. -/
theorem mountDevice_triple (table : MountTable String) :
    Prog.Triple (demonic (trialStep host trial)) (· = table) (mountDevice cfg)
      (fun _ table' => ∃ mount, Fresh host (devPath cfg) cfg.gcp.diskMountPoint mount ∧
        table' = table ++ [mount])
      fun _ => True := by
  have hmount : Prog.Triple (demonic (trialStep host trial)) (· = table)
      ((Sys.host (.run (.mount (devPath cfg) cfg.gcp.diskMountPoint))).bind fun result =>
        if result.returncode ≠ 0 then
          let text := strip result.stderr
          Prog.raise
            (.runtimeError s!"mount {devPath cfg} {cfg.gcp.diskMountPoint} failed: {text}")
        else pure PUnit.unit : Sys Unit)
      (fun _ table' => ∃ mount, Fresh host (devPath cfg) cfg.gcp.diskMountPoint mount ∧
        table' = table ++ [mount]) fun _ => True := by
    rintro s rfl
    simp only [Prog.wp_bind, Prog.wp_perform]
    rintro (exc | result) table' ⟨hstep, -⟩
    · trivial
    · rw [Prog.answered_ok, Prog.andThen_returned, Prog.wp_ite]
      split_ifs with hcode
      · trivial
      · exact (if_pos (not_not.mp hcode)).mp hstep
  rintro s rfl
  simp only [mountDevice, Prog.bind_eq, Prog.wp_bind, Prog.wp_perform]
  -- the directory is made if it is not there, and then the mount is the same
  rintro (exc | present) table₁ ⟨hexists, -⟩
  · trivial
  · obtain rfl : table₁ = s := hexists
    rw [Prog.answered_ok, Prog.andThen_returned, Prog.wp_ite]
    split_ifs with habsent
    · simp only [Prog.wp_bind, Prog.wp_perform]
      rintro (exc | result) table₂ ⟨hmkdir, -⟩
      · trivial
      · obtain rfl : table₂ = table₁ := hmkdir
        rw [Prog.answered_ok, Prog.andThen_returned, Prog.wp_ite]
        split_ifs with hcode
        · trivial
        · exact hmount table₂ rfl
    · exact hmount table₁ rfl

/-- What can be read at the mount point is mounted properly if it is the disk and no mount of the
disk is stale. -/
theorem mounted_iff_of_readable {table : MountTable String}
    (hreadable : Readable cfg host trial table) :
    Mounted cfg host table ↔
      (mountStack cfg host table).getLast?.map (·.disk) = some (host.diskAt (devPath cfg)) ∧
        ¬ Stale cfg host (mountStack cfg host table) := by
  constructor
  · rintro ⟨below, mount, hstack, hdisk, hhealthy, hstale⟩
    rw [hstack]
    refine ⟨by simp [hdisk], ?_⟩
    rintro ⟨other, hmem, hother, hunhealthy⟩
    rcases List.mem_append.mp hmem with hbelow | htop
    · exact hstale ⟨other, hbelow, hother, hunhealthy⟩
    · rw [List.mem_singleton.mp htop, hhealthy] at hunhealthy
      cases hunhealthy
  · rintro ⟨htop, hstale⟩
    rcases List.eq_nil_or_concat (mountStack cfg host table) with hnil | ⟨below, mount, hstack⟩
    · simp [hnil] at htop
    · rw [List.concat_eq_append] at hstack
      have hdisk : mount.disk = host.diskAt (devPath cfg) := by simpa [hstack] using htop
      have hhealthy : mount.healthy = true := by
        have hlast : table.topAt (host.dirOf cfg.gcp.diskMountPoint) = some mount := by
          show (mountStack cfg host table).getLast? = some mount
          simp [hstack]
        simpa [Readable, hlast] using hreadable
      refine ⟨below, mount, hstack, hdisk, hhealthy, ?_⟩
      rintro ⟨other, hmem, hother⟩
      exact hstale ⟨other, by simp [hstack, hmem], hother⟩

/-- `_is_mounted` tells whether the mount point is listed. -/
theorem isMounted_triple (table : MountTable String) :
    Prog.Triple (demonic (trialStep host trial)) (· = table)
      (isMounted cfg.gcp.diskMountPoint)
      (fun mounted table' => table' = table ∧ (mounted = true ↔ Listed cfg table))
      fun _ => True := by
  rintro s rfl
  simp only [isMounted, Prog.bind_eq, Prog.wp_bind, Prog.wp_perform]
  rintro (exc | lines) table' ⟨⟨rfl, hlines⟩, -⟩
  · trivial
  · obtain rfl : lines = linesOf table'.text := hlines lines rfl
    exact ⟨rfl, Iff.rfl⟩

/-- `_is_mount_healthy` tells whether what is seen at the mount point can be listed. -/
theorem isMountHealthy_triple (table : MountTable String) :
    Prog.Triple (demonic (trialStep host trial)) (· = table)
      (isMountHealthy cfg.gcp.diskMountPoint)
      (fun healthy table' => table' = table ∧ (healthy = true ↔ Readable cfg host trial table))
      fun _ => True := by
  rintro s rfl
  simp only [isMountHealthy, Prog.bind_eq, Prog.wp_bind, Prog.wp_attempt, Prog.wp_perform]
  rintro answer table' ⟨⟨rfl, hseen⟩, hbare⟩
  have hanswer : answer.toBool = true ↔ Readable cfg host trial table' := by
    unfold Readable
    cases htop : table'.topAt (host.dirOf cfg.gcp.diskMountPoint) with
    | some mount => exact hseen mount htop
    | none => rw [hbare htop]; rfl
  cases answer with
  | ok names => exact ⟨rfl, hanswer⟩
  | error exc =>
      show Prog.wp _ (if exc.isOSError then pure false else .raise exc : Sys Bool) _ _
      rw [Prog.wp_ite]
      split_ifs with hos
      · exact ⟨rfl, hanswer⟩
      · trivial

/-- What a normal return of `mount_disk` has done: nothing, if the mount point is listed and can
be read; else it has mounted the disk, over what the forced unmount has left if the mount point
is listed, and over all that is there if it is not. -/
inductive MountEnd (cfg : Config) (host : Host) (trial : Trial) (table : MountTable String) :
    MountTable String → Prop
  | kept (hlisted : Listed cfg table) (hreadable : Readable cfg host trial table) :
      MountEnd cfg host trial table table
  | remounted {mount : Mount String} (hlisted : Listed cfg table)
      (hunreadable : ¬ Readable cfg host trial table)
      (hfresh : Fresh host (devPath cfg) cfg.gcp.diskMountPoint mount) :
      MountEnd cfg host trial table
        (trial.leaves (host.dirOf cfg.gcp.diskMountPoint) table ++ [mount])
  | mounted {mount : Mount String} (hunlisted : ¬ Listed cfg table)
      (hfresh : Fresh host (devPath cfg) cfg.gcp.diskMountPoint mount) :
      MountEnd cfg host trial table (table ++ [mount])

theorem mountDisk_triple (table : MountTable String) :
    Prog.Triple (demonic (trialStep host trial)) (· = table) (mountDisk cfg)
      (fun _ => MountEnd cfg host trial table) fun _ => True := by
  have hmono := demonic_monotone (trialStep host trial)
  refine .after_keeps hmono (look_keeps (waitForDevice_calls cfg _ _) table) (fun _ => ?_)
    fun _ _ => trivial
  refine .bind hmono (isMounted_triple table) fun mounted => ?_
  rintro s ⟨rfl, hmounted⟩
  rw [Prog.wp_ite]
  split_ifs with hlisting
  · have hlisted : Listed cfg s := hmounted.mp hlisting
    refine Prog.Triple.bind hmono (isMountHealthy_triple s) (fun healthy => ?_) s rfl
    rintro s' ⟨hs', hhealthy⟩
    subst s'
    rw [Prog.wp_ite]
    split_ifs with hprobe
    · exact .kept hlisted (hhealthy.mp hprobe)
    · have hunreadable : ¬ Readable cfg host trial s := fun h => hprobe (hhealthy.mpr h)
      rw [Prog.bind_eq, Prog.wp_bind, Prog.wp_attempt, Prog.wp_perform]
      -- how the forced unmount is reported makes no difference, only what it has done
      rintro answer left ⟨-, hleft⟩
      obtain rfl : left = trial.leaves (host.dirOf cfg.gcp.diskMountPoint) s := hleft
      have hmount : Prog.Triple (demonic (trialStep host trial)) (· = trial.leaves _ s)
          (mountDevice cfg) (fun _ => MountEnd cfg host trial s) fun _ => True :=
        (mountDevice_triple _).conseq hmono (fun _ => id)
          (fun _ _ ⟨_, hfresh, h⟩ => h ▸ .remounted hlisted hunreadable hfresh) fun _ => id
      cases answer <;> exact hmount _ rfl
  · have hunlisted : ¬ Listed cfg s := fun h => hlisting (hmounted.mpr h)
    exact (mountDevice_triple s).conseq hmono (fun _ => id)
      (fun _ _ ⟨_, hfresh, h⟩ => h ▸ .mounted hunlisted hfresh) (fun _ => id) s rfl

/-! ### Every run has its trials -/

/-- Nothing is found out by these operations. -/
def isPlain : SysCall → Prop
  | .host (.listdir _) | .host (.run (.umount ..)) => False
  | _ => True

/-- So far, the run is one with each of these trials. -/
def FitsTrials (host : Host) (table : MountTable String) (trials : Set Trial)
    (s : MountTable String × List (Event SysCall.Ret Exc)) : Prop :=
  ∀ trial ∈ trials, History (trialStep host trial) table s.2 s.1

theorem fits_keeps {α : Type} {program : Sys α} (hcalls : program.Calls isPlain)
    (table : MountTable String) (trials : Set Trial) :
    Prog.Keeps (demonic (logged (mountStep host))) (FitsTrials host table trials) program := by
  refine Prog.Triple.of_calls (demonic_monotone _) ?_ hcalls
  rintro op hop ⟨s, log⟩ hfits
  rw [demonic_logged_iff]
  intro answer s' hstep trial hmem
  refine (hfits trial hmem).append (.cons ⟨hstep, ?_⟩ (.nil s'))
  cases op with
  | gcp call => trivial
  | host call =>
      cases call with
      | listdir path => exact hop.elim
      | run command => cases command <;> first | exact hop.elim | trivial
      | _ => trivial

theorem mountDevice_plain : (mountDevice cfg).Calls isPlain := by
  have hmount : ((Sys.host (.run (.mount (devPath cfg) cfg.gcp.diskMountPoint))).bind fun result =>
      if result.returncode ≠ 0 then
        let text := strip result.stderr
        Prog.raise (.runtimeError s!"mount {devPath cfg} {cfg.gcp.diskMountPoint} failed: {text}")
      else pure PUnit.unit : Sys Unit).Calls isPlain :=
    .perform_bind trivial fun _ => .ite trivial trivial
  refine .perform_bind trivial fun present => .ite ?_ hmount
  exact .perform_bind trivial fun result => .ite trivial hmount

theorem waitForDevice_plain (devPath : String) (timeout : Int) :
    (waitForDevice cfg devPath timeout).Calls isPlain := by
  refine .perform_bind trivial fun now => ?_
  generalize now + 1000 * timeout = deadline
  induction cfg.loopBound with
  | zero => trivial
  | succ fuel ih =>
      refine .perform_bind trivial fun now => .ite (.perform_bind trivial fun present => ?_) trivial
      exact .ite trivial (.perform_bind trivial fun _ => ih)

/-- Listing the directory settles whether it can be listed. -/
theorem isMountHealthy_fits (mountPt : String) (table : MountTable String) :
    Prog.Triple (demonic (logged (mountStep host))) (FitsTrials host table Set.univ)
      (isMountHealthy mountPt)
      (fun _ s => ∃ listable, FitsTrials host table {trial | trial.listable = listable} s)
      fun _ => True := by
  rintro ⟨s, log⟩ hfits
  simp only [isMountHealthy, Prog.bind_eq, Prog.wp_bind, Prog.wp_attempt, Prog.wp_perform,
    demonic_logged_iff]
  intro answer s' hstep
  have hlisted : FitsTrials host table {trial | trial.listable = answer.toBool}
      (s', log ++ [⟨.host (.listdir mountPt), answer⟩]) := fun trial htrial =>
    (hfits trial trivial).append (.cons ⟨hstep, fun _ => htrial.symm⟩ (.nil s'))
  cases answer with
  | ok names => exact ⟨_, hlisted⟩
  | error exc =>
      show Prog.wp _ (if exc.isOSError then pure false else .raise exc : Sys Bool) _ _
      rw [Prog.wp_ite]
      split_ifs
      · exact ⟨_, hlisted⟩
      · trivial

/-- The forced unmount settles whether it takes the topmost mount away. -/
theorem forcedUnmount_fits (mountPt : String) (table : MountTable String) (listable : Bool) :
    Prog.Triple (demonic (logged (mountStep host)))
      (FitsTrials host table {trial | trial.listable = listable})
      (Sys.host (.run (.umount true mountPt))).attempt
      (fun _ s => ∃ trial, FitsTrials host table {trial} s) fun _ => True := by
  rintro ⟨s, log⟩ hfits
  simp only [Prog.wp_attempt, Prog.wp_perform, demonic_logged_iff]
  intro answer s' hstep
  have hleaves : ∃ unmounts, s' = Trial.leaves ⟨listable, unmounts⟩ (host.dirOf mountPt) s := by
    have heffected : Effected answer
        (fun s s' => s' = MountTable.unmountAt (host.dirOf mountPt) s) s s' := hstep
    cases answer with
    | ok result =>
        rw [Effected] at heffected
        split_ifs at heffected with hcode
        · exact ⟨true, heffected⟩
        · exact ⟨false, heffected⟩
    | error exc =>
        rcases heffected with hkept | hdone
        · exact ⟨false, hkept⟩
        · exact ⟨true, hdone⟩
  obtain ⟨unmounts, hleaves⟩ := hleaves
  have hfits' : FitsTrials host table {⟨listable, unmounts⟩}
      (s', log ++ [⟨.host (.run (.umount true mountPt)), answer⟩]) := by
    rintro _ rfl
    exact (hfits ⟨listable, unmounts⟩ rfl).append (.cons ⟨hstep, hleaves⟩ (.nil s'))
  cases answer <;> exact ⟨_, hfits'⟩

/-- `mount_disk` lists the directory at most once, and tries the forced unmount at most once:
every run of it is one in which the trials end somehow. -/
theorem exists_trial (cfg : Config) (host : Host) (table table' : MountTable String)
    (trace : List (Event SysCall.Ret Exc)) (htrace : (mountDisk cfg).Trace trace (.returned ()))
    (hhistory : History (mountStep host) table trace table') :
    ∃ trial, History (trialStep host trial) table trace table' := by
  have hmono := demonic_monotone (logged (mountStep host))
  -- mounting the device tries nothing that is still open
  have hdevice (trials : Set Trial) (trial : Trial) (hmem : trial ∈ trials) :
      Prog.Triple (demonic (logged (mountStep host))) (FitsTrials host table trials)
        (mountDevice cfg) (fun _ s => ∃ trial, FitsTrials host table {trial} s) fun _ => True := by
    refine (fits_keeps mountDevice_plain table trials).conseq hmono (fun _ => id) ?_
      fun _ _ => trivial
    exact fun _ s hfits => ⟨trial, fun _ htrial => hfits _ (htrial ▸ hmem)⟩
  have htriple : Prog.Triple (demonic (logged (mountStep host)))
      (FitsTrials host table Set.univ) (mountDisk cfg)
      (fun _ s => ∃ trial, FitsTrials host table {trial} s) fun _ => True := by
    refine .after_keeps hmono (fits_keeps (waitForDevice_plain _ _) table _) (fun _ => ?_)
      fun _ _ => trivial
    have hmounted : (isMounted cfg.gcp.diskMountPoint).Calls isPlain := by
      refine .perform_bind ?_ fun _ => ?_ <;> trivial
    refine .after_keeps hmono (fits_keeps hmounted table _) (fun mounted => ?_) fun _ _ => trivial
    refine .ite (fun _ => ?_) fun _ => hdevice _ ⟨true, true⟩ trivial
    refine .bind hmono (isMountHealthy_fits _ table) fun healthy => .ite (fun _ => ?_) fun _ => ?_
    · rintro s ⟨listable, hfits⟩
      exact ⟨⟨listable, true⟩, fun _ htrial => hfits _ (htrial ▸ rfl)⟩
    · rintro s ⟨listable, hfits⟩
      refine Prog.Triple.bind hmono (forcedUnmount_fits _ table listable) (fun _ => ?_) s hfits
      rintro s' ⟨trial, hfits'⟩
      exact hdevice {trial} trial rfl s' hfits'
  obtain ⟨trial, hfits⟩ := Prog.trace_wp (htriple (table, []) fun _ _ => .nil table) htrace
    (hhistory.logged [])
  exact ⟨trial, hfits trial rfl⟩

/-- **Mounting.**  After a normal return the disk is mounted properly exactly when no stale mount
of it is left in the way: where the mount point is listed and what is seen there can be read,
that has to be the disk already, with no stale mount below; where it cannot be read, what the
forced unmount leaves must contain none; and where the mount point is not listed, nothing that
is there may be one. -/
theorem mounted_iff (cfg : Config) (host : Host) (trial : Trial)
    (table table' : MountTable String) (trace : List (Event SysCall.Ret Exc))
    (htrace : (mountDisk cfg).Trace trace (.returned ()))
    (hhistory : History (trialStep host trial) table trace table') :
    Mounted cfg host table' ↔
      (Listed cfg table ∧ Readable cfg host trial table ∧
        (mountStack cfg host table).getLast?.map (·.disk) = some (host.diskAt (devPath cfg)) ∧
        ¬ Stale cfg host (mountStack cfg host table)) ∨
      (Listed cfg table ∧ ¬ Readable cfg host trial table ∧
        ¬ Stale cfg host (if trial.unmounts then (mountStack cfg host table).dropLast
          else mountStack cfg host table)) ∨
      (¬ Listed cfg table ∧ ¬ Stale cfg host (mountStack cfg host table)) := by
  have hend : MountEnd cfg host trial table table' :=
    Prog.trace_wp (mountDisk_triple table table rfl) htrace hhistory
  cases hend with
  | kept hlisted hreadable =>
      rw [mounted_iff_of_readable hreadable]
      simp [hlisted, hreadable]
  | remounted hlisted hunreadable hfresh =>
      rw [mounted_append_iff hfresh, Trial.leaves, apply_ite (mountStack cfg host),
        stack_unmountAt]
      simp [hlisted, hunreadable]
  | mounted hunlisted hfresh =>
      rw [mounted_append_iff hfresh]
      simp [hunlisted]

/-! ## Sample runs -/

section Sample

/-- A path may end in slashes, and a device is a link to a disk. -/
def sampleHost : Host where
  dirOf := rstripSlashes
  diskAt device := device

/-- The cluster's filesystem. -/
def dataMount (healthy : Bool) : Mount String :=
  ⟨"/dev/disk/by-id/google-pg-data-disk", "/dev/sdb", "/pgdata", "xfs rw 0 0", healthy⟩

/-- A host on which an unmount ends with a given code, and everything else succeeds. -/
def kernel (code : Int) : (op : SysCall) → MountTable String →
    Except Exc op.Ret × MountTable String
  | .host .readMounts, table => (.ok (linesOf table.text), table)
  | .host (.listdir path), table =>
      (if (table.topAt (sampleHost.dirOf path)).all (·.healthy) then .ok ()
        else .error ⟨.osError, "Input/output error"⟩, table)
  | .host (.pathExists _), table => (.ok true, table)
  | .host (.run (.umount _ path)), table =>
      (.ok ⟨code, "", ""⟩, if code = 0 then table.unmountAt (sampleHost.dirOf path) else table)
  | .host (.run (.mount device path)), table =>
      (.ok ⟨0, "", ""⟩, table ++
        [⟨sampleHost.diskAt device, "/dev/sdc", sampleHost.dirOf path, "xfs rw 0 0", true⟩])
  | .gcp _, table => (.error ⟨.requestException, "timed out"⟩, table)
  | .host call, table =>
      let node : DaemonState := ⟨{ name := "" }, 0, 0, "UNKNOWN", false, false, 0⟩
      (node.reply call, table)

theorem mountStep_kernel (code : Int) (table : MountTable String) (op : SysCall) :
    mountStep sampleHost table ⟨op, (kernel code op table).1⟩ (kernel code op table).2 := by
  cases op with
  | gcp call => rfl
  | host call =>
      cases call with
      | readMounts => exact ⟨rfl, fun lines hlines => by cases hlines; rfl⟩
      | listdir path =>
          refine ⟨rfl, fun mount hmount => ?_⟩
          cases hhealthy : mount.healthy <;> simp [kernel, hmount, hhealthy, Except.toBool]
      | run command =>
          cases command with
          | umount lazily path =>
              simp only [mountStep, Effected, kernel]
              split_ifs <;> rfl
          | mount device path => exact ⟨_, ⟨rfl, rfl, rfl⟩, rfl⟩
          | _ => rfl
      | _ => rfl

/-- The filesystem is unmounted. -/
def unmounting : Run SysCall.Ret Exc Unit (MountTable String) :=
  (unmountDisk .samplePrimary).run (kernel 0) [dataMount true]

theorem unmounted_dataMount : mountStack .samplePrimary sampleHost unmounting.final = [] := by
  have htrace : (unmountDisk .samplePrimary).Trace unmounting.log unmounting.outcome :=
    trace_run _ _ _
  have houtcome : unmounting.outcome = .returned () := by decide
  rw [houtcome] at htrace
  have hiff := unmounted_iff .samplePrimary sampleHost _ _ unmounting.log htrace
    (history_run (mountStep_kernel 0) _ _)
  have hone : (mountStack .samplePrimary sampleHost [dataMount true]).length = 1 := by decide
  have hlisted : Listed .samplePrimary [dataMount true] := by unfold Listed; decide
  exact hiff.mpr (.inr ⟨hone, hlisted⟩)

/-- The mount point is configured with a slash at its end. -/
def slashed : Config :=
  { Config.samplePrimary with
    gcp := { Config.samplePrimary.gcp with diskMountPoint := "/pgdata/" } }

/-- The filesystem is not found. -/
def overlooking : Run SysCall.Ret Exc Unit (MountTable String) :=
  (unmountDisk slashed).run (kernel 0) [dataMount true]

theorem not_unmounted : ¬ ∀ cfg host table trace table',
    (unmountDisk cfg).Trace trace (.returned ()) →
      History (mountStep host) table trace table' → mountStack cfg host table' = [] := by
  intro h
  have htrace : (unmountDisk slashed).Trace overlooking.log overlooking.outcome :=
    trace_run _ _ _
  have houtcome : overlooking.outcome = .returned () := by decide
  rw [houtcome] at htrace
  have hstack := h slashed sampleHost _ overlooking.log overlooking.final htrace
    (history_run (mountStep_kernel 0) _ _)
  have hleft : (mountStack slashed sampleHost overlooking.final).length = 1 := by decide
  rw [hstack] at hleft
  cases hleft

/-- The disk is mounted where nothing is. -/
def mounting : Run SysCall.Ret Exc Unit (MountTable String) :=
  (mountDisk .samplePrimary).run (kernel 0) []

/-- The trials on such a host. -/
def kernelTrial (code : Int) : Trial := ⟨true, code == 0⟩

theorem trialStep_kernel (code : Int) (table : MountTable String) (op : SysCall) :
    trialStep sampleHost (kernelTrial code) table ⟨op, (kernel code op table).1⟩
      (kernel code op table).2 := by
  refine ⟨mountStep_kernel code table op, ?_⟩
  cases op with
  | gcp call => trivial
  | host call =>
      cases call with
      | listdir path =>
          intro hbare
          simp [kernel, hbare, kernelTrial, Except.toBool]
      | run command =>
          cases command with
          | umount lazily path => simp [kernel, kernelTrial, Trial.leaves]
          | _ => trivial
      | _ => trivial

theorem mounted_mounting : Mounted .samplePrimary sampleHost mounting.final := by
  have htrace : (mountDisk .samplePrimary).Trace mounting.log mounting.outcome :=
    trace_run _ _ _
  have houtcome : mounting.outcome = .returned () := by decide
  rw [houtcome] at htrace
  have hiff := mounted_iff .samplePrimary sampleHost (kernelTrial 0) [] _ mounting.log htrace
    (history_run (trialStep_kernel 0) _ _)
  have hunlisted : ¬ Listed .samplePrimary [] := by unfold Listed; decide
  have hempty : mountStack .samplePrimary sampleHost [] = [] := rfl
  exact hiff.mpr (.inr (.inr ⟨hunlisted, by simp [hempty, Stale]⟩))

/-- A stale mount cannot be unmounted, and the disk is mounted over it. -/
def covering : Run SysCall.Ret Exc Unit (MountTable String) :=
  (mountDisk .samplePrimary).run (kernel 32) [dataMount false]

theorem not_mounted : ¬ ∀ cfg host table trace table',
    (mountDisk cfg).Trace trace (.returned ()) →
      History (mountStep host) table trace table' → Mounted cfg host table' := by
  intro h
  have htrace : (mountDisk .samplePrimary).Trace covering.log covering.outcome :=
    trace_run _ _ _
  have houtcome : covering.outcome = .returned () := by decide
  rw [houtcome] at htrace
  obtain ⟨below, mount, hstack, -, -, hstale⟩ := h .samplePrimary sampleHost _ covering.log
    covering.final htrace (history_run (mountStep_kernel 32) _ _)
  have hcovered : mountStack .samplePrimary sampleHost covering.final =
      [dataMount false] ++ [⟨devPath .samplePrimary, "/dev/sdc", "/pgdata", "xfs rw 0 0", true⟩] :=
    by rfl
  rw [hcovered] at hstack
  obtain ⟨rfl, -⟩ := List.append_inj' hstack rfl
  exact hstale ⟨_, List.mem_singleton_self _, rfl, rfl⟩

end Sample

end PgHa.Mounts
