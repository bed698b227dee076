import PgHa.Config.Load

/-!
# What is loaded is what was written

There is no writer for the configuration in the repository, only people with an
editor.  `document` says what they have to write down for a configuration, and
`load_of_lays` that it is loaded whatever they put around it.  A percent sign in a
value is doubled there (`Ini.Dialect.quote`).

A value that they do not think about is another matter: `get?_render_iff` says
which of them the daemon does not see as they are.  A token with a space and a
hash sign in it is one.
-/

namespace PgHa.ConfigFile

open Ini

/-! ## What is written -/

inductive Value
  | text (value : String)
  | int (value : Int)
  | real (value : Real)

def Value.print (std : Stdlib) : Value → String
  | .text value => value
  | .int value => toString value
  | .real value => std.strFloat value

/-- The keys of a section with their values; a key whose value is `None` is not written. -/
abbrev Settings := List (String × Option Value)

def ClusterCfg.settings (cfg : ClusterCfg) : Settings :=
  [("name", cfg.name.map .text),
    ("node_name", cfg.nodeName.map .text),
    ("peer_node", cfg.peerNode.map .text),
    ("peer_ip", cfg.peerIp.map .text),
    ("heartbeat_port", some (.int cfg.heartbeatPort)),
    ("peer_port", some (.int cfg.peerPort)),
    ("heartbeat_interval", some (.real cfg.heartbeatInterval)),
    ("dead_interval", some (.real cfg.deadInterval)),
    ("quorum_timeout", some (.real cfg.quorumTimeout)),
    ("fence_wait", some (.real cfg.fenceWait)),
    ("peer_auth_token", some (.text cfg.peerAuthToken)),
    ("maintenance_file", some (.text cfg.maintenanceFile))]

def GcpCfg.settings (cfg : GcpCfg) : Settings :=
  [("project_id", cfg.projectId.map .text),
    ("region", cfg.region.map .text),
    ("zone_primary", cfg.zonePrimary.map .text),
    ("zone_standby", cfg.zoneStandby.map .text),
    ("disk_name", cfg.diskName.map .text),
    ("disk_device_name", cfg.diskDeviceName.map .text),
    ("disk_mount_point", cfg.diskMountPoint.map .text),
    ("disk_fs_type", some (.text cfg.diskFsType)),
    ("instance_primary", cfg.instancePrimary.map .text),
    ("instance_standby", cfg.instanceStandby.map .text),
    ("nic_name", some (.text cfg.nicName)),
    ("vip_address", cfg.vipAddress.map .text),
    ("vip_cidr", cfg.vipCidr.map .text),
    ("service_account_key", cfg.serviceAccountKey.map .text),
    ("api_timeout", some (.int cfg.apiTimeout))]

def PostgreSQLCfg.settings (cfg : PostgreSQLCfg) : Settings :=
  [("host", some (.text cfg.host)),
    ("port", some (.int cfg.port)),
    ("user", some (.text cfg.user)),
    ("database", some (.text cfg.database)),
    ("data_dir", cfg.dataDir.map .text),
    ("pg_ctl", some (.text cfg.pgCtl)),
    ("pg_isready", some (.text cfg.pgIsready)),
    ("pg_os_user", some (.text cfg.pgOsUser)),
    ("pg_start_timeout", some (.int cfg.pgStartTimeout)),
    ("pg_stop_timeout", some (.int cfg.pgStopTimeout))]

def MonitorCfg.settings (cfg : MonitorCfg) : Settings :=
  [("check_interval", some (.real cfg.checkInterval)),
    ("pg_response_timeout", some (.real cfg.pgResponseTimeout)),
    ("pg_fail_threshold", some (.int cfg.pgFailThreshold)),
    ("os_cpu_threshold", some (.real cfg.osCpuThreshold)),
    ("os_mem_threshold", some (.real cfg.osMemThreshold)),
    ("os_disk_threshold", some (.real cfg.osDiskThreshold)),
    ("os_fail_count", some (.int cfg.osFailCount))]

def LoggingCfg.settings (cfg : LoggingCfg) : Settings :=
  [("level", some (.text cfg.level)),
    ("file", some (.text cfg.file)),
    ("max_bytes", some (.int cfg.maxBytes)),
    ("backup_count", some (.int cfg.backupCount))]

def ApiCfg.settings (cfg : ApiCfg) : Settings :=
  [("socket_path", some (.text cfg.socketPath))]

def EfmCfg.settings (cfg : EfmCfg) : Settings :=
  [("enabled", some (.text (if cfg.enabled then "true" else "false"))),
    ("service_name", some (.text cfg.serviceName))]

/-- A configuration by section, in the order of the file that ships with the daemon. -/
def Config.settings (cfg : Config) : List (String × Settings) :=
  [("cluster", cfg.cluster.settings),
    ("gcp", cfg.gcp.settings),
    ("postgresql", cfg.postgresql.settings),
    ("monitor", cfg.monitor.settings),
    ("logging", cfg.logging.settings),
    ("api", cfg.api.settings),
    ("efm", cfg.efm.settings)]

/-- The options of a section that are written. -/
def options (std : Stdlib) (settings : Settings) : List (Text × Text) :=
  settings.filterMap fun entry =>
    entry.2.map fun value => (entry.1.toList, Dialect.quote (value.print std).toList)

/-- What is written for a configuration. -/
def document (std : Stdlib) (cfg : Config) : Document :=
  cfg.settings.map fun part => (part.1.toList, options std part.2)

/-! ## What has to hold of the texts -/

/-- A value that can be told from its text. -/
structure Value.Readable (std : Stdlib) (value : Value) : Prop where
  trimmed : strip (value.print std) = value.print std
  int : ∀ number, value = .int number → std.intOfText (value.print std) = some number
  real : ∀ number, value = .real number → std.floatOfText (value.print std) = some number

structure Config.Readable (std : Stdlib) (cfg : Config) : Prop where
  value : ∀ part ∈ cfg.settings, ∀ entry ∈ part.2, ∀ value ∈ entry.2, value.Readable std
  serviceAccountKey : cfg.gcp.serviceAccountKey ≠ some ""

/-- A letter of the Latin alphabet in lower case, a digit or an underscore. -/
def wordChar (c : Char) : Bool :=
  (97 ≤ c.toNat && c.toNat ≤ 122) || (48 ≤ c.toNat && c.toNat ≤ 57) || c.toNat == 95

def wordy (text : String) : Bool := text ≠ "" && text.toList.all wordChar

/-- What is in lower case already stays as it is. -/
def Stdlib.LowersWords (std : Stdlib) : Prop :=
  ∀ text, wordy text = true → std.lower text.toList = text.toList

section

variable {std : Stdlib}

theorem not_wordChar_of_isSpace {c : Char} (h : isSpace c = true) : wordChar c = false := by
  simp only [isSpace, Bool.or_eq_true, Bool.and_eq_true, decide_eq_true_eq, beq_iff_eq] at h
  simp only [wordChar, Bool.or_eq_false_iff, Bool.and_eq_false_iff, decide_eq_false_iff_not,
    beq_eq_false_iff_ne]
  omega

theorem wordChar_of_mem {text : String} (h : wordy text = true) {c : Char} (hc : c ∈ text.toList) :
    wordChar c = true := by
  simp only [wordy, Bool.and_eq_true, List.all_eq_true] at h
  exact h.2 c hc

theorem regular_dialect : (dialect std).Regular where
  blank := rfl
  newline := rfl
  prefixes c hc := by
    simp only [dialect, List.mem_cons, List.not_mem_nil, or_false] at hc
    rcases hc with rfl | rfl <;> rfl
  delimiters c hc := by
    simp only [dialect, List.mem_cons, List.not_mem_nil, or_false] at hc
    rcases hc with rfl | rfl <;> exact ⟨rfl, by simp [dialect]⟩
  opening := ⟨rfl, by simp [dialect]⟩
  closing := ⟨rfl, by simp [dialect]⟩

theorem not_mem_of_wordy {text : String} (h : wordy text = true) {c : Char}
    (hc : wordChar c = false) : c ∉ text.toList := by
  intro hmem
  rw [wordChar_of_mem h hmem] at hc
  cases hc

theorem toList_ne_nil_of_wordy {text : String} (h : wordy text = true) : text.toList ≠ [] := by
  intro hnil
  have hempty : text = "" := String.toList_inj.mp hnil
  subst hempty
  simp [wordy] at h

theorem trim_of_wordy {text : String} (h : wordy text = true) :
    (dialect std).trim text.toList = text.toList := by
  have hspace : ∀ c ∈ text.toList, (dialect std).space c = false := by
    intro c hc
    by_contra hspace
    rw [Bool.not_eq_false] at hspace
    exact not_mem_of_wordy h (not_wordChar_of_isSpace hspace) hc
  generalize text.toList = list at hspace
  cases list with
  | nil => rfl
  | cons c rest =>
      rw [Dialect.trim_of_head (hspace c List.mem_cons_self), Dialect.trimRight,
        List.rdropWhile_eq_self_iff]
      intro hne
      simp [hspace _ (List.getLast_mem hne)]

theorem printable_of_wordy (hlower : std.LowersWords) {key : String} (h : wordy key = true) :
    (dialect std).Printable key.toList where
  nonempty := toList_ne_nil_of_wordy h
  delimiters c hc := by
    intro hmem
    have hword := wordChar_of_mem h hc
    simp only [dialect, List.mem_cons, List.not_mem_nil, or_false] at hmem
    rcases hmem with rfl | rfl <;> exact absurd hword (by decide)
  bracket := by
    intro hhead
    exact not_mem_of_wordy h (c := '[') (by decide) (List.mem_of_mem_head? hhead)
  trimmed := trim_of_wordy h
  lower := hlower key h
  prefixes c hc := by
    intro hmem
    have hword := wordChar_of_mem h hc
    simp only [dialect, List.mem_cons, List.not_mem_nil, or_false] at hmem
    rcases hmem with rfl | rfl <;> exact absurd hword (by decide)

theorem printableName_of_wordy {name : String} (h : wordy name = true) :
    (dialect std).PrintableName name.toList where
  nonempty := toList_ne_nil_of_wordy h
  notDefault := by
    intro heq
    refine not_mem_of_wordy h (c := 'D') (by decide) ?_
    rw [heq]
    decide
  prefixes c hc := by
    intro hmem
    have hword := wordChar_of_mem h hc
    simp only [dialect, List.mem_cons, List.not_mem_nil, or_false] at hmem
    rcases hmem with rfl | rfl <;> exact absurd hword (by decide)

end

section Document

variable {std : Stdlib} {cfg : Config}

/-- The sections and their keys, which are the same for every configuration. -/
def layout : List (String × List String) :=
  [("cluster", ["name", "node_name", "peer_node", "peer_ip", "heartbeat_port", "peer_port",
      "heartbeat_interval", "dead_interval", "quorum_timeout", "fence_wait", "peer_auth_token",
      "maintenance_file"]),
    ("gcp", ["project_id", "region", "zone_primary", "zone_standby", "disk_name",
      "disk_device_name", "disk_mount_point", "disk_fs_type", "instance_primary",
      "instance_standby", "nic_name", "vip_address", "vip_cidr", "service_account_key",
      "api_timeout"]),
    ("postgresql", ["host", "port", "user", "database", "data_dir", "pg_ctl", "pg_isready",
      "pg_os_user", "pg_start_timeout", "pg_stop_timeout"]),
    ("monitor", ["check_interval", "pg_response_timeout", "pg_fail_threshold", "os_cpu_threshold",
      "os_mem_threshold", "os_disk_threshold", "os_fail_count"]),
    ("logging", ["level", "file", "max_bytes", "backup_count"]),
    ("api", ["socket_path"]),
    ("efm", ["enabled", "service_name"])]

theorem settings_layout (cfg : Config) :
    (cfg.settings.map fun part => (part.1, part.2.map (·.1))) = layout := rfl

theorem layout_wordy : ∀ part ∈ layout, wordy part.1 = true ∧ ∀ key ∈ part.2, wordy key = true := by
  decide +kernel

theorem layout_nodup : (layout.map (·.1)).Nodup ∧ ∀ part ∈ layout, part.2.Nodup := by
  decide +kernel

theorem toList_injective : Function.Injective String.toList := fun _ _ h => String.toList_inj.mp h

theorem mem_layout {part : String × Settings} (h : part ∈ cfg.settings) :
    (part.1, part.2.map (·.1)) ∈ layout := by
  rw [← settings_layout cfg]
  exact List.mem_map_of_mem (f := fun part : String × Settings => (part.1, part.2.map (·.1))) h

theorem mem_options {settings : Settings} {entry : Text × Text} (h : entry ∈ options std settings) :
    ∃ key value, (key, some value) ∈ settings ∧ entry.1 = key.toList ∧
      entry.2 = Dialect.quote (value.print std).toList := by
  obtain ⟨⟨key, value⟩, hmem, hentry⟩ := List.mem_filterMap.mp h
  obtain ⟨value, rfl, rfl⟩ := Option.map_eq_some_iff.mp hentry
  exact ⟨key, value, hmem, rfl, rfl⟩

theorem keys_options (settings : Settings) :
    ((options std settings).map (·.1)).Sublist ((settings.map (·.1)).map String.toList) := by
  induction settings with
  | nil => exact .slnil
  | cons entry rest ih =>
      obtain ⟨key, value⟩ := entry
      cases value with
      | none => exact .cons _ ih
      | some value => exact .cons_cons _ ih

theorem outline_document (hlower : std.LowersWords) (cfg : Config) :
    (dialect std).Outline (document std cfg) where
  names := by
    have hnames : (document std cfg).map (·.1) = (layout.map (·.1)).map String.toList := by
      rw [← settings_layout cfg]
      simp only [document, List.map_map]
      rfl
    rw [hnames]
    exact layout_nodup.1.map toList_injective
  name part hpart := by
    obtain ⟨part, hmem, rfl⟩ := List.mem_map.mp hpart
    exact printableName_of_wordy (layout_wordy _ (mem_layout hmem)).1
  keys part hpart := by
    obtain ⟨part, hmem, rfl⟩ := List.mem_map.mp hpart
    exact ((layout_nodup.2 _ (mem_layout hmem)).map toList_injective).sublist (keys_options part.2)
  key part hpart entry hentry := by
    obtain ⟨part, hmem, rfl⟩ := List.mem_map.mp hpart
    obtain ⟨key, value, hin, hkey, -⟩ := mem_options hentry
    rw [hkey]
    exact printable_of_wordy hlower
      ((layout_wordy _ (mem_layout hmem)).2 key (List.mem_map_of_mem (f := (·.1)) hin))

theorem wellFormed_document (hlower : std.LowersWords) (h : cfg.Readable std) :
    (dialect std).WellFormed (document std cfg) where
  names := (outline_document hlower cfg).names
  name part hpart := ((outline_document hlower cfg).name part hpart).toIsName
  keys := (outline_document hlower cfg).keys
  key part hpart entry hentry := ((outline_document hlower cfg).key part hpart entry hentry).toIsKey
  value part hpart entry hentry := by
    obtain ⟨part, hmem, rfl⟩ := List.mem_map.mp hpart
    obtain ⟨key, value, hin, -, hvalue⟩ := mem_options hentry
    have htrimmed : (dialect std).trim (value.print std).toList = (value.print std).toList := by
      have hstrip := congrArg String.toList
        (h.value part hmem (key, some value) hin value rfl).trimmed
      rwa [strip, String.toList_ofList] at hstrip
    rw [hvalue]
    exact Dialect.trim_quote rfl htrimmed

theorem lookup_map_toList {α β : Type} (f : α → β) (list : List (String × α)) (key : String) :
    (list.map fun entry => (entry.1.toList, f entry.2)).lookup key.toList =
      (list.lookup key).map f := by
  induction list with
  | nil => rfl
  | cons entry rest ih =>
      by_cases hkey : key = entry.1
      · simp [Dialect.lookup_entry, hkey]
      · have hother : key.toList ≠ entry.1.toList := fun heq => hkey (toList_injective heq)
        simp only [List.map_cons, Dialect.lookup_entry, beq_false_of_ne hkey,
          beq_false_of_ne hother]
        exact ih

theorem lookup_options {settings : Settings} (h : (settings.map (·.1)).Nodup) (key : String) :
    (options std settings).lookup key.toList =
      (settings.lookup key).join.map fun value => Dialect.quote (value.print std).toList := by
  induction settings with
  | nil => rfl
  | cons entry rest ih =>
      obtain ⟨key', value⟩ := entry
      rw [List.map_cons, List.nodup_cons] at h
      have hrest := ih h.2
      by_cases hkey : key = key'
      · subst hkey
        cases value with
        | some value => simp [options, Dialect.lookup_entry]
        -- an option without a value is not written, and has no second entry
        | none =>
            have hnone : rest.lookup key = none := by
              rw [List.lookup_eq_none_iff]
              intro entry hentry
              rw [bne_iff_ne]
              rintro rfl
              exact h.1 (List.mem_map_of_mem (f := (·.1)) hentry)
            rw [hnone] at hrest
            simpa [options, Dialect.lookup_entry] using hrest
      · have hother : key.toList ≠ key'.toList := fun heq => hkey (toList_injective heq)
        cases value with
        | some value =>
            simpa [options, Dialect.lookup_entry, beq_false_of_ne hkey,
              beq_false_of_ne hother] using hrest
        | none => simpa [options, Dialect.lookup_entry, beq_false_of_ne hkey] using hrest

theorem mem_settings {name : String} {settings : Settings}
    (h : cfg.settings.lookup name = some settings) : (name, settings) ∈ cfg.settings := by
  obtain ⟨before, after, heq, -⟩ := List.lookup_eq_some_iff.mp h
  rw [heq]
  simp

/-- What is written is read: by the section, the key and the quotes. -/
theorem get?_document (hlower : std.LowersWords) (h : cfg.Readable std) {name key : String}
    {settings : Settings} (hsection : cfg.settings.lookup name = some settings)
    (hkey : wordy key = true) :
    get? std (document std cfg).file name key =
      .ok ((settings.lookup key).join.map (·.print std)) := by
  have hmem : (name, settings) ∈ cfg.settings := mem_settings hsection
  have hname : (dialect std).PrintableName name.toList :=
    printableName_of_wordy (layout_wordy _ (mem_layout hmem)).1
  have hoptions : (document std cfg).lookup name.toList = some (options std settings) := by
    have hlookup := lookup_map_toList (options std) cfg.settings name
    rw [hsection] at hlookup
    exact hlookup
  have hget : (document std cfg).file.get (dialect std) name.toList key.toList =
      .ok ((settings.lookup key).join.map fun value => (value.print std).toList) := by
    refine Dialect.get_file (wellFormed_document hlower h)
      hname.notDefault (hlower key hkey) ?_
    rw [hoptions, Option.bind_some, lookup_options (layout_nodup.2 _ (mem_layout hmem)),
      Option.map_map]
    rfl
  unfold get?
  rw [hget]
  cases (settings.lookup key).join with
  | none => rfl
  | some value =>
      simp only [Option.map_some, Except.map, String.ofList_toList, Except.mapError]

/-! ## Reading the sections back -/

theorem Config.Readable.int (h : cfg.Readable std) {name : String} {settings : Settings}
    (hsection : cfg.settings.lookup name = some settings) (number : Int)
    (hmem : some (.int number) ∈ settings.map (·.2)) :
    std.intOfText (toString number) = some number := by
  obtain ⟨entry, hentry, hvalue⟩ := List.mem_map.mp hmem
  exact (h.value _ (mem_settings hsection) entry hentry _ hvalue).int number rfl

theorem Config.Readable.real (h : cfg.Readable std) {name : String} {settings : Settings}
    (hsection : cfg.settings.lookup name = some settings) (number : Real)
    (hmem : some (.real number) ∈ settings.map (·.2)) :
    std.floatOfText (std.strFloat number) = some number := by
  obtain ⟨entry, hentry, hvalue⟩ := List.mem_map.mp hmem
  exact (h.value _ (mem_settings hsection) entry hentry _ hvalue).real number rfl

theorem bind_ok {ε α β : Type} (value : α) (f : α → Except ε β) :
    (Except.ok value >>= f) = f value := rfl

theorem clusterCfg_document (hlower : std.LowersWords) (h : cfg.Readable std) :
    clusterCfg std (document std cfg).file = .ok cfg.cluster := by
  have hsection : cfg.settings.lookup "cluster" = some cfg.cluster.settings := rfl
  have hget := fun key (hkey : wordy key = true) => get?_document hlower h hsection hkey
  have hint := h.int hsection
  have hreal := h.real hsection
  simp [ClusterCfg.settings] at hint hreal
  simp (disch := decide) only [clusterCfg, getInt, getFloat, get, hget]
  simp [ClusterCfg.settings, Dialect.lookup_entry, Value.print, Function.comp_def,
    bind_ok, hint, hreal]

theorem nonempty?_some {text : String} (h : text ≠ "") : nonempty? (some text) = some text := by
  unfold nonempty?
  split <;> simp_all

theorem gcpCfg_document (hlower : std.LowersWords) (h : cfg.Readable std) :
    gcpCfg std (document std cfg).file = .ok cfg.gcp := by
  have hsection : cfg.settings.lookup "gcp" = some cfg.gcp.settings := rfl
  have hget := fun key (hkey : wordy key = true) => get?_document hlower h hsection hkey
  have hint := h.int hsection
  simp [GcpCfg.settings] at hint
  have hkey : nonempty? (some (strip (cfg.gcp.serviceAccountKey.getD ""))) =
      cfg.gcp.serviceAccountKey := by
    cases hkey : cfg.gcp.serviceAccountKey with
    | none => rfl
    | some text =>
        have hmem : ("service_account_key", some (.text text)) ∈ cfg.gcp.settings := by
          simp [GcpCfg.settings, hkey]
        have htrimmed : strip text = text :=
          (h.value _ (mem_settings hsection) _ hmem _ rfl).trimmed
        have hne : text ≠ "" := fun hempty => h.serviceAccountKey (by rw [hkey, hempty])
        rw [Option.getD_some, htrimmed, nonempty?_some hne]
  simp (disch := decide) only [gcpCfg, getInt, get, hget]
  simp [GcpCfg.settings, Dialect.lookup_entry, Value.print, Function.comp_def, bind_ok, hint, hkey]

theorem postgresqlCfg_document (hlower : std.LowersWords) (h : cfg.Readable std) :
    postgresqlCfg std (document std cfg).file = .ok cfg.postgresql := by
  have hsection : cfg.settings.lookup "postgresql" = some cfg.postgresql.settings := rfl
  have hget := fun key (hkey : wordy key = true) => get?_document hlower h hsection hkey
  have hint := h.int hsection
  simp [PostgreSQLCfg.settings] at hint
  simp (disch := decide) only [postgresqlCfg, getInt, get, hget]
  simp [PostgreSQLCfg.settings, Dialect.lookup_entry, Value.print, Function.comp_def, bind_ok, hint]

theorem monitorCfg_document (hlower : std.LowersWords) (h : cfg.Readable std) :
    monitorCfg std (document std cfg).file = .ok cfg.monitor := by
  have hsection : cfg.settings.lookup "monitor" = some cfg.monitor.settings := rfl
  have hget := fun key (hkey : wordy key = true) => get?_document hlower h hsection hkey
  have hint := h.int hsection
  have hreal := h.real hsection
  simp [MonitorCfg.settings] at hint hreal
  simp (disch := decide) only [monitorCfg, getInt, getFloat, hget]
  simp [MonitorCfg.settings, Dialect.lookup_entry, Value.print, bind_ok, hint, hreal]
  rfl

theorem loggingCfg_document (hlower : std.LowersWords) (h : cfg.Readable std) :
    loggingCfg std (document std cfg).file = .ok cfg.logging := by
  have hsection : cfg.settings.lookup "logging" = some cfg.logging.settings := rfl
  have hget := fun key (hkey : wordy key = true) => get?_document hlower h hsection hkey
  have hint := h.int hsection
  simp [LoggingCfg.settings] at hint
  simp (disch := decide) only [loggingCfg, getInt, get, hget]
  simp [LoggingCfg.settings, Dialect.lookup_entry, Value.print, bind_ok, hint]

theorem apiCfg_document (hlower : std.LowersWords) (h : cfg.Readable std) :
    apiCfg std (document std cfg).file = .ok cfg.api := by
  have hsection : cfg.settings.lookup "api" = some cfg.api.settings := rfl
  have hget := fun key (hkey : wordy key = true) => get?_document hlower h hsection hkey
  simp (disch := decide) only [apiCfg, get, hget]
  simp [ApiCfg.settings, Value.print]

theorem saysYes_print (hlower : std.LowersWords) (enabled : Bool) :
    saysYes std (if enabled then "true" else "false") = enabled := by
  unfold saysYes
  cases enabled with
  | true =>
      rw [if_pos rfl, hlower "true" (by decide)]
      simp
  | false =>
      rw [if_neg Bool.false_ne_true, hlower "false" (by decide)]
      simp

theorem efmCfg_document (hlower : std.LowersWords) (h : cfg.Readable std) :
    efmCfg std (document std cfg).file = .ok cfg.efm := by
  have hsection : cfg.settings.lookup "efm" = some cfg.efm.settings := rfl
  have hget := fun key (hkey : wordy key = true) => get?_document hlower h hsection hkey
  have hyes := saysYes_print hlower cfg.efm.enabled
  simp (disch := decide) only [efmCfg, get, hget]
  simp [EfmCfg.settings, Dialect.lookup_entry, Value.print, bind_ok, hyes]

theorem configOf_document (hlower : std.LowersWords) (h : cfg.Readable std) :
    configOf std (document std cfg).file = .ok cfg := by
  simp only [configOf, clusterCfg_document hlower h, gcpCfg_document hlower h,
    postgresqlCfg_document hlower h, monitorCfg_document hlower h, loggingCfg_document hlower h,
    apiCfg_document hlower h, efmCfg_document hlower h, bind_ok]
  rfl

end Document

section Lines

variable {std : Stdlib}

/-! ## A text on a line of its own -/

/-- The text of a file with these lines. -/
def textOf (lines : List Text) : String := String.ofList (['\n'].intercalate lines)

theorem universalNewlines_of_free {text : Text} (h : '\r' ∉ text) :
    universalNewlines text = text := by
  induction text with
  | nil => rfl
  | cons c rest ih =>
      rw [List.mem_cons, not_or] at h
      have hc : c ≠ '\r' := Ne.symm h.1
      rw [universalNewlines, ih h.2] <;> simp [hc]

theorem mem_intercalate {sep : Text} {lines : List Text} {c : Char}
    (h : c ∈ sep.intercalate lines) :
    c ∈ sep ∨ ∃ line ∈ lines, c ∈ line := by
  induction lines with
  | nil => simp at h
  | cons first rest ih =>
      cases rest with
      | nil => exact .inr ⟨first, List.mem_cons_self, by simpa using h⟩
      | cons second rest =>
          rw [List.intercalate_cons_cons, List.mem_append, List.mem_append] at h
          rcases h with (hfirst | hsep) | hrest
          · exact .inr ⟨first, List.mem_cons_self, hfirst⟩
          · exact .inl hsep
          · refine (ih hrest).imp_right fun hline => ?_
            obtain ⟨line, hline, hc⟩ := hline
            exact ⟨line, List.mem_cons_of_mem _ hline, hc⟩

theorem toList_linesOf_textOf {lines : List Text} (hne : lines ≠ [])
    (h : ∀ line ∈ lines, '\n' ∉ line ∧ '\r' ∉ line) :
    (linesOf (textOf lines)).map (·.toList) = lines := by
  have hreturn : '\r' ∉ ['\n'].intercalate lines := by
    intro hmem
    rcases mem_intercalate hmem with hsep | ⟨line, hline, hin⟩
    · simp at hsep
    · exact (h line hline).2 hin
  unfold linesOf textOf
  rw [String.toList_ofList, universalNewlines_of_free hreturn,
    List.splitOn_intercalate '\n' (fun line hline => (h line hline).1) hne, List.map_map]
  simp [Function.comp_def]

/-- A text without the characters that end a line. -/
def SingleLine (text : Text) : Prop := '\n' ∉ text ∧ '\r' ∉ text

/-- A document whose texts stand on a line each. -/
structure SingleLines (doc : Document) : Prop where
  nonempty : doc ≠ []
  name : ∀ part ∈ doc, SingleLine part.1
  key : ∀ part ∈ doc, ∀ entry ∈ part.2, SingleLine entry.1
  value : ∀ part ∈ doc, ∀ entry ∈ part.2, SingleLine entry.2

theorem singleLine_render {doc : Document} (h : SingleLines doc) :
    ∀ line ∈ Dialect.render doc, SingleLine line := by
  intro line hline
  obtain ⟨part, hpart, hin⟩ := List.mem_flatMap.mp hline
  simp only [List.mem_append, List.mem_cons, List.mem_map, List.not_mem_nil, or_false] at hin
  rcases hin with (rfl | ⟨entry, hentry, rfl⟩) | rfl
  · have hname := h.name part hpart
    simpa [SingleLine] using hname
  · have hkey := h.key part hpart entry hentry
    have hvalue := h.value part hpart entry hentry
    simp only [SingleLine, Dialect.written, List.mem_append, List.mem_cons, not_or]
    exact ⟨⟨hkey.1, by decide, by decide, by decide, hvalue.1⟩,
      ⟨hkey.2, by decide, by decide, by decide, hvalue.2⟩⟩
  · simp [SingleLine]

theorem render_ne_nil {doc : Document} (h : doc ≠ []) : Dialect.render doc ≠ [] := by
  obtain ⟨part, rest, rfl⟩ := List.exists_cons_of_ne_nil h
  simp [Dialect.render]

theorem readFile_render {doc : Document} (houtline : (dialect std).Outline doc)
    (h : SingleLines doc) :
    readFile std (.text (textOf (Dialect.render doc))) =
      .ok (doc.mapValues (dialect std).kept).file := by
  have hne := render_ne_nil h.nonempty
  have hread := Dialect.read_render regular_dialect (by simp [dialect]) houtline
  simp only [readFile, toList_linesOf_textOf hne (singleLine_render h), hread]
  rfl

theorem lookup_mapValues (f : Text → Text) (doc : Document) (name key : Text) :
    ((doc.mapValues f).lookup name).bind (·.lookup key) =
      ((doc.lookup name).bind (·.lookup key)).map f := by
  have hoptions : ∀ options : List (Text × Text),
      (options.map fun entry => (entry.1, f entry.2)).lookup key = (options.lookup key).map f := by
    intro options
    induction options with
    | nil => rfl
    | cons entry rest ih =>
      by_cases hkey : key = entry.1 <;> simp_all [Dialect.lookup_entry, beq_false_of_ne]
  induction doc with
  | nil => rfl
  | cons part rest ih =>
      by_cases hname : name = part.1
      · simp [Document.mapValues, Dialect.lookup_entry, hname, hoptions]
      · simpa [Document.mapValues, Dialect.lookup_entry, beq_false_of_ne hname] using ih

theorem mem_of_mem_kept {d : Dialect} {value : Text} {c : Char} (h : c ∈ d.kept value) :
    c = ' ' ∨ c ∈ value := by
  unfold Dialect.kept Dialect.trim Dialect.trimRight at h
  have hdrop := (List.rdropWhile_prefix _ _).subset h
  have htake := (List.dropWhile_suffix _).subset hdrop
  exact List.mem_cons.mp (List.mem_of_mem_take htake)

end Lines

/-! ## The file that ships with the daemon -/

/-- The standard library of Python, for whole numbers. -/
def sampleStdlib : Stdlib :=
  let digits (text : Text) : Option Int :=
    if text ≠ [] ∧ text.all Char.isDigit then
      some (text.foldl (fun value c => value * 10 + (c.toNat - 48)) 0)
    else none
  { lower := fun text => text.map fun c =>
      if 65 ≤ c.toNat ∧ c.toNat ≤ 90 then Char.ofNat (c.toNat + 32) else c
    intOfText := fun text => digits text.toList
    floatOfText := fun text => (digits (text.toList.takeWhile (· != '.'))).map fun n => .finite n
    strFloat := fun
      | .finite seconds => toString seconds.num ++ ".0"
      | _ => "" }

theorem lowersWords_sampleStdlib : sampleStdlib.LowersWords := by
  intro text h
  have hsame : ∀ c ∈ text.toList, (if 65 ≤ c.toNat ∧ c.toNat ≤ 90 then Char.ofNat (c.toNat + 32)
      else c) = c := by
    intro c hc
    have hword := wordChar_of_mem h hc
    simp only [wordChar, Bool.or_eq_true, Bool.and_eq_true, decide_eq_true_eq, beq_iff_eq] at hword
    exact if_neg (by omega)
  exact (List.map_congr_left hsame).trans (List.map_id _)

/-- The configuration in `conf/pgha.conf`. -/
def shipped : Config where
  cluster :=
    { name := some "pg-ha-cluster", nodeName := some "pg-primary", peerNode := some "pg-standby",
      peerIp := some "10.0.0.3", heartbeatPort := 7777, peerPort := 7778,
      heartbeatInterval := .finite 1, deadInterval := .finite 15, quorumTimeout := .finite 10,
      fenceWait := .finite 3, peerAuthToken := "",
      maintenanceFile := "/var/run/pgha/maintenance" }
  gcp :=
    { projectId := some "my-gcp-project", region := some "us-central1",
      zonePrimary := some "us-central1-a", zoneStandby := some "us-central1-b",
      diskName := some "pg-regional-disk", diskDeviceName := some "pg-data-disk",
      diskMountPoint := some "/pgdata", diskFsType := "xfs", instancePrimary := some "pg-primary",
      instanceStandby := some "pg-standby", nicName := "nic0", vipAddress := some "10.0.0.100",
      vipCidr := some "10.0.0.100/32", serviceAccountKey := none, apiTimeout := 30 }
  postgresql :=
    { host := "/var/run/edb/as15", port := 5444, user := "enterprisedb", database := "edb",
      dataDir := some "/pgdata/as15/data", pgCtl := "/usr/edb/as15/bin/pg_ctl",
      pgIsready := "/usr/edb/as15/bin/pg_isready", pgOsUser := "enterprisedb",
      pgStartTimeout := 60, pgStopTimeout := 30 }
  monitor :=
    { checkInterval := .finite 2, pgResponseTimeout := .finite 5, pgFailThreshold := 3,
      osCpuThreshold := .finite 95, osMemThreshold := .finite 95, osDiskThreshold := .finite 90,
      osFailCount := 5 }
  logging :=
    { level := "INFO", file := "/var/log/pgha/pgha.log", maxBytes := 104857600, backupCount := 10 }
  api := { socketPath := "/var/run/pgha/pgha.sock" }
  efm := { enabled := false, serviceName := "edb-efm-4.7" }

/-- The other modules see the sample configuration. -/
theorem view_shipped : shipped.view 8 = some PgHa.Config.samplePrimary := by
  have hdead : millis (.finite 15) = some 15000 := by decide +kernel
  have hfence : millis (.finite 3) = some 3000 := by decide +kernel
  simp [Config.view, shipped, hdead, hfence, natural, PgHa.Config.samplePrimary, PgHa.Config.sample]

def Value.readable (std : Stdlib) (value : Value) : Bool :=
  strip (value.print std) = value.print std &&
    match value with
    | .text _ => true
    | .int number => std.intOfText (value.print std) = some number
    | .real number => std.floatOfText (value.print std) = some number

theorem Value.readable_iff {std : Stdlib} {value : Value} (h : value.readable std = true) :
    value.Readable std := by
  simp only [Value.readable, Bool.and_eq_true, decide_eq_true_eq] at h
  cases value <;> exact ⟨h.1, by simp_all, by simp_all⟩

theorem readable_shipped : shipped.Readable sampleStdlib where
  value := by
    have hall : ∀ part ∈ shipped.settings, ∀ entry ∈ part.2, ∀ value ∈ entry.2,
        value.readable sampleStdlib = true := by
      decide +kernel
    exact fun part hpart entry hentry value hvalue =>
      Value.readable_iff (hall part hpart entry hentry value hvalue)
  serviceAccountKey := by decide

instance (text : Text) : Decidable (SingleLine text) := inferInstanceAs (Decidable (_ ∧ _))

theorem singleLines_shipped : SingleLines (document sampleStdlib shipped) where
  nonempty := by decide
  name := by decide +kernel
  key := by decide +kernel
  value := by decide +kernel

theorem kept_shipped : (document sampleStdlib shipped).mapValues (dialect sampleStdlib).kept =
    document sampleStdlib shipped := by
  decide +kernel

theorem lays_shipped : (dialect sampleStdlib).Lays (document sampleStdlib shipped).items
    ((linesOf (textOf (Dialect.render (document sampleStdlib shipped)))).map (·.toList)) := by
  have hlays := Dialect.lays_render regular_dialect (by simp [dialect])
    (outline_document lowersWords_sampleStdlib shipped)
  rw [toList_linesOf_textOf (render_ne_nil singleLines_shipped.nonempty)
    (singleLine_render singleLines_shipped)]
  rwa [kept_shipped] at hlays

/-! ## What is read -/

/-- **A configuration that is written down is loaded again**, however it is laid out: with blank
lines and comments anywhere, and any delimiter. -/
theorem load_of_lays {std : Stdlib} {cfg : Config} (hlower : std.LowersWords)
    (h : cfg.Readable std) (path : String) {text : String}
    (hlays : (dialect std).Lays (document std cfg).items ((linesOf text).map (·.toList))) :
    load std path (.text text) = .ok cfg := by
  have hread := Dialect.read_of_lays regular_dialect (wellFormed_document hlower h) hlays
  have hfile : readFile std (.text text) = .ok (document std cfg).file := by
    simp only [readFile, hread]
    rfl
  simp only [load, hfile, bind_ok]
  exact configOf_document hlower h

theorem load_shipped : load sampleStdlib "/etc/pgha/pgha.conf"
    (.text (textOf (Dialect.render (document sampleStdlib shipped)))) = .ok shipped :=
  load_of_lays lowersWords_sampleStdlib readable_shipped "/etc/pgha/pgha.conf" lays_shipped

/-- **What comes back of a value.**  The value of an option that is written to a file is read as it
was exactly when it is plain: no white space around it, and nothing in it that begins a comment. -/
theorem get?_render_iff {std : Stdlib} {doc : Document} (houtline : (dialect std).Outline doc)
    (hlines : SingleLines doc) {name key : String} {value : Text}
    (hvalue : (doc.lookup name.toList).bind (·.lookup key.toList) = some value)
    (hpercent : '%' ∉ value) :
    (∃ file, readFile std (.text (textOf (Dialect.render doc))) = .ok file ∧
        get? std file name key = .ok (some (String.ofList value))) ↔
      (dialect std).Plain value := by
  obtain ⟨options, hoptions, hlookup⟩ := Option.bind_eq_some_iff.mp hvalue
  obtain ⟨before, after, hdoc, -⟩ := List.lookup_eq_some_iff.mp hoptions
  have hpart : (name.toList, options) ∈ doc := by rw [hdoc]; simp
  obtain ⟨before', after', hentries, -⟩ := List.lookup_eq_some_iff.mp hlookup
  have hentry : (key.toList, value) ∈ options := by rw [hentries]; simp
  have hfree : '%' ∉ (dialect std).kept value := by
    intro hmem
    rcases mem_of_mem_kept hmem with hblank | hmem
    · exact absurd hblank (by decide)
    · exact hpercent hmem
  -- `kept` is what the reader makes of the value, and it holds no percent sign either
  have hget : (doc.mapValues (dialect std).kept).file.get (dialect std) name.toList key.toList =
      .ok (some ((dialect std).kept value)) := by
    refine Dialect.get_file houtline.wellFormed (houtline.name _ hpart).notDefault
      (houtline.key _ hpart _ hentry).lower ?_
    rw [lookup_mapValues, hvalue, Option.map_some, Option.map_some, Dialect.quote_of_free hfree]
  have hread : get? std (doc.mapValues (dialect std).kept).file name key =
      .ok (some (String.ofList ((dialect std).kept value))) := by
    unfold get?
    rw [hget]
    rfl
  -- so the value is returned unchanged exactly when it is kept as it is
  rw [← Dialect.kept_eq_iff regular_dialect]
  constructor
  · rintro ⟨file, hfile, hsame⟩
    rw [readFile_render houtline hlines] at hfile
    cases hfile
    rw [hread] at hsame
    exact String.ofList_injective (Option.some.inj (Except.ok.inj hsame))
  · intro hkept
    exact ⟨_, readFile_render houtline hlines, by rw [hread, hkept]⟩

/-- A hash sign in the middle of a token does no harm. -/
theorem get?_render_token :
    ∃ file, readFile sampleStdlib (.text (textOf (Dialect.render
          [("cluster".toList, [("peer_auth_token".toList, "hunter#2".toList)])]))) = .ok file ∧
        get? sampleStdlib file "cluster" "peer_auth_token" =
          .ok (some (String.ofList "hunter#2".toList)) := by
  have hname : wordy "cluster" = true := by decide
  have hkey : wordy "peer_auth_token" = true := by decide
  have hplain : (dialect sampleStdlib).Plain "hunter#2".toList :=
    (Dialect.kept_eq_iff regular_dialect).mp (by decide +kernel)
  refine (get?_render_iff ⟨by simp, ?_, ?_, ?_⟩ ⟨by simp, ?_, ?_, ?_⟩ (by decide +kernel)
    (by decide)).mpr hplain
  · simpa using printableName_of_wordy hname
  · simp
  · simpa using printable_of_wordy lowersWords_sampleStdlib hkey
  · decide +kernel
  · decide +kernel
  · decide +kernel

end PgHa.ConfigFile
