import Cyrenus.Config.Runtime

/-!
# Which source of a setting wins

`mainConfig` is the part of `main` that computes the configuration: defaults, environment, command
line, file, and then environment and command line once more, so that they win over the file. The
second scan of the command line starts where the first one stopped, so it sees the positional
arguments only. A part of the configuration that each source overwrites or leaves alone
(`WrittenBy`) ends with the value that was given last (`WrittenBy.mainConfig`).
`mainConfig_setting` says so of the settings, and `mainConfig_expected_iff` when that is what the
order of the sources asks for.
-/

namespace Cyrenus

open CStr (strncpy atoi)

/-! ## Settings and their sources -/

/-- The settings that have an option and also a file entry or an environment variable. -/
inductive Setting where
  | interface
  | httpPort
  | username
  | password
  | databasePath
  | geoipDbPath
  deriving DecidableEq, Repr

/-- The value of a setting. -/
inductive SettingValue where
  | text (s : CStr)
  | port (p : U16)
  deriving DecidableEq, Repr

/-- The value a configuration gives a setting. -/
def RuntimeConfig.setting (rc : RuntimeConfig) : Setting → SettingValue
  | .interface => .text rc.interface
  | .httpPort => .port rc.httpPort
  | .username => .text rc.username
  | .password => .text rc.password
  | .databasePath => .text rc.databasePath
  | .geoipDbPath => .text rc.geoipDbPath

namespace Setting

/-- The value a setting takes from an option's argument or an environment variable: strings are cut
to the size of their buffer, ports to 16 bits. -/
def store : Setting → CStr → SettingValue
  | .interface, v => .text (strncpy (IFNAMSIZ - 1) v)
  | .httpPort, v => .port ((atoi v).setWidth 16)
  | .username, v => .text (strncpy (MAX_STRING_LEN - 1) v)
  | .password, v => .text (strncpy (MAX_STRING_LEN - 1) v)
  | .databasePath, v => .text (strncpy (MAX_PATH_LEN - 1) v)
  | .geoipDbPath, v => .text (strncpy (MAX_PATH_LEN - 1) v)

/-- The option of a setting. -/
def option : Setting → Char
  | .interface => 'i'
  | .httpPort => 'p'
  | .username => 'u'
  | .password => 'P'
  | .databasePath => 'd'
  | .geoipDbPath => 'g'

/-- The environment variable of a setting. -/
def envName : Setting → Option String
  | .interface => some "CYRENUS_INTERFACE"
  | .httpPort => some "CYRENUS_HTTP_PORT"
  | .username => none
  | .password => none
  | .databasePath => some "CYRENUS_DB_PATH"
  | .geoipDbPath => some "CYRENUS_GEOIP_DB"

/-- The value the environment gives a setting. -/
def fromEnv (s : Setting) (getenv : Environ) : Option SettingValue :=
  (s.envName.bind getenv).map s.store

/-- The value an option gives a setting. -/
def fromOption (s : Setting) (opt : Char) (optarg : CStr) : Option SettingValue :=
  if opt = s.option then some (s.store optarg) else none

/-- The value a list of options gives a setting: that of its last option. -/
def fromItems (s : Setting) : List Getopt.Item → Option SettingValue
  | [] => none
  | .bad :: items => s.fromItems items
  | .opt c arg :: items => (s.fromItems items).or (s.fromOption c (arg.getD []))

/-- The value that stands in a file for a setting, stored as an option's is. -/
def inFile (s : Setting) (file : ConfigFile) : Option SettingValue :=
  match s with
  | .interface => file.interface.map s.store
  | .httpPort => file.httpPort.map fun p => .port (p.setWidth 16)
  | .username => file.username.map s.store
  | .password => file.password.map s.store
  | .databasePath => file.databasePath.map s.store
  | .geoipDbPath => file.geoipDatabasePath.map s.store

/-- The value that `runtime_config_load_file` takes over from a file for a setting. It leaves out an
empty string and a port that is not positive, and `load_config` has cut the credentials to 63
characters. -/
def fromFile (s : Setting) (file : ConfigFile) : Option SettingValue :=
  match s with
  | .interface => (file.interface.filter (· ≠ [])).map s.store
  | .httpPort => (file.httpPort.filter (0 < ·.toInt)).map fun p => .port (p.setWidth 16)
  | .username => (file.username.filter (· ≠ [])).map fun v => .text (strncpy 63 v)
  | .password => (file.password.filter (· ≠ [])).map fun v => .text (strncpy 63 v)
  | .databasePath => file.databasePath.map s.store
  | .geoipDbPath => file.geoipDatabasePath.map s.store

end Setting

/-! ## What each function does to a setting -/

/-- The environment overwrites a setting when it gives it a value. -/
theorem runtimeConfigLoadEnv_setting (getenv : Environ) (rc : RuntimeConfig) (s : Setting) :
    (runtimeConfigLoadEnv getenv rc).setting s = (s.fromEnv getenv).getD (rc.setting s) := by
  cases s <;>
    simp only [RuntimeConfig.setting, runtimeConfigLoadEnv, Setting.fromEnv, Setting.envName,
      Option.bind_some, Option.bind_none, Option.map_none, Option.getD_none]
  · cases getenv "CYRENUS_INTERFACE" <;> rfl
  · cases getenv "CYRENUS_HTTP_PORT" <;> rfl
  · cases getenv "CYRENUS_DB_PATH" <;> rfl
  · cases getenv "CYRENUS_GEOIP_DB" <;> rfl

/-- The loop goes on after an option. -/
def goesOn (opt : Char) (optarg : CStr) : Bool :=
  match opt with
  | 'p' => (atoi optarg).setWidth 16 ≠ (0 : U16)
  | 'l' => ¬ ((atoi optarg).toInt < 0 ∨ (atoi optarg).toInt > 3)
  | 'i' | 'c' | 'd' | 'g' | 'k' | 'u' | 'P' | 'D' | 'v' | 'V' | 'e' | 'L' | '1' | '2' | '3' => true
  | _ => false

/-- What an option may do to a configuration: it gives its setting a value and changes no other
setting, whether the loop goes on or not. -/
def OptionEffect (opt : Char) (optarg : CStr) (rc : RuntimeConfig) : ParseOutcome → Prop
  | .done rc' => goesOn opt optarg = true ∧
      ∀ s : Setting, rc'.setting s = (s.fromOption opt optarg).getD (rc.setting s)
  | .failed rc' => goesOn opt optarg = false ∧
      ∀ s : Setting, rc'.setting s = (s.fromOption opt optarg).getD (rc.setting s)
  | .exited => goesOn opt optarg = false

theorem applyOption_effect (opt : Char) (optarg : CStr) (rc : RuntimeConfig) :
    OptionEffect opt optarg rc (applyOption opt optarg rc) := by
  unfold applyOption
  split
  case h_2 =>
    dsimp only
    split <;> rename_i hp
    · exact ⟨by simp [goesOn, hp], fun s => by cases s <;> rfl⟩
    · exact ⟨by simpa [goesOn] using hp, fun s => by cases s <;> rfl⟩
  case h_13 =>
    dsimp only
    split <;> rename_i hl
    · exact ⟨by simp [goesOn, hl], fun s => by cases s <;> rfl⟩
    · exact ⟨by simp [goesOn, hl], fun s => by cases s <;> rfl⟩
  case h_18 => rfl
  case h_19 => rfl
  case h_20 =>
    refine ⟨?_, fun s => ?_⟩
    · unfold goesOn
      split <;> simp_all
    · have hne : opt ≠ s.option := by cases s <;> assumption
      simp [Setting.fromOption, hne]
  all_goals exact ⟨rfl, fun s => by cases s <;> rfl⟩

/-- The options that the loop handles: up to the first one after which it does not go on. -/
def handled : List Getopt.Item → List Getopt.Item
  | [] => []
  | .bad :: _ => []
  | .opt c arg :: items => .opt c arg :: if goesOn c (arg.getD []) then handled items else []

/-- When the loop comes to its end it has handled all options. -/
theorem handled_of_done {items : List Getopt.Item} {rc rc' : RuntimeConfig}
    (h : applyItems items rc = .done rc') : handled items = items := by
  induction items generalizing rc with
  | nil => rfl
  | cons item items ih =>
    cases item with
    | bad => cases h
    | opt c arg =>
      have heff := applyOption_effect c (arg.getD []) rc
      simp only [applyItems] at h
      split at h <;> rename_i ho
      · rw [ho] at heff
        rw [handled, heff.1, if_pos rfl, ih h]
      · exact absurd h (ho rc')

/-- A parse that succeeds has handled all options. -/
theorem handled_of_parsed {spec : Getopt.Spec} {args : List CStr} {rc rc' : RuntimeConfig}
    (h : runtimeConfigParseArgs spec args rc = .done rc') :
    handled (Getopt.scan spec args).items = (Getopt.scan spec args).items := by
  simp only [runtimeConfigParseArgs] at h
  split at h <;> rename_i ho
  · exact handled_of_done ho
  · exact absurd h (ho rc')

/-! ## The sources of a part of the configuration -/

/-- What the sources of a part of the configuration give it. -/
structure Sources (α : Type) where
  default : α
  option : Char → CStr → Option α
  env : Environ → Option α
  file : ConfigFile → Option α

/-- The file that `main` reads. -/
def fileRead (args : List CStr) (sys : Surroundings) : Option ConfigFile :=
  match firstPass args sys with
  | .done rc => if sys.readable rc.configFilePath then sys.configFile rc.configFilePath else none
  | _ => none

namespace Sources

variable {α β : Type}

/-- The value of the last option of a list that gives one. -/
def items (src : Sources α) : List Getopt.Item → Option α
  | [] => none
  | .bad :: items => src.items items
  | .opt c arg :: items => (src.items items).or (src.option c (arg.getD []))

/-- The value that the sources give last: the command line comes after the environment, and when a
file was read, the file, the environment and what the second scan takes for options come after
that. -/
def last (src : Sources α) (args : List CStr) (sys : Surroundings) : α :=
  let fromArgs := src.items (Getopt.scan (getoptSpec sys.getenv) args).items
  match fileRead args sys with
  | none => (fromArgs.or (src.env sys.getenv)).getD src.default
  | some file =>
    let fromLeftArgs :=
      src.items (handled (Getopt.scan (getoptSpec sys.getenv) (argsLeft args sys)).items)
    (((fromLeftArgs.or (src.env sys.getenv)).or (src.file file)).or fromArgs).getD src.default

/-- The sources, with a function applied to what they give. -/
def map (f : α → β) (src : Sources α) : Sources β where
  default := f src.default
  option c arg := (src.option c arg).map f
  env getenv := (src.env getenv).map f
  file file := (src.file file).map f

theorem items_map (f : α → β) (src : Sources α) (items : List Getopt.Item) :
    (src.map f).items items = (src.items items).map f := by
  induction items with
  | nil => rfl
  | cons item items ih =>
    cases item with
    | bad => exact ih
    | opt c arg => rw [Sources.items, ih, Sources.items, Option.map_or, map]

/-- The last value is the function applied to the last one. -/
theorem last_map (f : α → β) (src : Sources α) (args : List CStr) (sys : Surroundings) :
    (src.map f).last args sys = f (src.last args sys) := by
  simp only [last, items_map]
  cases fileRead args sys <;> simp only [map, ← Option.map_or, Option.getD_map]

/-- Sources that give nothing: the part keeps its default. -/
def none (default : α) : Sources α where
  default := default
  option _ _ := .none
  env _ := .none
  file _ := .none

theorem items_none (a : α) (items : List Getopt.Item) :
    (Sources.none a).items items = .none := by
  induction items with
  | nil => rfl
  | cons item items ih =>
    cases item with
    | bad => exact ih
    | opt c arg => rw [Sources.items, ih, none, Option.none_or]

theorem last_none (a : α) (args : List CStr) (sys : Surroundings) :
    (Sources.none a).last args sys = a := by
  simp only [last, items_none]
  cases fileRead args sys <;> rfl

end Sources

/-- A part of the configuration that some sources write: each overwrites it with the value it
gives, if it gives one. -/
structure WrittenBy {α : Type} (part : RuntimeConfig → α) (src : Sources α) : Prop where
  init : part runtimeConfigInit = src.default
  loadEnv : ∀ getenv rc, part (runtimeConfigLoadEnv getenv rc) = (src.env getenv).getD (part rc)
  applyOption : ∀ {opt optarg rc rc'}, (applyOption opt optarg rc).config = some rc' →
    part rc' = (src.option opt optarg).getD (part rc)
  positional : ∀ rc path, part { rc with configFilePath := path } = part rc
  loadFile : ∀ {file rc rc'}, runtimeConfigLoadFile (some file) rc = some rc' →
    part rc' = (src.file file).getD (part rc)

namespace WrittenBy

variable {α β : Type} {part : RuntimeConfig → α} {src : Sources α}

/-- A part is written by its sources when an injective image of it is written by theirs. -/
theorem of_map {f : α → β} (hpart : WrittenBy (fun rc => f (part rc)) (src.map f))
    (hf : ∀ {a b}, f a = f b → a = b) : WrittenBy part src where
  init := hf hpart.init
  loadEnv getenv rc := hf ((hpart.loadEnv getenv rc).trans (Option.getD_map ..))
  applyOption h := hf ((hpart.applyOption h).trans (Option.getD_map ..))
  positional rc path := hf (hpart.positional rc path)
  loadFile h := hf ((hpart.loadFile h).trans (Option.getD_map ..))

/-- What the loop does to a part: the last option that it handles for it gives it its value. -/
theorem applyItems (hpart : WrittenBy part src) {items : List Getopt.Item} {rc rc' : RuntimeConfig}
    (h : (applyItems items rc).config = some rc') :
    part rc' = (src.items (handled items)).getD (part rc) := by
  induction items generalizing rc with
  | nil =>
    cases h
    rfl
  | cons item items ih =>
    cases item with
    | bad =>
      cases h
      rfl
    | opt c arg =>
      have heff := applyOption_effect c (arg.getD []) rc
      cases ho : Cyrenus.applyOption c (arg.getD []) rc with
      | done rc₁ =>
        have hstep := hpart.applyOption (by rw [ho]; rfl : _ = some rc₁)
        rw [ho] at heff
        simp only [Cyrenus.applyItems, ho] at h
        rw [ih h, hstep, handled, heff.1, if_pos rfl, Sources.items]
        cases src.items (handled items) <;> rfl
      | failed rc₁ =>
        have hstep := hpart.applyOption (by rw [ho]; rfl : _ = some rc₁)
        rw [ho] at heff
        simp only [Cyrenus.applyItems, ho] at h
        cases h
        rw [hstep, handled, heff.1]
        rfl
      | exited =>
        simp only [Cyrenus.applyItems, ho] at h
        cases h

/-- What parsing the command line does to a part. -/
theorem parseArgs (hpart : WrittenBy part src) {spec : Getopt.Spec} {args : List CStr}
    {rc rc' : RuntimeConfig} (h : (runtimeConfigParseArgs spec args rc).config = some rc') :
    part rc' = (src.items (handled (Getopt.scan spec args).items)).getD (part rc) := by
  simp only [runtimeConfigParseArgs] at h
  cases ho : Cyrenus.applyItems (Getopt.scan spec args).items rc with
  | done rc₁ =>
    rw [ho] at h
    cases h
    rw [hpart.positional]
    exact hpart.applyItems (by rw [ho]; rfl)
  | failed rc₁ =>
    rw [ho] at h
    exact hpart.applyItems (by rw [ho]; exact h)
  | exited =>
    rw [ho] at h
    cases h

/-- What a part holds after the first half of the start. -/
theorem firstPass (hpart : WrittenBy part src) {args : List CStr} {sys : Surroundings}
    {rc : RuntimeConfig} (h : firstPass args sys = .done rc) :
    part rc = ((src.items (Getopt.scan (getoptSpec sys.getenv) args).items).or
      (src.env sys.getenv)).getD src.default := by
  rw [Cyrenus.firstPass] at h
  rw [hpart.parseArgs (by rw [h]; rfl), handled_of_parsed h, hpart.loadEnv, hpart.init]
  cases src.items (Getopt.scan (getoptSpec sys.getenv) args).items <;> rfl

/-- **What a part ends with**: the value that its sources give last. -/
theorem mainConfig (hpart : WrittenBy part src) {args : List CStr} {sys : Surroundings}
    {rc : RuntimeConfig} (h : mainConfig args sys = some rc) : part rc = src.last args sys := by
  rw [Cyrenus.mainConfig] at h
  cases hfirst : Cyrenus.firstPass args sys with
  | failed rc₀ | exited => simp [hfirst] at h
  | done rc₀ =>
    simp only [hfirst] at h
    have h₀ := hpart.firstPass hfirst
    by_cases hread : sys.readable rc₀.configFilePath
    · rw [if_pos hread] at h
      cases hfile : sys.configFile rc₀.configFilePath with
      | none => simp [hfile, runtimeConfigLoadFile] at h
      | some file =>
        cases hload : runtimeConfigLoadFile (some file) rc₀ with
        | none => simp [hfile, hload] at h
        | some rc₁ =>
          simp only [hfile, hload] at h
          rw [hpart.parseArgs h, hpart.loadEnv, hpart.loadFile hload, h₀]
          simp only [Sources.last, fileRead, hfirst, hread, if_true, hfile]
          cases src.items (handled (Getopt.scan (getoptSpec sys.getenv)
            (argsLeft args sys)).items) <;> cases src.env sys.getenv <;>
            cases src.file file <;>
            cases src.items (Getopt.scan (getoptSpec sys.getenv) args).items <;> rfl
    · rw [if_neg hread] at h
      cases h
      simp [h₀, Sources.last, fileRead, hfirst, hread]

end WrittenBy

/-! ## The file -/

theorem except_bind_ok {ε α β : Type} {x : Except ε α} {f : α → Except ε β} {b : β}
    (h : x >>= f = .ok b) : ∃ a, x = .ok a ∧ f a = .ok b := by
  cases x with
  | error e => cases h
  | ok a => exact ⟨a, rfl, h⟩

theorem required_ok {α : Type} {answer : Option α} {setting : String} {v : α}
    (h : required answer setting = .ok v) : answer = some v := by
  cases answer with
  | none => cases h
  | some w =>
    cases h
    rfl

/-- What `load_config` takes from a file it accepts. -/
theorem loadConfig_ok {file : ConfigFile} {cfg fileCfg : Config}
    (h : loadConfig file cfg = .ok fileCfg) :
    ∃ interface httpPort username password, file.interface = some interface ∧
      file.httpPort = some httpPort ∧ file.username = some username ∧
      file.password = some password ∧ fileCfg.interface = strncpy (IFNAMSIZ - 1) interface ∧
      fileCfg.httpPort = httpPort ∧ fileCfg.username = strncpy 63 username ∧
      fileCfg.password = strncpy 63 password := by
  obtain ⟨interface, hi, h⟩ := except_bind_ok h
  obtain ⟨httpPort, hp, h⟩ := except_bind_ok h
  obtain ⟨backend, -, h⟩ := except_bind_ok h
  obtain ⟨url, -, h⟩ := except_bind_ok h
  obtain ⟨apiKey, -, h⟩ := except_bind_ok h
  obtain ⟨apiSecret, -, h⟩ := except_bind_ok h
  obtain ⟨username, hu, h⟩ := except_bind_ok h
  obtain ⟨password, hw, h⟩ := except_bind_ok h
  cases h
  exact ⟨interface, httpPort, username, password, required_ok hi, required_ok hp, required_ok hu,
    required_ok hw, rfl, rfl, rfl, rfl⟩

/-- Copying a string over a setting, unless it is empty. -/
theorem copyUnlessEmpty_strncpy {n m : ℕ} (hm : 0 < m) (hmn : m ≤ n) (v old : CStr) :
    SettingValue.text (copyUnlessEmpty n (strncpy m v) old) =
      ((some v).filter (· ≠ []) |>.map fun v => .text (strncpy m v)).getD (.text old) := by
  cases v with
  | nil => simp [copyUnlessEmpty, strncpy, Option.filter]
  | cons c v =>
    have hpos : (strncpy m (c :: v)).length > 0 := by
      simp only [strncpy, List.length_take, List.length_cons]
      omega
    have htwice : strncpy n (strncpy m (c :: v)) = strncpy m (c :: v) := by
      simp [strncpy, List.take_take, hmn]
    rw [copyUnlessEmpty, if_pos hpos, htwice]
    rfl

/-- **What the file does to a setting**: it overwrites it when it gives it a value. -/
theorem runtimeConfigLoadFile_setting {file : ConfigFile} {rc rc' : RuntimeConfig}
    (h : runtimeConfigLoadFile (some file) rc = some rc') (s : Setting) :
    rc'.setting s = (s.fromFile file).getD (rc.setting s) := by
  simp only [runtimeConfigLoadFile] at h
  split at h
  · cases h
  · rename_i fileCfg hcfg
    obtain ⟨interface, httpPort, username, password, hi, hp, hu, hw, hi', hp', hu', hw'⟩ :=
      loadConfig_ok hcfg
    cases h
    cases s with
    | interface =>
      simp only [RuntimeConfig.setting, copyPaths, copyConfig, Setting.fromFile, hi, hi']
      exact copyUnlessEmpty_strncpy (by decide) (Nat.le_refl _) ..
    | httpPort =>
      simp only [RuntimeConfig.setting, copyPaths, copyConfig, Setting.fromFile, hp, hp']
      by_cases hpos : 0 < httpPort.toInt <;> simp [hpos, Option.filter]
    | username =>
      simp only [RuntimeConfig.setting, copyPaths, copyConfig, Setting.fromFile, hu, hu']
      exact copyUnlessEmpty_strncpy (by decide) (by decide) ..
    | password =>
      simp only [RuntimeConfig.setting, copyPaths, copyConfig, Setting.fromFile, hw, hw']
      exact copyUnlessEmpty_strncpy (by decide) (by decide) ..
    | databasePath =>
      simp only [RuntimeConfig.setting, copyPaths, Setting.fromFile]
      cases file.databasePath <;> rfl
    | geoipDbPath =>
      simp only [RuntimeConfig.setting, copyPaths, Setting.fromFile]
      cases file.geoipDatabasePath <;> rfl

/-! ## The order of the sources -/

/-- The value the command line gives a setting. -/
def Setting.fromArgs (s : Setting) (args : List CStr) (sys : Surroundings) : Option SettingValue :=
  s.fromItems (Getopt.scan (getoptSpec sys.getenv) args).items

/-- The value a setting gets from what the second scan takes for options, which is among the
arguments that the first one left. -/
def Setting.fromLeftArgs (s : Setting) (args : List CStr) (sys : Surroundings) :
    Option SettingValue :=
  s.fromItems (handled (Getopt.scan (getoptSpec sys.getenv) (argsLeft args sys)).items)

/-- The value a setting should have: from the command line, else from the environment, else from
the file, else the default. -/
def Setting.expected (s : Setting) (args : List CStr) (sys : Surroundings) (file : ConfigFile) :
    SettingValue :=
  (((s.fromArgs args sys).or (s.fromEnv sys.getenv)).or (s.inFile file)).getD
    (runtimeConfigInit.setting s)

/-- The sources of a setting. -/
def Setting.sources (s : Setting) : Sources SettingValue where
  default := runtimeConfigInit.setting s
  option := s.fromOption
  env := s.fromEnv
  file := s.fromFile

theorem Setting.sources_items (s : Setting) (items : List Getopt.Item) :
    s.sources.items items = s.fromItems items := by
  induction items with
  | nil => rfl
  | cons item items ih =>
    cases item with
    | bad => exact ih
    | opt c arg =>
      rw [Sources.items, ih]
      rfl

theorem Setting.writtenBy (s : Setting) : WrittenBy (·.setting s) s.sources where
  init := rfl
  loadEnv getenv rc := runtimeConfigLoadEnv_setting getenv rc s
  applyOption {opt optarg rc rc'} h := by
    have heff := applyOption_effect opt optarg rc
    cases ho : applyOption opt optarg rc with
    | done rc₁ | failed rc₁ =>
      rw [ho] at h heff
      cases h
      exact heff.2 s
    | exited =>
      rw [ho] at h
      cases h
  positional rc path := by cases s <;> rfl
  loadFile h := runtimeConfigLoadFile_setting h s

/-- **What a setting ends with**, when the file was read: the command line of the first scan comes
after the environment and the file. -/
theorem mainConfig_setting {args : List CStr} {sys : Surroundings} {rc₀ rc : RuntimeConfig}
    {file : ConfigFile} (hfirst : firstPass args sys = .done rc₀)
    (hread : sys.readable rc₀.configFilePath = true)
    (hfile : sys.configFile rc₀.configFilePath = some file) (h : mainConfig args sys = some rc)
    (s : Setting) :
    rc.setting s =
      ((((s.fromLeftArgs args sys).or (s.fromEnv sys.getenv)).or (s.fromFile file)).or
        (s.fromArgs args sys)).getD (runtimeConfigInit.setting s) := by
  rw [s.writtenBy.mainConfig h]
  simp only [Sources.last, fileRead, hfirst, hread, if_true, hfile, s.sources_items]
  rfl

/-- Without `--` on the command line the second scan finds nothing. -/
theorem Setting.fromLeftArgs_eq_none (s : Setting) {args : List CStr} (sys : Surroundings)
    (h : ['-', '-'] ∉ args) : s.fromLeftArgs args sys = none := by
  rw [Setting.fromLeftArgs, argsLeft, Getopt.scan_rest _ args h]
  rfl

/-- **Without `--` the environment and the file win over the command line.** -/
theorem mainConfig_setting_of_no_dashes {args : List CStr} {sys : Surroundings}
    {rc₀ rc : RuntimeConfig} {file : ConfigFile} (hdash : ['-', '-'] ∉ args)
    (hfirst : firstPass args sys = .done rc₀) (hread : sys.readable rc₀.configFilePath = true)
    (hfile : sys.configFile rc₀.configFilePath = some file) (h : mainConfig args sys = some rc)
    (s : Setting) :
    rc.setting s =
      (((s.fromEnv sys.getenv).or (s.fromFile file)).or (s.fromArgs args sys)).getD
        (runtimeConfigInit.setting s) := by
  rw [mainConfig_setting hfirst hread hfile h, s.fromLeftArgs_eq_none sys hdash, Option.none_or]

/-- The value in the file for a setting is one that is taken over whole, or the default is the same:
a port is positive, a user name or password is not empty and has at most 63 characters. -/
def Setting.TakenOver (s : Setting) (file : ConfigFile) : Prop :=
  match s with
  | .interface => True
  | .httpPort => ∀ p, file.httpPort = some p →
      0 < p.toInt ∨ p.setWidth 16 = runtimeConfigInit.httpPort
  | .username => ∀ v, file.username = some v → v ≠ [] ∧ v.length ≤ 63
  | .password => ∀ v, file.password = some v → v ≠ [] ∧ v.length ≤ 63
  | .databasePath => True
  | .geoipDbPath => True

/-- Cutting a string to 63 characters before it is stored changes nothing exactly if it has no
more. -/
theorem strncpy_63_iff (v : CStr) :
    strncpy 63 v = strncpy (MAX_STRING_LEN - 1) v ↔ v.length ≤ 63 := by
  constructor
  · intro h
    have hlength := congrArg List.length h
    simp only [strncpy, List.length_take, MAX_STRING_LEN] at hlength
    omega
  · intro h
    rw [strncpy, strncpy, List.take_of_length_le h,
      List.take_of_length_le (Nat.le_trans h (by decide))]

/-- A credential of the file is taken over, instead of a default that is not empty, exactly if it is
not empty and not over 63 characters long. -/
theorem credential_getD_iff (answer : Option CStr) {default : CStr} (hdefault : default ≠ []) :
    ((answer.filter (· ≠ [])).map fun v => SettingValue.text (strncpy 63 v)).getD (.text default) =
        (answer.map fun v => .text (strncpy (MAX_STRING_LEN - 1) v)).getD (.text default) ↔
      ∀ v, answer = some v → v ≠ [] ∧ v.length ≤ 63 := by
  cases answer with
  | none => simp
  | some v =>
    by_cases hv : v = []
    · subst hv
      simpa [Option.filter, strncpy] using hdefault
    · simp [Option.filter, hv, strncpy_63_iff]

/-- **When the file's value reaches a setting that nothing else gives a value**: exactly if it is
taken over. -/
theorem Setting.fromFile_getD_iff (s : Setting) (file : ConfigFile) :
    (s.fromFile file).getD (runtimeConfigInit.setting s) =
        (s.inFile file).getD (runtimeConfigInit.setting s) ↔
      s.TakenOver file := by
  cases s with
  | interface =>
    refine iff_of_true ?_ trivial
    rcases hv : file.interface with - | v
    · simp [fromFile, inFile, hv]
    · cases v <;> simp [fromFile, inFile, hv, Option.filter, store, strncpy,
        RuntimeConfig.setting, runtimeConfigInit]
  | httpPort =>
    cases hp : file.httpPort with
    | none => simp [fromFile, inFile, TakenOver, hp]
    | some p =>
      by_cases hpos : 0 < p.toInt
      · simp [fromFile, inFile, TakenOver, hp, Option.filter, hpos]
      · simp [fromFile, inFile, TakenOver, hp, Option.filter, hpos, RuntimeConfig.setting, eq_comm]
  | username => exact credential_getD_iff file.username (by decide)
  | password => exact credential_getD_iff file.password (by decide)
  | databasePath => exact iff_of_true rfl trivial
  | geoipDbPath => exact iff_of_true rfl trivial

/-- Nothing stands in the way of a setting's value: the arguments left by the first scan give it no
other value than it should have, and when they give it none and the command line gives it one, the
environment, or the file where the environment is silent, gives it no other. The file's value, where
nothing else gives it one, is taken over. -/
structure Setting.Unopposed (s : Setting) (args : List CStr) (sys : Surroundings)
    (file : ConfigFile) : Prop where
  left : ∀ v, s.fromLeftArgs args sys = some v → v = s.expected args sys file
  others : s.fromLeftArgs args sys = none → ∀ c v, s.fromArgs args sys = some c →
    (s.fromEnv sys.getenv).or (s.fromFile file) = some v → v = c
  file : s.fromLeftArgs args sys = none → s.fromArgs args sys = none →
    s.fromEnv sys.getenv = none → s.TakenOver file

/-- **When the settings end as the order of their sources asks for**: when each is unopposed. -/
theorem mainConfig_expected_iff (args : List CStr) (sys : Surroundings) (rc₀ rc : RuntimeConfig)
    (file : ConfigFile) (hfirst : firstPass args sys = .done rc₀)
    (hread : sys.readable rc₀.configFilePath = true)
    (hfile : sys.configFile rc₀.configFilePath = some file) (h : mainConfig args sys = some rc) :
    (∀ s : Setting, rc.setting s = s.expected args sys file) ↔
      ∀ s : Setting, s.Unopposed args sys file := by
  refine forall_congr' fun s => ?_
  rw [mainConfig_setting hfirst hread hfile h s]
  constructor
  · intro he
    refine ⟨fun v hv => ?_, fun hleft c v hc hv => ?_, fun hleft hc henv => ?_⟩
    · rw [← he, hv]
      rfl
    · rw [Setting.expected, hleft, hc, Option.none_or, hv] at he
      exact he
    · rw [Setting.expected, hleft, hc, henv, Option.none_or, Option.none_or, Option.none_or,
        Option.or_none] at he
      exact (s.fromFile_getD_iff file).1 he
  · rintro ⟨hleft, hothers, htaken⟩
    cases hl : s.fromLeftArgs args sys with
    | some v => exact hleft v hl
    | none =>
      rw [Setting.expected, Option.none_or]
      cases hc : s.fromArgs args sys with
      | none =>
        cases henv : s.fromEnv sys.getenv with
        | none =>
          rw [Option.none_or, Option.none_or, Option.none_or, Option.or_none]
          exact (s.fromFile_getD_iff file).2 (htaken hl hc henv)
        | some e => rfl
      | some c =>
        cases hv : (s.fromEnv sys.getenv).or (s.fromFile file) with
        | none => rfl
        | some v => exact hothers hl c v hc hv

/-- A configuration file that gives every setting a value. -/
def sampleFile (httpPort : U32) : ConfigFile where
  interface := some "eth0".toList
  httpPort := some httpPort
  backend := some ⟨some "http://localhost".toList, some "key".toList, some "secret".toList⟩
  username := some "root".toList
  password := some "toor".toList
  databasePath := some "/srv/cyrenus.db".toList
  geoipDatabasePath := some "/srv/geoip.mmdb".toList

/-- No variable is set, and every path is that of the same readable file. -/
def sampleSurroundings (file : ConfigFile) : Surroundings where
  getenv := fun _ => none
  readable := fun _ => true
  configFile := fun _ => some file

/-- The file overwrites the port given on the command line. -/
theorem mainConfig_expected_fails :
    ¬ ∀ (args : List CStr) (sys : Surroundings) (rc₀ rc : RuntimeConfig) (file : ConfigFile),
      firstPass args sys = .done rc₀ → sys.readable rc₀.configFilePath = true →
      sys.configFile rc₀.configFilePath = some file → mainConfig args sys = some rc →
      ∀ s : Setting, rc.setting s = s.expected args sys file := by
  intro h
  have hport := h ["-p".toList, "8080".toList] (sampleSurroundings (sampleFile 9090)) _ _
    (sampleFile 9090) rfl rfl rfl rfl .httpPort
  exact absurd hport (by decide +kernel)

theorem mainConfig_expected_iff_samePort :
    let sys := sampleSurroundings (sampleFile 8080)
    let args := ["-p".toList, "8080".toList]
    ∃ rc, mainConfig args sys = some rc ∧
      ((∀ s : Setting, rc.setting s = s.expected args sys (sampleFile 8080)) ↔
        ∀ s : Setting, s.Unopposed args sys (sampleFile 8080)) :=
  ⟨_, rfl, mainConfig_expected_iff _ _ _ _ _ rfl rfl rfl rfl⟩

end Cyrenus
