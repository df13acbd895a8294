import Cyrenus.Config.Precedence

/-!
# The ranges of the port and of the log level

The HTTP port comes from three sources and is cut to 16 bits by each of them, so
`runtime_config_validate`, which sees the cut value, can only refuse the port zero. The log level
is checked where an option gives it, but not where the environment does. `inRanges_iff` says for
which integers a validated configuration still has the port that was written and a log level that
exists.
-/

namespace Cyrenus

open CStr (atoi leadingInt intOfText atoi_eq toInt_intOfText)

/-- The integers that the sources write for the HTTP port, before they are cut to size. -/
def portWritten : Sources ℤ where
  default := 8181
  option opt optarg := if opt = 'p' then some (leadingInt optarg) else none
  env getenv := (getenv "CYRENUS_HTTP_PORT").map leadingInt
  file file := (file.httpPort.filter (0 < ·.toInt)).map BitVec.toInt

/-- The integers that the sources write for the log level. -/
def logLevelWritten : Sources ℤ where
  default := 2
  option opt optarg :=
    match opt with
    | 'v' => some 2
    | 'V' => some 3
    | 'l' => some (leadingInt optarg)
    | _ => none
  env getenv := (getenv "CYRENUS_LOG_LEVEL").map leadingInt
  file _ := none

/-- What the port's field holds of an integer. -/
def portOf (n : ℤ) : U16 := (intOfText n).setWidth 16

/-- A validated configuration has the port that was written for it, a valid one, and a log level
that exists. -/
structure RuntimeConfig.InRanges (rc : RuntimeConfig) (port : ℤ) : Prop where
  port_eq : (rc.httpPort.toNat : ℤ) = port
  port_pos : 1 ≤ rc.httpPort.toNat
  port_le : rc.httpPort.toNat ≤ 65535
  logLevel_nonneg : 0 ≤ rc.logLevel.toInt
  logLevel_le : rc.logLevel.toInt ≤ 3

/-! ## What the fields hold -/

theorem intOfText_toInt (v : U32) : intOfText v.toInt = v :=
  BitVec.eq_of_toInt_eq (toInt_intOfText (BitVec.le_toInt v) (BitVec.toInt_lt))

theorem httpPort_sources : Setting.httpPort.sources = (portWritten.map portOf).map .port := by
  simp only [Setting.sources, Sources.map, portWritten, Sources.mk.injEq]
  refine ⟨rfl, funext₂ fun opt optarg => ?_, funext fun getenv => ?_, funext fun file => ?_⟩
  · rw [Setting.fromOption, Setting.option]
    by_cases hp : opt = 'p'
    · rw [if_pos hp, if_pos hp]
      rfl
    · rw [if_neg hp, if_neg hp]
      rfl
  · simp only [Setting.fromEnv, Setting.envName, Option.bind_some, Option.map_map]
    rfl
  · simp only [Setting.fromFile, Option.map_map]
    congr 1
    funext p
    simp only [Function.comp_apply, portOf, intOfText_toInt]

theorem httpPort_writtenBy : WrittenBy RuntimeConfig.httpPort (portWritten.map portOf) := by
  have hport := Setting.httpPort.writtenBy
  rw [httpPort_sources] at hport
  exact hport.of_map fun heq => SettingValue.port.inj heq

/-- The level is what an option gives it, whether the loop goes on or not. -/
theorem applyOption_logLevel {opt : Char} {optarg : CStr} {rc rc' : RuntimeConfig}
    (h : (applyOption opt optarg rc).config = some rc') :
    rc'.logLevel = ((logLevelWritten.map intOfText).option opt optarg).getD rc.logLevel := by
  unfold applyOption at h
  split at h
  case h_2 =>
    dsimp only at h
    split at h <;> cases h <;> rfl
  case h_13 =>
    dsimp only at h
    split at h <;> cases h <;> rfl
  case h_18 => cases h
  case h_19 => cases h
  case h_20 =>
    cases h
    simp only [Sources.map, logLevelWritten]
    rfl
  all_goals cases h; rfl

theorem logLevel_writtenBy : WrittenBy RuntimeConfig.logLevel (logLevelWritten.map intOfText) where
  init := rfl
  loadEnv getenv rc := by
    simp only [runtimeConfigLoadEnv, Sources.map, logLevelWritten, Option.map_map]
    rfl
  applyOption := applyOption_logLevel
  positional rc path := rfl
  loadFile {file rc rc'} h := by
    simp only [runtimeConfigLoadFile] at h
    split at h
    · cases h
    · cases h
      rfl

/-! ## The ranges -/

/-- What the validation asks for: an interface, and a port other than zero. Its other comparison is
with a number that 16 bits cannot exceed. -/
theorem validate_isOk_iff (readable : CStr → Bool) (rc : RuntimeConfig) :
    (runtimeConfigValidate readable rc).isOk = true ↔ rc.interface ≠ [] ∧ rc.httpPort ≠ 0 := by
  have hle : ¬ rc.httpPort.toNat > 65535 := by
    have := rc.httpPort.isLt
    omega
  rw [runtimeConfigValidate]
  split
  · next hi => exact iff_of_false (by intro h; cases h) fun h => h.1 (List.length_eq_zero_iff.1 hi)
  · next hi =>
    split
    · next hp => exact iff_of_false (by intro h; cases h) fun h => hp.elim h.2 hle
    · next hp =>
      exact iff_of_true rfl ⟨fun h => hi (List.length_eq_zero_iff.2 h), fun h => hp (.inl h)⟩

/-- A valid port is kept. -/
theorem toNat_portOf {n : ℤ} (hpos : 1 ≤ n) (hle : n ≤ 65535) : ((portOf n).toNat : ℤ) = n := by
  have hint : (intOfText n).toInt = n := toInt_intOfText (by omega) (by omega)
  rw [portOf, BitVec.toNat_setWidth]
  rw [BitVec.toInt_eq_toNat_cond] at hint
  have hlt := (intOfText n).isLt
  split at hint <;> omega

/-- The integers that end as one of the four log levels: above 64 bits the last one of 64 bits is
taken, whose lower half is -1, below it the first one, whose lower half is zero. -/
def CutsToLevel (n : ℤ) : Prop := n < 2 ^ 63 ∧ (n < -2 ^ 63 ∨ n % 2 ^ 32 ≤ 3)

theorem cutsToLevel_iff (n : ℤ) :
    CutsToLevel n ↔ 0 ≤ (intOfText n).toInt ∧ (intOfText n).toInt ≤ 3 := by
  rw [CutsToLevel, intOfText, BitVec.toInt_ofInt, Int.bmod_def]
  omega

/-- The configuration with which `main` goes on after the validation. -/
def validatedConfig (args : List CStr) (sys : Surroundings) : Option RuntimeConfig :=
  (mainConfig args sys).filter fun rc => (runtimeConfigValidate sys.readable rc).isOk

/-- **When a validated configuration has its port and its log level in their ranges**: the integer
that was written last for the port is a port, and the one for the log level is cut to a level. -/
theorem inRanges_iff (args : List CStr) (sys : Surroundings) (rc : RuntimeConfig)
    (h : validatedConfig args sys = some rc) :
    rc.InRanges (portWritten.last args sys) ↔
      (1 ≤ portWritten.last args sys ∧ portWritten.last args sys ≤ 65535) ∧
        CutsToLevel (logLevelWritten.last args sys) := by
  obtain ⟨hmain, hvalid⟩ := Option.filter_eq_some_iff.1 h
  obtain ⟨-, hzero⟩ := (validate_isOk_iff _ _).1 hvalid
  have hport := httpPort_writtenBy.mainConfig hmain
  have hlevel := logLevel_writtenBy.mainConfig hmain
  rw [Sources.last_map] at hport hlevel
  rw [cutsToLevel_iff, ← hlevel]
  constructor
  · rintro ⟨heq, hpos, hle, hlo, hhi⟩
    exact ⟨⟨by omega, by omega⟩, hlo, hhi⟩
  · rintro ⟨⟨hpos, hle⟩, hlo, hhi⟩
    refine ⟨?_, ?_, Nat.le_of_lt_succ rc.httpPort.isLt, hlo, hhi⟩
    · rw [hport, toNat_portOf hpos hle]
    · exact Nat.pos_of_ne_zero fun heq => hzero (BitVec.eq_of_toNat_eq heq)

/-- No file can be read. -/
def noFiles (getenv : Environ) : Surroundings where
  getenv := getenv
  readable _ := false
  configFile _ := none

/-- A port that does not fit into 16 bits starts the server on another one. -/
theorem validated_inRanges_fails :
    ¬ ∀ (args : List CStr) (sys : Surroundings) (rc : RuntimeConfig),
      validatedConfig args sys = some rc → rc.InRanges (portWritten.last args sys) := by
  intro h
  have hranges := h ["-i".toList, "eth0".toList, "-p".toList, "65617".toList]
    (noFiles fun _ => none) _ rfl
  exact absurd hranges.port_eq (by decide +kernel)

theorem inRanges_iff_8080 :
    let sys := noFiles fun _ => none
    let args := ["-i".toList, "eth0".toList, "-p".toList, "8080".toList]
    ∃ rc, validatedConfig args sys = some rc ∧
      (rc.InRanges (portWritten.last args sys) ↔
        (1 ≤ portWritten.last args sys ∧ portWritten.last args sys ≤ 65535) ∧
          CutsToLevel (logLevelWritten.last args sys)) :=
  ⟨_, rfl, inRanges_iff _ _ _ rfl⟩

end Cyrenus
