import Cyrenus.Common
import Cyrenus.Lib.Getopt

/-!
# The runtime configuration

`struct runtime_config` and the four functions that write it: `runtime_config_init`,
`runtime_config_load_env`, `runtime_config_parse_args` and `runtime_config_load_file` with the
`load_config` it calls; `runtime_config_validate` looks at the result. A buffer is the string it
holds. What the daemon asks its surroundings is given as answers: the environment is a table of
variables, and a configuration file is what libconfig answers to the lookups made in it
(`ConfigFile`).
-/

namespace Cyrenus

open CStr (strncpy atoi)

def MAX_PATH_LEN : ℕ := 512
def MAX_URL_LEN : ℕ := 256
def MAX_STRING_LEN : ℕ := 128
def IFNAMSIZ : ℕ := 16

/-- `struct runtime_config`. -/
structure RuntimeConfig where
  configFilePath : CStr
  interface : CStr
  httpPort : U16
  backendUrl : CStr
  apiKey : CStr
  appSecret : CStr
  username : CStr
  password : CStr
  databasePath : CStr
  geoipDbPath : CStr
  masterKeyPath : CStr
  dryRun : Bool
  verbose : Bool
  debug : Bool
  noGeoip : Bool
  noNotifications : Bool
  daemonMode : Bool
  logFile : CStr
  logLevel : U32
  environment : CStr
  synFloodRate : U32
  udpFloodRate : U32
  icmpFloodRate : U32
  dnsAmpRate : U32
  maxFrags : U32
  deriving DecidableEq, Repr

/-- `runtime_config_init`. -/
def runtimeConfigInit : RuntimeConfig where
  configFilePath := strncpy (MAX_PATH_LEN - 1) "/etc/cyrenus/cyrenus.conf".toList
  interface := []
  httpPort := 8181
  backendUrl := []
  apiKey := []
  appSecret := []
  username := strncpy (MAX_STRING_LEN - 1) "admin".toList
  password := strncpy (MAX_STRING_LEN - 1) "admin".toList
  databasePath := strncpy (MAX_PATH_LEN - 1) "/var/lib/cyrenus/cyrenus.db".toList
  geoipDbPath := strncpy (MAX_PATH_LEN - 1) "/var/lib/cyrenus/GeoLite2-Country.mmdb".toList
  masterKeyPath := strncpy (MAX_PATH_LEN - 1) "/etc/cyrenus/master.key".toList
  dryRun := false
  verbose := false
  debug := false
  noGeoip := false
  noNotifications := false
  daemonMode := false
  logFile := []
  logLevel := 2
  environment := strncpy 31 "production".toList
  synFloodRate := 1000
  udpFloodRate := 100000
  icmpFloodRate := 100
  dnsAmpRate := 200
  maxFrags := 15

/-! ## Environment variables -/

/-- What `getenv` answers. -/
abbrev Environ := String → Option CStr

/-- `runtime_config_load_env`: each variable that is set overwrites its field. -/
def runtimeConfigLoadEnv (getenv : Environ) (rc : RuntimeConfig) : RuntimeConfig :=
  { rc with
    interface := ((getenv "CYRENUS_INTERFACE").map (strncpy (IFNAMSIZ - 1))).getD rc.interface
    httpPort :=
      ((getenv "CYRENUS_HTTP_PORT").map fun v => (atoi v).setWidth 16).getD rc.httpPort
    configFilePath :=
      ((getenv "CYRENUS_CONFIG").map (strncpy (MAX_PATH_LEN - 1))).getD rc.configFilePath
    databasePath :=
      ((getenv "CYRENUS_DB_PATH").map (strncpy (MAX_PATH_LEN - 1))).getD rc.databasePath
    geoipDbPath :=
      ((getenv "CYRENUS_GEOIP_DB").map (strncpy (MAX_PATH_LEN - 1))).getD rc.geoipDbPath
    masterKeyPath :=
      ((getenv "CYRENUS_MASTER_KEY").map (strncpy (MAX_PATH_LEN - 1))).getD rc.masterKeyPath
    environment := ((getenv "CYRENUS_ENV").map (strncpy 31)).getD rc.environment
    logLevel := ((getenv "CYRENUS_LOG_LEVEL").map atoi).getD rc.logLevel
    logFile := ((getenv "CYRENUS_LOG_FILE").map (strncpy (MAX_PATH_LEN - 1))).getD rc.logFile }

/-! ## Command-line options -/

/-- `long_options`. -/
def longOptions : List Getopt.LongOption :=
  [⟨"interface".toList, true, 'i'⟩, ⟨"port".toList, true, 'p'⟩, ⟨"config".toList, true, 'c'⟩,
    ⟨"database".toList, true, 'd'⟩, ⟨"geoip".toList, true, 'g'⟩, ⟨"key".toList, true, 'k'⟩,
    ⟨"username".toList, true, 'u'⟩, ⟨"password".toList, true, 'P'⟩, ⟨"daemon".toList, false, 'D'⟩,
    ⟨"verbose".toList, false, 'v'⟩, ⟨"debug".toList, false, 'V'⟩,
    ⟨"environment".toList, true, 'e'⟩, ⟨"log-level".toList, true, 'l'⟩,
    ⟨"log-file".toList, true, 'L'⟩, ⟨"no-geoip".toList, false, '1'⟩,
    ⟨"no-notifications".toList, false, '2'⟩, ⟨"dry-run".toList, false, '3'⟩,
    ⟨"help".toList, false, 'h'⟩, ⟨"version".toList, false, '4'⟩]

/-- The arguments of the call of `getopt_long`. -/
def getoptSpec (getenv : Environ) : Getopt.Spec where
  short := "i:p:c:d:g:k:u:P:DvVe:l:L:h".toList
  long := longOptions
  requireOrder := (getenv "POSIXLY_CORRECT").isSome

/-- How handling an option, or a list of them, ends: it goes on, it returns -1, or it leaves the
program. The fields written before that stay written. -/
inductive ParseOutcome where
  | done (rc : RuntimeConfig)
  | failed (rc : RuntimeConfig)
  | exited
  deriving DecidableEq, Repr

/-- The configuration in which `runtime_config_parse_args` returns. -/
def ParseOutcome.config : ParseOutcome → Option RuntimeConfig
  | .done rc => some rc
  | .failed rc => some rc
  | .exited => none

/-- One turn of the loop of `runtime_config_parse_args`. -/
def applyOption (opt : Char) (optarg : CStr) (rc : RuntimeConfig) : ParseOutcome :=
  match opt with
  | 'i' => .done { rc with interface := strncpy (IFNAMSIZ - 1) optarg }
  | 'p' =>
    let rc := { rc with httpPort := (atoi optarg).setWidth 16 }
    if rc.httpPort = 0 then .failed rc else .done rc
  | 'c' => .done { rc with configFilePath := strncpy (MAX_PATH_LEN - 1) optarg }
  | 'd' => .done { rc with databasePath := strncpy (MAX_PATH_LEN - 1) optarg }
  | 'g' => .done { rc with geoipDbPath := strncpy (MAX_PATH_LEN - 1) optarg }
  | 'k' => .done { rc with masterKeyPath := strncpy (MAX_PATH_LEN - 1) optarg }
  | 'u' => .done { rc with username := strncpy (MAX_STRING_LEN - 1) optarg }
  | 'P' => .done { rc with password := strncpy (MAX_STRING_LEN - 1) optarg }
  | 'D' => .done { rc with daemonMode := true }
  | 'v' => .done { rc with verbose := true, logLevel := 2 }
  | 'V' => .done { rc with debug := true, logLevel := 3 }
  | 'e' => .done { rc with environment := strncpy 31 optarg }
  | 'l' =>
    let rc := { rc with logLevel := atoi optarg }
    if rc.logLevel.toInt < 0 ∨ rc.logLevel.toInt > 3 then .failed rc else .done rc
  | 'L' => .done { rc with logFile := strncpy (MAX_PATH_LEN - 1) optarg }
  | '1' => .done { rc with noGeoip := true }
  | '2' => .done { rc with noNotifications := true }
  | '3' => .done { rc with dryRun := true }
  | 'h' => .exited
  | '4' => .exited
  | _ => .failed rc

/-- The loop of `runtime_config_parse_args`. -/
def applyItems : List Getopt.Item → RuntimeConfig → ParseOutcome
  | [], rc => .done rc
  | .bad :: _, rc => .failed rc
  | .opt c arg :: items, rc =>
    match applyOption c (arg.getD []) rc with
    | .done rc => applyItems items rc
    | r => r

/-- `runtime_config_parse_args`, on the arguments from `optind` on. A positional argument is the
path of the configuration file. -/
def runtimeConfigParseArgs (spec : Getopt.Spec) (args : List CStr) (rc : RuntimeConfig) :
    ParseOutcome :=
  let scan := Getopt.scan spec args
  match applyItems scan.items rc with
  | .done rc => .done { rc with
      configFilePath := (scan.rest.head?.map (strncpy (MAX_PATH_LEN - 1))).getD rc.configFilePath }
  | r => r

/-! ## Configuration files -/

/-- What libconfig answers to the lookups in the group `backend`. -/
structure BackendGroup where
  url : Option CStr
  apiKey : Option CStr
  apiSecret : Option CStr

/-- What libconfig answers to the lookups in a file it has read. -/
structure ConfigFile where
  interface : Option CStr
  httpPort : Option U32
  backend : Option BackendGroup
  username : Option CStr
  password : Option CStr
  databasePath : Option CStr
  geoipDatabasePath : Option CStr

/-- `struct config`. -/
structure Config where
  appSecret : CStr := []
  interface : CStr := []
  httpPort : U32 := 0
  backendUrl : CStr := []
  backendApiKey : CStr := []
  backendApiSecret : CStr := []
  username : CStr := []
  password : CStr := []

/-- A required lookup; without an answer the function prints a message and gives up. -/
def required {α : Type} (answer : Option α) (setting : String) : Except String α :=
  match answer with
  | some v => .ok v
  | none => .error ("No '" ++ setting ++ "' setting in configuration file.")

/-- `load_config`, on a file that libconfig could read. -/
def loadConfig (file : ConfigFile) (cfg : Config) : Except String Config := do
  let interface ← required file.interface "interface"
  let httpPort ← required file.httpPort "http_port"
  let backend ← required file.backend "backend"
  let url ← required backend.url "backend.url"
  let apiKey ← required backend.apiKey "backend.api_key"
  let apiSecret ← required backend.apiSecret "backend.api_secret"
  let username ← required file.username "username"
  let password ← required file.password "password"
  return { cfg with
    interface := strncpy (IFNAMSIZ - 1) interface
    httpPort := httpPort
    backendUrl := strncpy 255 url
    backendApiKey := strncpy 63 apiKey
    backendApiSecret := strncpy 63 apiSecret
    username := strncpy 63 username
    password := strncpy 63 password }

/-- The new contents of a buffer that is overwritten unless the source is empty. -/
def copyUnlessEmpty (n : ℕ) (src old : CStr) : CStr :=
  if src.length > 0 then strncpy n src else old

/-- Copy what `load_config` found. -/
def copyConfig (fileCfg : Config) (rc : RuntimeConfig) : RuntimeConfig :=
  { rc with
    interface := copyUnlessEmpty (IFNAMSIZ - 1) fileCfg.interface rc.interface
    httpPort := if fileCfg.httpPort.toInt > 0 then fileCfg.httpPort.setWidth 16 else rc.httpPort
    backendUrl := copyUnlessEmpty (MAX_URL_LEN - 1) fileCfg.backendUrl rc.backendUrl
    apiKey := copyUnlessEmpty 63 fileCfg.backendApiKey rc.apiKey
    appSecret := copyUnlessEmpty 63 fileCfg.appSecret rc.appSecret
    username := copyUnlessEmpty (MAX_STRING_LEN - 1) fileCfg.username rc.username
    password := copyUnlessEmpty (MAX_STRING_LEN - 1) fileCfg.password rc.password }

/-- Copy the paths that the file gives outside of `load_config`. -/
def copyPaths (file : ConfigFile) (rc : RuntimeConfig) : RuntimeConfig :=
  { rc with
    databasePath := (file.databasePath.map (strncpy (MAX_PATH_LEN - 1))).getD rc.databasePath
    geoipDbPath := (file.geoipDatabasePath.map (strncpy (MAX_PATH_LEN - 1))).getD rc.geoipDbPath }

/-- `runtime_config_load_file`, given what libconfig makes of the file: it fails when libconfig
cannot read the file or a setting that `load_config` requires is missing. -/
def runtimeConfigLoadFile (file : Option ConfigFile) (rc : RuntimeConfig) : Option RuntimeConfig :=
  match file with
  | none => none
  | some file =>
    match loadConfig file {} with
    | .error _ => none
    | .ok fileCfg => some (copyPaths file (copyConfig fileCfg rc))

/-! ## The configuration `main` computes -/

/-- What `main` asks about its surroundings. -/
structure Surroundings where
  getenv : Environ
  readable : CStr → Bool
  configFile : CStr → Option ConfigFile

/-- The first half of the start of `main`: defaults, environment, command line. -/
def firstPass (args : List CStr) (sys : Surroundings) : ParseOutcome :=
  runtimeConfigParseArgs (getoptSpec sys.getenv) args
    (runtimeConfigLoadEnv sys.getenv runtimeConfigInit)

/-- The arguments from `optind` on after the first scan of the command line. -/
def argsLeft (args : List CStr) (sys : Surroundings) : List CStr :=
  (Getopt.scan (getoptSpec sys.getenv) args).rest

/-- The start of `main`, up to the validation. A readable file is loaded, and environment and
command line are applied once more, whatever the second parse returns. -/
def mainConfig (args : List CStr) (sys : Surroundings) : Option RuntimeConfig :=
  match firstPass args sys with
  | .done rc =>
    if sys.readable rc.configFilePath then
      match runtimeConfigLoadFile (sys.configFile rc.configFilePath) rc with
      | none => none
      | some rc =>
        (runtimeConfigParseArgs (getoptSpec sys.getenv) (argsLeft args sys)
          (runtimeConfigLoadEnv sys.getenv rc)).config
    else some rc
  | _ => none

/-! ## Validation -/

/-- `runtime_config_validate`: the message with which it fails, or the warnings that it prints. -/
def runtimeConfigValidate (readable : CStr → Bool) (rc : RuntimeConfig) :
    Except CStr (List CStr) :=
  if rc.interface.length = 0 then .error "Error: Network interface not specified".toList
  else if rc.httpPort = 0 ∨ rc.httpPort.toNat > 65535 then
    .error ("Error: Invalid HTTP port: ".toList ++ CStr.ofInt rc.httpPort.toNat)
  else
    let config := if readable rc.configFilePath then []
      else ["Warning: Config file not accessible: ".toList ++ rc.configFilePath]
    let masterKey := if readable rc.masterKeyPath then []
      else ["Warning: Master key file not accessible: ".toList ++ rc.masterKeyPath,
        "Database encryption may not work properly".toList]
    let environment :=
      if rc.environment ∈ ["development".toList, "production".toList, "testing".toList] then []
      else ["Warning: Unknown environment '".toList ++ rc.environment ++
        "', using 'production'".toList]
    .ok (config ++ masterKey ++ environment)

end Cyrenus
