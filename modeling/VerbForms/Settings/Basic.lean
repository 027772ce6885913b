import VerbForms.Settings.Field
import VerbForms.Store.Basic

/-!
# Settings

What a host is set up with. Each field is given directly, or by a variable of the environment, or has its
default; all fields that do not fit are reported together. Some settings fit their fields and still make
no safe host: `Settings.dangers` tells why.
-/

namespace VerbForms

/-- The settings of a host. -/
structure Settings where
  environment : String
  logLevel : String
  databaseUrl : String
  backend : String
  remoteBase : String
  /-- Seconds to wait for a reply. -/
  timeout : Double
  /-- Most consoles that are kept. -/
  mostConsoles : Int
  verbs : String
  singleVerb : Bool
  singleVerbMethod : String
  deriving Inhabited

/-- A field whose value does not fit. -/
structure FieldProblem where
  field : String
  fault : FieldFault
  deriving DecidableEq, Repr

/-- The wording of a list of problems. -/
def FieldProblem.message (problems : List FieldProblem) : String :=
  "; ".intercalate (problems.map fun problem => problem.field ++ ":" ++ problem.fault.word)

namespace Settings

/-- The start of the names of variables. -/
def variableStart : String := "form_console_"

/-- The fields that variables of the environment give; of several variables that differ only in case the
last one counts. -/
def ofEnvironment (pairs : List (String × String)) : Members :=
  pairs.filterMap fun (name, value) =>
    let name := Text.lower name
    if Text.beginsWith variableStart name then
      some (String.ofList (name.toList.drop variableStart.length), .text value)
    else none

/-- What is read so far, or all problems so far. -/
abbrev Checked (α : Type) := Except (List FieldProblem) α

/-- Read one more field; its problem comes after those before it. -/
def Checked.field {α β : Type} (given : Members) (name : String) (default : α) (check : Json → Except FieldFault α)
    (before : Checked (α → β)) : Checked β :=
  let value := match Assoc.get? given name with
    | some value => (check value).mapError fun fault => [FieldProblem.mk name fault]
    | none => .ok default
  match before, value with
  | .ok f, .ok value => .ok (f value)
  | .ok _, .error problems => .error problems
  | .error problems, .ok _ => .error problems
  | .error problems, .error more => .error (problems ++ more)

/-- The verbs of a host where nothing else is set. -/
def defaultVerbs : String := "GET,POST,PUT,DELETE"

/-- The settings that fields give. -/
def ofFields (given : Members) : Checked Settings :=
  .ok Settings.mk
    |> Checked.field given "app_env" "development" Field.text
    |> Checked.field given "log_level" "INFO" Field.text
    |> Checked.field given "database_url" "sqlite:///./form_console.db" Field.text
    |> Checked.field given "persistence_backend" "database" Field.text
    |> Checked.field given "upstream_base_url" "http://127.0.0.1:8080" Field.text
    |> Checked.field given "upstream_timeout_sec" (Double.ofInt 15) (fun value =>
      Field.number value >>= Field.within Double.less (Double.ofDecimal false 5 (-1)) (Double.ofInt 300))
    |> Checked.field given "max_consoles" 32 (fun value =>
      Field.integer value >>= Field.within (fun m n => decide (m < n)) 1 1024)
    |> Checked.field given "verbs" defaultVerbs Field.text
    |> Checked.field given "single_verb" false Field.truth
    |> Checked.field given "single_verb_method" "POST" Field.text

/-- The settings that given values and the environment make; given values win. -/
def read (values : Members) (pairs : List (String × String)) : Checked Settings :=
  ofFields (Assoc.putAll (Assoc.putAll [] (ofEnvironment pairs)) values)

/-- A text without blanks at its ends and in lower case. -/
private def plain (s : String) : String := Text.lower (Text.trim s)

/-- The verbs that a list with commas names, each once. -/
def verbsOf (s : String) : List String :=
  (((Text.splitAt ',' s.toList).map fun part => Text.upper (Text.trim (String.ofList part))).filter (!·.isEmpty)).eraseDups

/-- The verbs that are set. -/
def parsedVerbs (settings : Settings) : List String := verbsOf settings.verbs

/-- The verb of consoles with a single form. -/
def singleMethod (settings : Settings) : String :=
  let verb := Text.upper (Text.trim settings.singleVerbMethod)
  if verb.isEmpty then "POST" else verb

/-- The verbs of each console. -/
def consoleVerbs (settings : Settings) : List String :=
  if settings.singleVerb then [settings.singleMethod] else settings.parsedVerbs

/-- Whether the host serves in earnest. -/
def isProduction (settings : Settings) : Bool := Store.isProduction settings.environment

/-- Where entered values are kept. -/
inductive Backend where
  | memory
  | database
  deriving DecidableEq, Repr

/-- The backend that the settings name; anything but the memory means the database. -/
def chosenBackend (settings : Settings) : Backend := if plain settings.backend = "memory" then .memory else .database

/-- Why settings make no safe host. -/
inductive Danger where
  | unknownBackend
  | noVerbs
  | volatileBackend
  | fileDatabase
  | insecureRemote
  | databasePlaceholder
  | remotePlaceholder
  deriving DecidableEq, Repr

/-- The wording of a danger. -/
def Danger.message : Danger → String
  | .unknownBackend => "FORM_CONSOLE_PERSISTENCE_BACKEND must be one of ['database', 'memory']"
  | .noVerbs => "FORM_CONSOLE_VERBS must name at least one HTTP verb"
  | .volatileBackend => "FORM_CONSOLE_PERSISTENCE_BACKEND must be `database` in production"
  | .fileDatabase => "FORM_CONSOLE_DATABASE_URL must not use sqlite in production"
  | .insecureRemote => "FORM_CONSOLE_UPSTREAM_BASE_URL must use https:// in production"
  | .databasePlaceholder => "FORM_CONSOLE_DATABASE_URL must not use placeholder values in production"
  | .remotePlaceholder => "FORM_CONSOLE_UPSTREAM_BASE_URL must not use placeholder values in production"

/-- Texts that still have to be filled in. -/
def isPlaceholder (s : String) : Bool := Text.holds "replace-with" (plain s)

/-- The dangers in any environment. -/
def commonDangers (settings : Settings) : List Danger :=
  (if ["database", "memory"].contains (plain settings.backend) then [] else [.unknownBackend])
    ++ (if settings.parsedVerbs.isEmpty && !settings.singleVerb then [.noVerbs] else [])

/-- The dangers for a host that serves in earnest. -/
def productionDangers (settings : Settings) : List Danger :=
  (if plain settings.backend = "database" then [] else [.volatileBackend])
    ++ (if Text.beginsWith "sqlite" (plain settings.databaseUrl) then [.fileDatabase] else [])
    ++ (if Text.beginsWith "https://" (plain settings.remoteBase) then [] else [.insecureRemote])
    ++ (if isPlaceholder settings.databaseUrl then [.databasePlaceholder] else [])
    ++ (if isPlaceholder settings.remoteBase then [.remotePlaceholder] else [])

/-- All dangers of the settings. -/
def dangers (settings : Settings) : List Danger :=
  settings.commonDangers ++ if settings.isProduction then settings.productionDangers else []

/-- The wording of a refusal to start. -/
def unsafeMessage : String := "Unsafe form console configuration; see logs for details"

end Settings

end VerbForms
