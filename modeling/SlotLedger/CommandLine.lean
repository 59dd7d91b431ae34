import SlotLedger.Scenario

/-!
# Command line

The command that runs a scenario through a configured session:

    [-c FILE | --config FILE] [--session ID] [--verify] [--] SCENARIO

The configuration file may also be named by the environment.  With `--verify` the log is replayed
after the run and the fingerprints are compared.

## Main definitions

* `Argument.list?`, `Arguments.ofList?`: the arguments.
* `Arguments.run`: the run, from the settings to the report.
-/

namespace SlotLedger

/-! ## Arguments -/

/-- One argument with its value. -/
inductive Argument where
  | scenario (path : String)
  | config (path : String)
  | session (id : String)
  | verify
deriving DecidableEq

namespace Argument

/-- Whether a text can be a value of its own: it is no option. -/
def isValue (text : String) : Bool := text == "-" || text.toList.head? != some '-'

/-- The option that a text starts, with the value that is attached to it. -/
def option? (text : String) : Option ((String → Argument) × Option String) :=
  match text.toList with
  | '-' :: '-' :: long =>
    let name := String.ofList (long.takeWhile (· != '='))
    let value :=
      match long.dropWhile (· != '=') with
      | [] => none
      | _ :: value => some (String.ofList value)
    if name = "config" then some (config, value)
    else if name = "session" then some (session, value)
    else none
  | ['-', 'c'] => some (config, none)
  | '-' :: 'c' :: '=' :: value => some (config, some (String.ofList value))
  | '-' :: 'c' :: value => some (config, some (String.ofList value))
  | _ => none

/-- The arguments of a command line.  After `--` no text is an option. -/
def list? : List String → Option (List Argument)
  | [] => some []
  | text :: rest =>
    if text = "--" then some (rest.map scenario)
    else if text = "--verify" then (verify :: ·) <$> list? rest
    else
      match option? text, rest with
      | some (make, some value), rest => (make value :: ·) <$> list? rest
      | some (make, none), value :: after =>
        if isValue value then (make value :: ·) <$> list? after else none
      | some (_, none), [] => none
      | none, rest => if isValue text then (scenario text :: ·) <$> list? rest else none

/-- The scenario that an argument names. -/
def scenario? : Argument → Option String
  | .scenario path => some path
  | _ => none

/-- The configuration file that an argument names. -/
def config? : Argument → Option String
  | .config path => some path
  | _ => none

/-- The session that an argument names. -/
def session? : Argument → Option String
  | .session id => some id
  | _ => none

end Argument

/-- The arguments of a run. -/
structure Arguments where
  scenario : String
  config : Option String
  session : Option String
  verify : Bool
deriving DecidableEq

namespace Arguments

/-- The only item of a list, if it has one; a list of more is refused. -/
def atMostOne? {α : Type} : List α → Option (Option α)
  | [] => some none
  | [a] => some (some a)
  | _ => none

/-- The arguments of a command line, where `environment` names the configuration file if no argument
does.  Each argument is given once at most, a scenario is needed, and no file has an empty name. -/
def ofList? (environment : Option String) (texts : List String) : Option Arguments := do
  let arguments ← Argument.list? texts
  let scenario ← (← atMostOne? (arguments.filterMap Argument.scenario?))
  let config ← atMostOne? (arguments.filterMap Argument.config?)
  let session ← atMostOne? (arguments.filterMap Argument.session?)
  let verify ← atMostOne? (arguments.filter (· = .verify))
  let config := config.or environment
  if scenario = "" ∨ config = some "" then none
  else some { scenario, config, session, verify := verify.isSome }

end Arguments

/-! ## Runs -/

/-- Why a run ended early. -/
inductive RunError where
  | usage
  | config (error : ConfigError)
  /-- The settings are refused after another session was asked for. -/
  | session (error : ConfigError)
  | scenario (path : String) (error : ScenarioError)
  | opening (id : String) (error : SessionError)
  | running (error : SessionError)
  | differs (replayed live : String)
deriving DecidableEq

/-- The error in words, as far as the run can tell without the disk's own words. -/
def RunError.message : RunError → String
  | .usage => "usage: [-c FILE | --config FILE] [--session ID] [--verify] [--] SCENARIO"
  | .config _ => "loading runtime config"
  | .session error => error.message
  | .scenario path _ => s!"loading scenario {path}"
  | .opening id _ => s!"opening session {id}"
  | .running error => error.message
  | .differs replayed live =>
    s!"replayed fingerprint {replayed} differs from live fingerprint {live}"

/-- The first line of the error, as a terminal shows it. -/
def RunError.headline (e : RunError) : String :=
  let line := e.message.toList.takeWhile (· != '\n')
  String.ofList (if line.getLast? = some '\r' then line.dropLast else line)

/-- The exit status that tells of an error. -/
def RunError.status : RunError → UInt32
  | .usage => 2
  | _ => 1

/-- What a run came to.  A report may be there although the run ended with an error, since the
replay comes after it. -/
structure RunResult where
  report : Option ScenarioReport
  error : Option RunError
deriving DecidableEq

namespace RunResult

/-- A run that ended before there was a report. -/
def failed (error : RunError) : RunResult := ⟨none, some error⟩

/-- The exit status of a run. -/
def status (r : RunResult) : UInt32 := (r.error.map RunError.status).getD 0

end RunResult

namespace Arguments

/-- The settings of a run. -/
def settings (a : Arguments) (disk : Disk) : Except RunError Config := do
  let config ← (Config.load disk a.config).mapError .config
  match a.session with
  | none => return config
  | some id => ({ config with sessionId := id }.validate).mapError .session

/-- Whether replaying a session's log gives the fingerprint of its report. -/
def verifyReplay (registry : Registry) (session : Session) (disk : Disk)
    (report : ScenarioReport) : Except RunError Unit := do
  let records ← (session.records disk).mapError .running
  let replayed ←
    (Ledger.rebuildFingerprint registry records).mapError (RunError.running ∘ .replay)
  if replayed = report.fingerprint then return ()
  else throw (.differs replayed report.fingerprint)

/-- Load the settings and the scenario, open or create the session, apply the operations and, if
asked for, compare with a replay of the log. -/
def run (a : Arguments) (disk : Disk) : RunResult × Disk :=
  let inputs := do
    let config ← a.settings disk
    let scenario ← (Scenario.load disk (⟨a.scenario⟩)).mapError (.scenario a.scenario)
    return (config, scenario)
  match inputs with
  | .error e => (.failed e, disk)
  | .ok (config, scenario) =>
    match Session.openOrCreate disk ⟨""⟩ config .builtin scenario.deployment with
    | (.error e, disk) => (.failed (.opening config.sessionId e), disk)
    | (.ok session, disk) =>
      match Scenario.run session disk scenario.operations with
      | (.error e, _, disk) => (.failed (.running e), disk)
      | (.ok report, session, disk) =>
        let check := if a.verify then verifyReplay .builtin session disk report else .ok ()
        match check with
        | .error e => (⟨some report, some e⟩, disk)
        | .ok () => (⟨some report, none⟩, disk)

end Arguments

/-- Run a command line. -/
def runCommandLine (environment : Option String) (texts : List String) (disk : Disk) :
    RunResult × Disk :=
  match Arguments.ofList? environment texts with
  | none => (.failed .usage, disk)
  | some a => a.run disk

end SlotLedger
