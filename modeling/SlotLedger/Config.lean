import SlotLedger.Disk
import SlotLedger.Json.Reader
import SlotLedger.Json.Record
import SlotLedger.Text.Quoted

/-!
# Configuration

Where sessions are kept and how often snapshots of them are written.  Every setting has a default; a
file names those that differ.
-/

namespace SlotLedger

/-- The settings of a program that keeps sessions. -/
structure Config where
  /-- The directory that holds a directory for each session. -/
  dataDirectory : String := "data"
  sessionId : String := "default"
  /-- A snapshot is written after every so many records, and never if this is zero. -/
  snapshotInterval : UInt64 := 100
  /-- Which messages a program writes about its work. -/
  logFilter : String := "info"
deriving DecidableEq

/-- Why settings were refused. -/
inductive ConfigError where
  /-- The file cannot be read as text. -/
  | read (path : String)
  /-- The text is no configuration. -/
  | parse (path : String)
  | invalid (reason : String)
deriving DecidableEq

/-- The error's code. -/
def ConfigError.code : ConfigError → String
  | .read _ => "read"
  | .parse _ => "parse"
  | .invalid _ => "invalid"

/-- The error in words. -/
def ConfigError.message : ConfigError → String
  | .read path => s!"failed to read config {path}"
  | .parse path => s!"invalid config {path}"
  | .invalid reason => s!"invalid config: {reason}"

namespace Config

/-- Settings; what is left out has its default. -/
def ofJson? (j : Json) : Option Config := do
  let r ← j.record? ["data_dir", "session_id", "snapshot_interval", "log_filter"] .refused
  let standard : Config := {}
  some
    { dataDirectory := ← r.defaulted "data_dir" standard.dataDirectory Json.string?
      sessionId := ← r.defaulted "session_id" standard.sessionId Json.string?
      snapshotInterval :=
        ← r.defaulted "snapshot_interval" standard.snapshotInterval Json.uint64?
      logFilter := ← r.defaulted "log_filter" standard.logFilter Json.string? }

/-- Settings as a document. -/
def toJson (c : Config) : Json :=
  .object
    [("data_dir", .string c.dataDirectory), ("session_id", .string c.sessionId),
      ("snapshot_interval", .natural c.snapshotInterval), ("log_filter", .string c.logFilter)]

/-- Whether a text names a directory inside another one: it is not empty, is not a directory's name
for itself or for the one above and has no separator. -/
def isPlainName (name : String) : Bool :=
  name != "" && name != "." && name != ".." && !name.toList.any fun c => c == '/' || c == '\\'

/-- Settings whose session has a plain name. -/
def validate (c : Config) : Except ConfigError Config :=
  if isPlainName c.sessionId then .ok c
  else
    .error
      (.invalid s!"session_id {Text.quoted c.sessionId} is not a plain directory name")

/-- The settings in a file, or the defaults where no file is named. -/
def load (disk : Disk) : Option String → Except ConfigError Config
  | none => validate {}
  | some path =>
    match disk.readText? (⟨path⟩) with
    | none => .error (.read path)
    | some text =>
      match (Json.parse? text).bind ofJson? with
      | none => .error (.parse path)
      | some c => c.validate

end Config

end SlotLedger
