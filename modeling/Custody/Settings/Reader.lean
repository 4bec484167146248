import Custody.Settings.Basic
import Custody.Toml.Document

/-!
# Reading settings

Settings are read from a TOML document with a table for evidence and a table for the log.  Either
may also be an array that lists its settings in their order, or a date or time, which gives none of
them.  What is missing has its default, what is unknown in a table is passed over, and an unknown
table is an error.
-/

namespace Custody

/-- Why a text gives no settings. -/
inductive ConfigurationError where
  /-- It is not TOML, or something in it is of the wrong kind or unknown. -/
  | malformed
  /-- The settings for evidence are not acceptable. -/
  | evidence (error : EvidenceError)
  deriving DecidableEq, Repr

def ConfigurationError.message : ConfigurationError → String
  | .malformed => "invalid warden configuration"
  | .evidence error => s!"invalid [evidence] section: {error.message}"

open Toml (Value)

def Toml.Value.toText? : Value → Option String
  | .text s => some s
  | _ => none

/-- Whether there is nothing in a value, as there must not be under the name of a choice. -/
def Toml.Value.isNothing : Value → Bool
  | .array items => items.isEmpty
  | .table entries => entries.isEmpty
  | _ => false

def settingOr {α : Type} (default : α) (read : Value → Option α) : Option Value → Option α
  | none => some default
  | some v => read v

namespace LogFormat

/-- The form of the log: its name, or a table with only its name in it. -/
def ofToml? : Value → Option LogFormat
  | .text s => ofName? s
  | .table [(key, v)] => if v.isNothing then ofName? key else none
  | _ => none

end LogFormat

namespace CaptureSettings

/-- The settings for evidence, each looked up by name and place. -/
def ofEntries? (entry : String → Nat → Option Value) : Option CaptureSettings := do
  let authorityVersion ← settingOr default.authorityVersion Value.toText?
    (entry "authority_version" 0)
  let principalKey ← settingOr default.principalKey Value.toText? (entry "principal_key" 1)
  let grantKey ← settingOr default.grantKey Value.toText? (entry "grant_key" 2)
  some ⟨authorityVersion, principalKey, grantKey⟩

def ofToml? : Value → Option CaptureSettings
  | .table entries => ofEntries? fun key _ => entries.lookup key
  | .array items => ofEntries? fun _ place => items[place]?
  | .moment _ => some default
  | _ => none

end CaptureSettings

namespace LogSettings

/-- The settings for the log, each looked up by name and place. -/
def ofEntries? (entry : String → Nat → Option Value) : Option LogSettings := do
  let level ← settingOr default.level Value.toText? (entry "level" 0)
  let format ← settingOr default.format LogFormat.ofToml? (entry "format" 1)
  some ⟨level, format⟩

def ofToml? : Value → Option LogSettings
  | .table entries => ofEntries? fun key _ => entries.lookup key
  | .array items => ofEntries? fun _ place => items[place]?
  | .moment _ => some default
  | _ => none

end LogSettings

namespace Configuration

def ofEntries? (entries : List (String × Value)) : Option Configuration :=
  if entries.all fun entry => entry.1 = "evidence" || entry.1 = "log" then do
    let capture ← settingOr .default CaptureSettings.ofToml? (entries.lookup "evidence")
    let log ← settingOr .default LogSettings.ofToml? (entries.lookup "log")
    some ⟨capture, log⟩
  else none

def ofToml (text : List Char) : Except ConfigurationError Configuration :=
  match (Toml.read? text).bind ofEntries? with
  | none => .error .malformed
  | some configuration =>
    match configuration.capture.error? with
    | some error => .error (.evidence error)
    | none => .ok configuration

end Configuration

end Custody
