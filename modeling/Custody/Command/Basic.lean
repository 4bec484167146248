import Custody.Command.Arguments
import Custody.Command.Report
import Custody.Settings.Reader

/-!
# Commands

What a task prints and whether its answer is yes, given the contents of the files that it reads.  A
file that cannot be read is given by the reason in its place.
-/

namespace Custody

/-- The content of a file, or why it cannot be read. -/
abbrev Content := Except String ByteArray

/-- Why a task cannot be done. -/
inductive CommandError where
  | unreadable (path reason : String)
  | unreadableInput (reason : String)
  | unreadableSettings (path reason : String)
  | badSettings (path : String) (error : ConfigurationError)
  | notBundle (path : String) (fault : Fault)
  | notJson
  deriving DecidableEq

namespace CommandError

def context : CommandError → String
  | .unreadable path _ => "failed to read " ++ path
  | .unreadableInput _ => "failed to read stdin"
  | .unreadableSettings path _ => "failed to read config " ++ path
  | .badSettings path _ => "in " ++ path
  | .notBundle path _ => path ++ " is not a valid evidence bundle"
  | .notJson => "input is not valid JSON"

def cause : CommandError → String
  | .unreadable _ reason => reason
  | .unreadableInput reason => reason
  | .unreadableSettings _ reason => reason
  | .badSettings _ error => error.message
  | .notBundle _ fault => fault.message
  | .notJson => Fault.malformed.message

def message (e : CommandError) : String := e.context ++ ": " ++ e.cause

end CommandError

/-- What a task prints, and whether its answer is yes. -/
structure Output where
  text : String
  ok : Bool
  deriving DecidableEq, Repr

/-- The verification of a file; one that cannot be read fails. -/
def Verification.ofFile (hash : Hasher) (path : String) : Content → Verification
  | .error reason => failed s!"failed to read {path}: {reason}"
  | .ok bytes => ofBytes hash bytes

def Configuration.ofFile (path : String) (content : Content) : Except CommandError Configuration :=
  match content with
  | .error reason => .error (.unreadableSettings path reason)
  | .ok bytes =>
    match String.fromUTF8? bytes with
    | none => .error (.unreadableSettings path "stream did not contain valid UTF-8")
    | some text => (ofToml text.toList).mapError (.badSettings path)

namespace Task

def verifyFile (hash : Hasher) (path : String) (content : Content) (json : Bool) : Output :=
  let v := Verification.ofFile hash path content
  ⟨if json then v.jsonReport else v.report, v.isValid⟩

def inspectFile (hash : Hasher) (settings : CaptureSettings) (path : String) (content : Content) :
    Except CommandError Output :=
  match content with
  | .error reason => .error (.unreadable path reason)
  | .ok bytes =>
    match Bundle.codec.decode (Text.decode bytes) with
    | .error fault => .error (.notBundle path fault)
    | .ok bundle => .ok ⟨bundle.report hash settings, bundle.verifyRoot hash⟩

def hashDocument (hash : Hasher) (canonical : Bool) (bytes : ByteArray) :
    Except CommandError Output :=
  match Json.parse? (Text.decode bytes) with
  | none => .error .notJson
  | some v => .ok ⟨v.hashReport hash canonical, true⟩

def path? : Task → Option String
  | .verify path _ => some path
  | .inspect path => some path
  | .hash path _ => path

def perform (hash : Hasher) (settings : CaptureSettings) (read : String → Content)
    (input : Content) : Task → Except CommandError Output
  | .verify path json => .ok (verifyFile hash path (read path) json)
  | .inspect path => inspectFile hash settings path (read path)
  | .hash (some path) canonical =>
    match read path with
    | .error reason => .error (.unreadable path reason)
    | .ok bytes => hashDocument hash canonical bytes
  | .hash none canonical =>
    match input with
    | .error reason => .error (.unreadableInput reason)
    | .ok bytes => hashDocument hash canonical bytes

end Task

namespace Invocation

/-- The settings for an invocation: those in the file that it names, with its options in place of
what the file says about the log. -/
def configuration (i : Invocation) (read : String → Content) :
    Except CommandError Configuration :=
  let withOptions (c : Configuration) : Configuration :=
    ⟨c.capture, i.options.logLevel.getD c.log.level, i.options.logFormat.getD c.log.format⟩
  match i.options.config with
  | none => .ok (withOptions .default)
  | some path => (Configuration.ofFile path (read path)).map withOptions

def perform (i : Invocation) (hash : Hasher) (read : String → Content) (input : Content) :
    Except CommandError Output :=
  match i.configuration read with
  | .error error => .error error
  | .ok c => i.task.perform hash c.capture read input

def paths (i : Invocation) : List String := i.options.config.toList ++ i.task.path?.toList

end Invocation

/-! ## The program -/

def versionText : String := linesText ["warden " ++ version]

def helpText : String :=
  linesText
    ["Verify and inspect Warden evidence bundles",
      "",
      "Usage: warden [OPTIONS] <COMMAND>",
      "",
      "Commands:",
      "  verify <path> [--json]       Verify an exported evidence bundle",
      "  inspect <path>               Summarize a bundle and its hash chain",
      "  hash [path] [--canonical]    Canonical SHA-256 of a JSON document",
      "  help                         Print this message",
      "",
      "Options:",
      "      --config <path>          Path to a warden.toml configuration file",
      "      --log-level <level>      Log filter directive (overrides the config file)",
      "      --log-format <format>    Log output format [possible values: text, json]",
      "  -h, --help                   Print help",
      "  -V, --version                Print version"]

/-- How a run of the program ends: what it prints, what it complains of, and its exit status. -/
structure Result where
  output : String
  complaint : Option String
  status : UInt8
  deriving DecidableEq

namespace Result

def ofStop : Stop → Result
  | .help => ⟨helpText, none, 0⟩
  | .version => ⟨versionText, none, 0⟩
  | stop => ⟨"", some stop.message, 2⟩

/-- How a run ends that had a task to do: with status 0 if the answer is yes and 1 if it is no. -/
def ofOutput : Except CommandError Output → Result
  | .ok output => ⟨output.text, none, if output.ok then 0 else 1⟩
  | .error error => ⟨"", some error.message, 2⟩

def ofArguments (hash : Hasher) (read : String → Content) (input : Content) (args : List String) :
    Result :=
  match Invocation.ofArguments args with
  | .error stop => ofStop stop
  | .ok invocation => ofOutput (invocation.perform hash read input)

end Result

end Custody
