import Custody.Codec.Choice
import Custody.Codec.Record
import Custody.Snapshot.Error

/-!
# Settings

What can be set: how evidence is captured, and how the log is written.  Everything has a default.
-/

namespace Custody

def version : String := "0.1.0"

/-- How evidence is captured. -/
@[ext] structure CaptureSettings where
  /-- The version of the authority, which is put on every bundle. -/
  authorityVersion : String
  /-- Where a context names the principal. -/
  principalKey : String
  /-- Where a grant or a context names the grant. -/
  grantKey : String
  deriving DecidableEq

namespace CaptureSettings

def default : CaptureSettings := ⟨version, "principal_id", "grant_id"⟩

def error? (s : CaptureSettings) : Option EvidenceError :=
  ((EvidenceError.ofText? "authority_version" s.authorityVersion).or
    (EvidenceError.ofText? "principal_key" s.principalKey)).or
    (EvidenceError.ofText? "grant_key" s.grantKey)

def fields : Fields [String, String, String] :=
  .cons (.withDefault "authority_version" .text default.authorityVersion)
    (.cons (.withDefault "principal_key" .text default.principalKey)
      (.cons (.withDefault "grant_key" .text default.grantKey) .nil))

/-- How settings are written; members that they do not have are passed over. -/
def codec : Codec CaptureSettings :=
  (Codec.record "EvidenceConfig" false fields).iso
    (fun (authorityVersion, principalKey, grantKey, ()) =>
      ⟨authorityVersion, principalKey, grantKey⟩)
    (fun s => (s.authorityVersion, s.principalKey, s.grantKey, ()))

def describe (s : CaptureSettings) : String :=
  "EvidenceConfig \x7b authority_version: " ++ Text.quote s.authorityVersion ++
    ", principal_key: " ++ Text.quote s.principalKey ++
    ", grant_key: " ++ Text.quote s.grantKey ++ " \x7d"

end CaptureSettings

/-- The form of the log. -/
inductive LogFormat where
  /-- Lines for reading. -/
  | text
  /-- One JSON object for each event. -/
  | json
  deriving DecidableEq, Repr

namespace LogFormat

def name : LogFormat → String
  | .text => "text"
  | .json => "json"

def all : List LogFormat := [.text, .json]

def ofName? (s : String) : Option LogFormat := all.find? fun format => format.name = s

def unknownMessage (s : String) : String := s!"unknown log format: {s}"

def codec : Codec LogFormat := .choice name all

end LogFormat

/-- How the log is written. -/
@[ext] structure LogSettings where
  /-- What is worth an entry. -/
  level : String
  format : LogFormat
  deriving DecidableEq

namespace LogSettings

def default : LogSettings := ⟨"info", .text⟩

def fields : Fields [String, LogFormat] :=
  .cons (.withDefault "level" .text default.level)
    (.cons (.withDefault "format" LogFormat.codec default.format) .nil)

/-- How settings are written; members that they do not have are passed over. -/
def codec : Codec LogSettings :=
  (Codec.record "LogConfig" false fields).iso
    (fun (level, format, ()) => ⟨level, format⟩)
    (fun s => (s.level, s.format, ()))

end LogSettings

/-- All settings. -/
@[ext] structure Configuration where
  capture : CaptureSettings
  log : LogSettings
  deriving DecidableEq

namespace Configuration

def default : Configuration := ⟨.default, .default⟩

def fields : Fields [CaptureSettings, LogSettings] :=
  .cons (.withDefault "evidence" CaptureSettings.codec .default)
    (.cons (.withDefault "log" LogSettings.codec .default) .nil)

/-- How all settings are written; there are no members but these two. -/
def codec : Codec Configuration :=
  (Codec.record "WardenConfig" true fields).iso
    (fun (capture, log, ()) => ⟨capture, log⟩)
    (fun c => (c.capture, c.log, ()))

end Configuration

end Custody
