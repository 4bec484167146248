import Custody.Bundle.Verification
import Custody.Calendar
import Custody.Settings.Basic

/-!
# Reports

What is printed about a bundle or a document: whether it can be trusted, what a bundle says, or the
digest of a document.
-/

namespace Custody

def linesText (lines : List String) : String := String.join (lines.map (· ++ "\n"))

namespace Verification

def mark (ok : Bool) : String := if ok then "ok" else "FAILED"

def report (v : Verification) : String :=
  linesText <|
    ["bundle:    " ++ v.bundleId.getD "<unknown>",
      "structure: " ++ mark v.structureValid,
      "hash:      " ++ mark v.hashValid,
      "integrity: " ++ mark v.integrityValid] ++
    v.errors.map ("  - " ++ ·) ++
    ["result:    " ++ if v.isValid then "VALID" else "INVALID"]

def jsonReport (v : Verification) : String := (codec.write v).indented ++ "\n"

end Verification

namespace Bundle

/-- How the version of the authority compares with the one in the settings. -/
def versionNote (b : Bundle) (settings : CaptureSettings) : String :=
  if b.parts.authorityVersion = settings.authorityVersion then "matches configuration"
  else "configured " ++ settings.authorityVersion

def outcomeText (p : Parts) : String :=
  match p.results, p.failure with
  | some results, _ => s!"success (snapshot {results.snapshotId})"
  | none, some refusal => "refused: " ++ refusal.reason
  | none, none => "<none>"

/-- A text with blanks after it up to a width. -/
def padRight (width : Nat) (s : String) : String :=
  s ++ String.ofList (List.replicate (width - s.length) ' ')

/-- A text with blanks before it up to a width. -/
def padLeft (width : Nat) (s : String) : String :=
  String.ofList (List.replicate (width - s.length) ' ') ++ s

/-- The lines for the entries of a chain, numbered from an index on. -/
def entryLines : Nat → List Entry → List String
  | _, [] => []
  | i, entry :: rest =>
    ("  " ++ padLeft 2 (toString i) ++ " " ++ padRight 18 entry.key ++ " " ++ entry.digest.short) ::
      entryLines (i + 1) rest

def report (hash : Hasher) (settings : CaptureSettings) (b : Bundle) : String :=
  let p := b.parts
  linesText <|
    ["bundle:            " ++ p.id,
      "created_at:        " ++ Calendar.instantText p.createdAt.toInt.toNat,
      "authority_version: " ++ p.authorityVersion ++ " (" ++ b.versionNote settings ++ ")",
      "principal:         " ++ p.principal.id,
      "capability:        " ++ p.intent.capability] ++
    p.intent.stepId.toList.map ("step:              " ++ ·) ++
    p.grant.toList.map (fun grant => "grant:             " ++ grant.id) ++
    ["outcome:           " ++ outcomeText p,
      s!"executions:        {p.executions.length}",
      "hash_chain_root:   " ++ b.root.hex,
      "chain:"] ++
    entryLines 0 (p.chain hash).entries ++
    ["root check:        " ++ if b.verifyRoot hash then "ok" else "MISMATCH"]

end Bundle

/-- The digest of a document, after its canonical text if that is asked for. -/
def Json.hashReport (hash : Hasher) (showCanonical : Bool) (v : Json) : String :=
  linesText <|
    (if showCanonical then [v.canonical] else []) ++ [(Digest.ofCanonical hash v).hex]

end Custody
