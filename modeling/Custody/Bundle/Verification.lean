import Custody.Bundle.Basic
import Custody.Text.Utf8

/-!
# Verification

An exported bundle is verified by three checks that do not depend on one another: that all required
members are there and say something, that the root is that of the chain, and that the value has the
shape of a bundle.  None of them asks whether what the bundle says is true.
-/

namespace Custody

/-- What is wrong with an exported bundle. -/
inductive Problem where
  /-- A required member is there but says nothing. -/
  | empty (key : String)
  | missing (key : String)
  | notText (key : String)
  | notObject (key : String)
  | createdAt
  | bothOutcomes
  | neitherOutcome
  /-- There is no root to compare with. -/
  | rootUnavailable
  | emptyChain
  | rootMismatch (stored : String) (computed : Digest)
  | shape (fault : Fault)
  /-- The text is not JSON. -/
  | unreadable
  | notAnObject
  deriving DecidableEq

namespace Problem

def message : Problem → String
  | .empty key => s!"{key} is empty"
  | .missing key => s!"{key} is missing"
  | .notText key => s!"{key} is not a string"
  | .notObject key => s!"{key} is not an object"
  | .createdAt => "created_at is missing or not a positive integer"
  | .bothOutcomes => "both failure_composition and results are present"
  | .neitherOutcome => "neither failure_composition nor results is present"
  | .rootUnavailable => "hash_chain_root unavailable for comparison"
  | .emptyChain => "hash chain is empty"
  | .rootMismatch stored computed =>
    s!"hash_chain_root mismatch: stored {stored}, computed {computed.hex}"
  | .shape fault => s!"bundle shape invalid: {fault.message}"
  | .unreadable => "deserialization failed: invalid JSON"
  | .notAnObject => "deserialization failed: bundle is not a JSON object"

end Problem

/-- What verifying one exported bundle showed. -/
@[ext] structure Verification where
  isValid : Bool
  bundleId : Option String
  hashValid : Bool
  structureValid : Bool
  integrityValid : Bool
  /-- What was found wrong, in words, in the order of the checks. -/
  errors : List String
  deriving DecidableEq

namespace Verification

/-- Everything failed, for one reason. -/
def failed (error : String) : Verification := ⟨false, none, false, false, false, [error]⟩

/-- What is wrong with a member that must be a text with content. -/
def textProblem? (v : Json) (key : String) : Option Problem :=
  match v.member? key with
  | some (.str s) => if Text.isBlank s then some (.empty key) else none
  | some .null => some (.missing key)
  | none => some (.missing key)
  | some _ => some (.notText key)

/-- What is wrong with a member that must be an object with members. -/
def objectProblem? (v : Json) (key : String) : Option Problem :=
  match v.member? key with
  | some (.obj []) => some (.empty key)
  | some (.obj (_ :: _)) => none
  | some .null => some (.missing key)
  | none => some (.missing key)
  | some _ => some (.notObject key)

/-- What is wrong with the time of creation, which must be a positive integer. -/
def createdAtProblem? (v : Json) : Option Problem :=
  match v.member? "created_at" with
  | some (.num (.int n)) => if 0 < n.val ∧ n.val < 0x8000000000000000 then none else some .createdAt
  | _ => some .createdAt

/-- What is wrong with the executions, of which there must be one. -/
def executionsProblem? (v : Json) : Option Problem :=
  match v.member? "execution_snapshots" with
  | some (.arr []) => some (.empty "execution_snapshots")
  | some (.arr (_ :: _)) => none
  | _ => some (.missing "execution_snapshots")

def isPresent (v : Json) (key : String) : Bool := !(v.memberOrNull key).isNull

/-- What is wrong with the outcome, which is a refusal or results but not both. -/
def outcomeProblem? (v : Json) : Option Problem :=
  match isPresent v "failure_composition", isPresent v "results" with
  | true, true => some .bothOutcomes
  | false, false => some .neitherOutcome
  | _, _ => none

def structureProblems (v : Json) : List Problem :=
  [textProblem? v "bundle_id", textProblem? v "authority_version", textProblem? v "hash_chain_root",
    createdAtProblem? v, objectProblem? v "context_snapshot", objectProblem? v "intent_snapshot",
    objectProblem? v "principal_snapshot", executionsProblem? v, outcomeProblem? v].filterMap
    fun problem => problem

def hashProblem? (hash : Hasher) (v : Json) : Option Problem :=
  match v.member? "hash_chain_root" with
  | some (.str stored) =>
    match (Bundle.chain hash v).root with
    | none => some .emptyChain
    | some computed => if computed.hex = stored then none else some (.rootMismatch stored computed)
  | _ => some .rootUnavailable

def shapeProblem? (v : Json) : Option Problem :=
  match Bundle.Draft.codec.ofJson v with
  | .ok _ => none
  | .error fault => some (.shape fault)

/-- The name of a bundle, if it can be read. -/
def bundleId? (v : Json) : Option String :=
  match v.member? "bundle_id" with
  | some (.str s) => some s
  | _ => none

def ofObject (hash : Hasher) (v : Json) : Verification :=
  let structureProblems := structureProblems v
  let hashProblem := hashProblem? hash v
  let shapeProblem := shapeProblem? v
  { isValid := hashProblem.isNone && structureProblems.isEmpty && shapeProblem.isNone
    bundleId := bundleId? v
    hashValid := hashProblem.isNone
    structureValid := structureProblems.isEmpty
    integrityValid := shapeProblem.isNone
    errors := (structureProblems ++ hashProblem.toList ++ shapeProblem.toList).map
      Problem.message }

def ofText (hash : Hasher) (text : List Char) : Verification :=
  match Json.parse? text with
  | none => failed Problem.unreadable.message
  | some v =>
    match v with
    | .obj _ => ofObject hash v
    | _ => failed Problem.notAnObject.message

def ofBytes (hash : Hasher) (bytes : ByteArray) : Verification := ofText hash (Text.decode bytes)

def fields : Fields [Bool, Option String, Bool, Bool, Bool, List String] :=
  .cons (.required "is_valid" .flag)
    (.cons (.nullable "bundle_id" .text)
      (.cons (.required "hash_valid" .flag)
        (.cons (.required "structure_valid" .flag)
          (.cons (.required "integrity_valid" .flag)
            (.cons (.required "errors" (.list .text)) .nil)))))

/-- How a verification is written; members that it does not have are passed over. -/
def codec : Codec Verification :=
  (Codec.record "VerificationResult" false fields).iso
    (fun (isValid, bundleId, hashValid, structureValid, integrityValid, errors, ()) =>
      ⟨isValid, bundleId, hashValid, structureValid, integrityValid, errors⟩)
    (fun v => (v.isValid, v.bundleId, v.hashValid, v.structureValid, v.integrityValid, v.errors,
      ()))

end Verification

end Custody
