import Custody.Chain
import Custody.Snapshot.Execution

/-!
# Bundles

A bundle is all the evidence of one guarded call, sealed when the call is over: the circumstances,
the executions, what came of them, and the root of a hash chain over all of that.  The chain is
taken of the value of a bundle rather than of its parts, so that it can be computed again for a
value of which nothing is known.
-/

namespace Custody

/-- All that a bundle holds but its root. -/
@[ext] structure Parts where
  id : String
  createdAt : Int64
  context : Snapshot.Context
  intent : Snapshot.Intent
  principal : Snapshot.Principal
  grant : Option Snapshot.Grant
  /-- The executions in their order. -/
  executions : List Snapshot.Execution
  authorityVersion : String
  /-- The refusal, if that is what came of the call. -/
  failure : Option Refusal
  /-- The results, if the call succeeded. -/
  results : Option Results

namespace Parts

/-- What is wrong with the outcome of a bundle, which is a refusal or results but not both. -/
def outcomeError? : Option Refusal → Option Results → Option EvidenceError
  | some _, some _ => some .bothOutcomes
  | none, none => some .neitherOutcome
  | _, _ => none

/-- What is wrong with the executions: there must be one, and each must be in order. -/
def executionsError? : List Snapshot.Execution → Option EvidenceError
  | [] => some .noExecutions
  | executions => executions.findSome? Snapshot.Execution.error?

def error? (p : Parts) : Option EvidenceError :=
  (EvidenceError.ofText? "bundle_id" p.id).or <|
  (EvidenceError.ofTime? "created_at" p.createdAt).or <|
  (EvidenceError.ofText? "authority_version" p.authorityVersion).or <|
  p.context.error?.or <|
  p.intent.error?.or <|
  p.principal.error?.or <|
  (p.grant.bind Snapshot.Grant.error?).or <|
  (executionsError? p.executions).or <|
  outcomeError? p.failure p.results

def grantJson : Option Snapshot.Grant → Json
  | some s => s.toJson
  | none => .null

def resultsJson : Option Results → Json
  | some r => r.toJson
  | none => .null

/-- The members of a bundle's value but its root, in the order of their keys. -/
def members (p : Parts) : List (String × Json) :=
  [("authority_version", .str p.authorityVersion), ("bundle_id", .str p.id),
    ("context_snapshot", p.context.toJson), ("created_at", .ofInt64 p.createdAt),
    ("execution_snapshots", .arr (p.executions.map Snapshot.Execution.toJson)),
    ("failure_composition", .ofRefusal? p.failure), ("grant_snapshot", grantJson p.grant),
    ("intent_snapshot", p.intent.toJson), ("principal_snapshot", p.principal.toJson),
    ("results", resultsJson p.results)]

end Parts

/-! ## The chain of a value -/

namespace Bundle

/-- The element for a member that is left out of the chain when it is null or missing. -/
def optionalElement (v : Json) (key member : String) : List (String × Json) :=
  let value := v.memberOrNull member
  if value.isNull then [] else [(key, value)]

/-- The elements for executions, numbered from an index on. -/
def executionElements : Nat → List Json → List (String × Json)
  | _, [] => []
  | i, execution :: rest => (s!"execution_{i}", execution) :: executionElements (i + 1) rest

/-- The elements for the executions of a value, which has none unless they are an array. -/
def executionsOf (v : Json) : List (String × Json) :=
  match v.member? "execution_snapshots" with
  | some (.arr executions) => executionElements 0 executions
  | _ => []

/-- The identity of a bundle, which is the last element of its chain. -/
def identity (v : Json) : Json :=
  .obj [("bundle_id", v.memberOrNull "bundle_id"), ("created_at", v.memberOrNull "created_at")]

/-- What the chain of a value commits to, in order. -/
def elements (v : Json) : List (String × Json) :=
  [("context", v.memberOrNull "context_snapshot"), ("intent", v.memberOrNull "intent_snapshot"),
    ("principal", v.memberOrNull "principal_snapshot")] ++
  optionalElement v "grant" "grant_snapshot" ++
  executionsOf v ++
  optionalElement v "failure" "failure_composition" ++
  optionalElement v "results" "results" ++
  [("authority_version", v.memberOrNull "authority_version"), ("bundle", identity v)]

def chain (hash : Hasher) (v : Json) : Chain := .ofElements hash (elements v)

end Bundle

/-! ## Bundles -/

def Parts.chain (hash : Hasher) (p : Parts) : Chain := Bundle.chain hash (.obj p.members)

/-- A bundle: parts that break no rule, and a root. -/
structure Bundle where
  parts : Parts
  root : Digest
  valid : parts.error? = none

namespace Bundle

@[ext] theorem ext {a b : Bundle} (parts : a.parts = b.parts) (root : a.root = b.root) :
    a = b := by
  cases a; cases b; cases parts; cases root; rfl

/-- The bundle with these parts and this root, which need not be the root of its chain. -/
def make (parts : Parts) (root : Digest) : Except EvidenceError Bundle :=
  match h : parts.error? with
  | some error => .error error
  | none => .ok ⟨parts, root, h⟩

def ofParts (hash : Hasher) (parts : Parts) : Except EvidenceError Bundle :=
  match h : parts.error? with
  | some error => .error error
  | none =>
    match (parts.chain hash).root with
    | none => .error (.emptyField "hash_chain_root")
    | some root => .ok ⟨parts, root, h⟩

def id (b : Bundle) : String := b.parts.id

def isSuccess (b : Bundle) : Bool := b.parts.results.isSome

def verifyRoot (hash : Hasher) (b : Bundle) : Bool :=
  (b.parts.chain hash).root = some b.root

def toJson (b : Bundle) : Json :=
  .obj (Assoc.insert "hash_chain_root" (.str b.root.hex) b.parts.members)

/-- What has the shape of a bundle but may break its rules. -/
@[ext] structure Draft where
  parts : Parts
  root : Digest

namespace Draft

def fields : Fields [String, Int64, Snapshot.Context, Snapshot.Intent, Snapshot.Principal,
    Option Snapshot.Grant, List Snapshot.Execution, String, Digest, Option Refusal,
    Option Results] :=
  .cons (.required "bundle_id" .text)
    (.cons (.required "created_at" .int64)
      (.cons (.required "context_snapshot" Snapshot.Context.codec)
        (.cons (.required "intent_snapshot" Snapshot.Intent.codec)
          (.cons (.required "principal_snapshot" Snapshot.Principal.codec)
            (.cons (.nullable "grant_snapshot" Snapshot.Grant.codec)
              (.cons (.required "execution_snapshots" (.list Snapshot.Execution.codec))
                (.cons (.required "authority_version" .text)
                  (.cons (.required "hash_chain_root" Digest.codec)
                    (.cons (.nullable "failure_composition" Refusal.codec)
                      (.cons (.nullable "results" Results.codec) .nil))))))))))

def codec : Codec Draft :=
  (Codec.record "BundleRecord" true fields).iso
    (fun (id, createdAt, context, intent, principal, grant, executions, authorityVersion, root,
        failure, results, ()) =>
      ⟨⟨id, createdAt, context, intent, principal, grant, executions, authorityVersion, failure,
        results⟩, root⟩)
    (fun ⟨p, root⟩ => (p.id, p.createdAt, p.context, p.intent, p.principal, p.grant, p.executions,
      p.authorityVersion, root, p.failure, p.results, ()))

end Draft

/-- How a bundle is written: as its value, with members in the order of their keys.  It is read from
members in any order. -/
def codec : Codec Bundle where
  read :=
    (Draft.codec.refine (fun d => (make d.parts d.root).mapError EvidenceError.message)
      (fun b => ⟨b.parts, b.root⟩)).read
  write b := .ofJson b.toJson

/-- The text in which a bundle is exported. -/
def exported (b : Bundle) : String := b.toJson.canonical

end Bundle

end Custody
