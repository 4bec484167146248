import Custody.Digest.Codec
import Custody.Outcome
import Custody.Snapshot.Error

/-!
# The circumstances of a call

Before a call is made, four things are put on record: the context in which it is made, the
capability that is about to be called, the principal for whom, and the grant on the ground of which.
Each is written in two ways: as a value with its members in the order of their keys, which is what
hashes are taken of, and as a document with its members in their own order.  An optional member that
is absent is null in both.
-/

namespace Custody.Snapshot

/-- The context of a call, with the digest of its canonical text. -/
@[ext] structure Context where
  context : Table
  digest : Digest
  capturedAt : Int64

namespace Context

def capture (hash : Hasher) (context : Table) (capturedAt : Int64) : Context :=
  ⟨context, .ofCanonical hash context.toJson, capturedAt⟩

def toJson (s : Context) : Json :=
  .obj [("captured_at", .ofInt64 s.capturedAt), ("context", s.context.toJson),
    ("context_hash", .str s.digest.hex)]

def fields : Fields [Table, Digest, Int64] :=
  .cons (.required "context" .table)
    (.cons (.required "context_hash" Digest.codec)
      (.cons (.required "captured_at" .int64) .nil))

def codec : Codec Context :=
  (Codec.record "ContextSnapshot" true fields).iso
    (fun (context, digest, capturedAt, ()) => ⟨context, digest, capturedAt⟩)
    (fun s => (s.context, s.digest, s.capturedAt, ()))

def error? (s : Context) : Option EvidenceError :=
  EvidenceError.ofTime? "context_snapshot.captured_at" s.capturedAt

end Context

/-- The capability that a caller says it is going to call. -/
@[ext] structure Intent where
  capability : String
  stepId : Option String
  declaredAt : Int64
  deriving DecidableEq

namespace Intent

def toJson (s : Intent) : Json :=
  .obj [("capability_name", .str s.capability), ("declared_at", .ofInt64 s.declaredAt),
    ("step_id", .ofText? s.stepId)]

def fields : Fields [String, Option String, Int64] :=
  .cons (.required "capability_name" .text)
    (.cons (.nullable "step_id" .text)
      (.cons (.required "declared_at" .int64) .nil))

def codec : Codec Intent :=
  (Codec.record "IntentSnapshot" true fields).iso
    (fun (capability, stepId, declaredAt, ()) => ⟨capability, stepId, declaredAt⟩)
    (fun s => (s.capability, s.stepId, s.declaredAt, ()))

def error? (s : Intent) : Option EvidenceError :=
  (EvidenceError.ofText? "intent_snapshot.capability_name" s.capability).or
    (EvidenceError.ofTime? "intent_snapshot.declared_at" s.declaredAt)

end Intent

/-- The one for whom a call is made. -/
@[ext] structure Principal where
  id : String
  capturedAt : Int64
  deriving DecidableEq

namespace Principal

def anonymous : String := "anonymous"

/-- The principal that a context names under a key: a text as it is, unless it is blank, and any
other value but null as it is written. -/
def idOfContext (context : Table) (key : String) : String :=
  match context.get? key with
  | none => anonymous
  | some .null => anonymous
  | some (.str s) => if Text.isBlank s then anonymous else s
  | some value => value.compact

def capture (context : Table) (key : String) (capturedAt : Int64) : Principal :=
  ⟨idOfContext context key, capturedAt⟩

def toJson (s : Principal) : Json :=
  .obj [("captured_at", .ofInt64 s.capturedAt), ("principal_id", .str s.id)]

def fields : Fields [String, Int64] :=
  .cons (.required "principal_id" .text) (.cons (.required "captured_at" .int64) .nil)

def codec : Codec Principal :=
  (Codec.record "PrincipalSnapshot" true fields).iso
    (fun (id, capturedAt, ()) => ⟨id, capturedAt⟩)
    (fun s => (s.id, s.capturedAt, ()))

def error? (s : Principal) : Option EvidenceError :=
  (EvidenceError.ofText? "principal_snapshot.principal_id" s.id).or
    (EvidenceError.ofTime? "principal_snapshot.captured_at" s.capturedAt)

end Principal

/-- The grant on the ground of which a call is made. -/
@[ext] structure Grant where
  id : String
  data : Table
  capturedAt : Int64

namespace Grant

def unidentified : String := "unidentified"

/-- The identifier that a value gives: a text that is not blank, or a number as it is written. -/
def idOfValue? : Json → Option String
  | .str s => if Text.isBlank s then none else some s
  | .num n => some (String.ofList n.text)
  | _ => none

/-- The identifier of a grant: what the grant itself says under a key, else what the context says.
-/
def idOf (data context : Table) (key : String) : String :=
  (((data.get? key).bind idOfValue?).or ((context.get? key).bind idOfValue?)).getD unidentified

def capture (data context : Table) (key : String) (capturedAt : Int64) : Grant :=
  ⟨idOf data context key, data, capturedAt⟩

def toJson (s : Grant) : Json :=
  .obj [("captured_at", .ofInt64 s.capturedAt), ("grant_data", s.data.toJson),
    ("grant_id", .str s.id)]

def fields : Fields [String, Table, Int64] :=
  .cons (.required "grant_id" .text)
    (.cons (.required "grant_data" .table)
      (.cons (.required "captured_at" .int64) .nil))

def codec : Codec Grant :=
  (Codec.record "GrantSnapshot" true fields).iso
    (fun (id, data, capturedAt, ()) => ⟨id, data, capturedAt⟩)
    (fun s => (s.id, s.data, s.capturedAt, ()))

def error? (s : Grant) : Option EvidenceError :=
  (EvidenceError.ofText? "grant_snapshot.grant_id" s.id).or
    (EvidenceError.ofTime? "grant_snapshot.captured_at" s.capturedAt)

end Grant

end Custody.Snapshot
