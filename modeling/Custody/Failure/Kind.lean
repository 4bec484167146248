import Custody.Codec.Choice
import Custody.Outcome

/-!
# Kinds of failure

What can go wrong is classified by a closed list of kinds, each about one subject.  The reasons that
authorities give are open; a fixed table takes each to a kind, and any reason that is not in it to a
refusal without further classification.
-/

namespace Custody.Failure

/-- What a kind of failure is about. -/
inductive Subject where
  | context
  | intent
  | confidence
  | principal
  | grant
  | capability
  | authority
  | friction
  | snapshot
  | composition
  | execution
  deriving DecidableEq, Repr

namespace Subject

def name : Subject → String
  | .context => "CONTEXT"
  | .intent => "INTENT"
  | .confidence => "CONFIDENCE"
  | .principal => "PRINCIPAL"
  | .grant => "GRANT"
  | .capability => "CAPABILITY"
  | .authority => "AUTHORITY"
  | .friction => "FRICTION"
  | .snapshot => "SNAPSHOT"
  | .composition => "COMPOSITION"
  | .execution => "EXECUTION"

def all : List Subject :=
  [.context, .intent, .confidence, .principal, .grant, .capability, .authority, .friction,
    .snapshot, .composition, .execution]

def codec : Codec Subject := .choice name all

end Subject

/-- A kind of failure. -/
inductive Kind where
  | missingContext
  | invalidContext
  | missingIntent
  | ambiguousIntent
  | missingConfidence
  | invalidConfidence
  | insufficientConfidence
  | missingPrincipal
  | unknownPrincipal
  | invalidPrincipal
  | missingGrant
  | expiredGrant
  | revokedGrant
  | exhaustedGrant
  | invalidGrantScope
  | unknownCapability
  | capabilityNotPermitted
  /-- An authority refused for a reason that is not in the table. -/
  | guardRefusal
  | authorityUnavailable
  | frictionRequired
  | frictionNotSatisfied
  | snapshotHashMismatch
  | snapshotReuseAttempt
  | snapshotExpired
  | toctouViolation
  | compositionStepFailure
  | compositionHalted
  | invalidComposition
  /-- A call raised an error instead of returning an outcome. -/
  | executionError
  | executionTimeout
  deriving DecidableEq, Repr

namespace Kind

def name : Kind → String
  | .missingContext => "MISSING_CONTEXT"
  | .invalidContext => "INVALID_CONTEXT"
  | .missingIntent => "MISSING_INTENT"
  | .ambiguousIntent => "AMBIGUOUS_INTENT"
  | .missingConfidence => "MISSING_CONFIDENCE"
  | .invalidConfidence => "INVALID_CONFIDENCE"
  | .insufficientConfidence => "INSUFFICIENT_CONFIDENCE"
  | .missingPrincipal => "MISSING_PRINCIPAL"
  | .unknownPrincipal => "UNKNOWN_PRINCIPAL"
  | .invalidPrincipal => "INVALID_PRINCIPAL"
  | .missingGrant => "MISSING_GRANT"
  | .expiredGrant => "EXPIRED_GRANT"
  | .revokedGrant => "REVOKED_GRANT"
  | .exhaustedGrant => "EXHAUSTED_GRANT"
  | .invalidGrantScope => "INVALID_GRANT_SCOPE"
  | .unknownCapability => "UNKNOWN_CAPABILITY"
  | .capabilityNotPermitted => "CAPABILITY_NOT_PERMITTED"
  | .guardRefusal => "GUARD_REFUSAL"
  | .authorityUnavailable => "AUTHORITY_UNAVAILABLE"
  | .frictionRequired => "FRICTION_REQUIRED"
  | .frictionNotSatisfied => "FRICTION_NOT_SATISFIED"
  | .snapshotHashMismatch => "SNAPSHOT_HASH_MISMATCH"
  | .snapshotReuseAttempt => "SNAPSHOT_REUSE_ATTEMPT"
  | .snapshotExpired => "SNAPSHOT_EXPIRED"
  | .toctouViolation => "TOCTOU_VIOLATION"
  | .compositionStepFailure => "COMPOSITION_STEP_FAILURE"
  | .compositionHalted => "COMPOSITION_HALTED"
  | .invalidComposition => "INVALID_COMPOSITION"
  | .executionError => "EXECUTION_ERROR"
  | .executionTimeout => "EXECUTION_TIMEOUT"

def all : List Kind :=
  [.missingContext, .invalidContext, .missingIntent, .ambiguousIntent, .missingConfidence,
    .invalidConfidence, .insufficientConfidence, .missingPrincipal, .unknownPrincipal,
    .invalidPrincipal, .missingGrant, .expiredGrant, .revokedGrant, .exhaustedGrant,
    .invalidGrantScope, .unknownCapability, .capabilityNotPermitted, .guardRefusal,
    .authorityUnavailable, .frictionRequired, .frictionNotSatisfied, .snapshotHashMismatch,
    .snapshotReuseAttempt, .snapshotExpired, .toctouViolation, .compositionStepFailure,
    .compositionHalted, .invalidComposition, .executionError, .executionTimeout]

def subject : Kind → Subject
  | .missingContext | .invalidContext => .context
  | .missingIntent | .ambiguousIntent => .intent
  | .missingConfidence | .invalidConfidence | .insufficientConfidence => .confidence
  | .missingPrincipal | .unknownPrincipal | .invalidPrincipal => .principal
  | .missingGrant | .expiredGrant | .revokedGrant | .exhaustedGrant | .invalidGrantScope => .grant
  | .unknownCapability | .capabilityNotPermitted => .capability
  | .guardRefusal | .authorityUnavailable => .authority
  | .frictionRequired | .frictionNotSatisfied => .friction
  | .snapshotHashMismatch | .snapshotReuseAttempt | .snapshotExpired | .toctouViolation => .snapshot
  | .compositionStepFailure | .compositionHalted | .invalidComposition => .composition
  | .executionError | .executionTimeout => .execution

def reasons : List (String × Kind) :=
  [(Reason.missingConfidence, .missingConfidence),
    (Reason.invalidConfidence, .invalidConfidence),
    (Reason.missingPrincipal, .missingPrincipal),
    (Reason.unknownPrincipal, .unknownPrincipal),
    (Reason.noGrant, .missingGrant),
    (Reason.expiredGrant, .expiredGrant),
    (Reason.revokedGrant, .revokedGrant),
    (Reason.exhaustedGrant, .exhaustedGrant),
    (Reason.unknownCapability, .unknownCapability),
    (Reason.invalidGrantScope, .invalidGrantScope),
    (Reason.snapshotHashMismatch, .snapshotHashMismatch),
    (Reason.snapshotReuseAttempt, .snapshotReuseAttempt),
    (Reason.toctouViolation, .toctouViolation),
    (Reason.compositionStepFailure, .compositionStepFailure)]

def ofReason (reason : String) : Kind := (reasons.lookup reason).getD .guardRefusal

def ofName? (s : String) : Option Kind := all.find? fun kind => kind.name = s

def codec : Codec Kind := .choice name all

end Kind

/-- The stage at which a failure was met. -/
inductive Phase where
  | contextCapture
  | intentDeclaration
  | authorization
  | composition
  | execution
  | evidence
  deriving DecidableEq, Repr

namespace Phase

def name : Phase → String
  | .contextCapture => "CONTEXT_CAPTURE"
  | .intentDeclaration => "INTENT_DECLARATION"
  | .authorization => "AUTHORIZATION"
  | .composition => "COMPOSITION"
  | .execution => "EXECUTION"
  | .evidence => "EVIDENCE"

def all : List Phase :=
  [.contextCapture, .intentDeclaration, .authorization, .composition, .execution, .evidence]

def codec : Codec Phase := .choice name all

end Phase

end Custody.Failure
