import Custody.Authority.Basic

/-!
# Scripted authorities

An authority that answers by a fixed table of replies and remembers its calls, for rehearsals: the
same calls always get the same answers.
-/

namespace Custody

/-- How a scripted authority replies to a capability. -/
inductive Reply where
  | succeed (data : Table)
  | refuse (reason : String)
  | raise (text : String)

/-- A reply for each of some capabilities. -/
structure Script where
  replies : List (String × Reply)

namespace Script

def empty : Script := ⟨[]⟩

/-- The script with a reply for a capability, in place of an earlier one. -/
def insert (script : Script) (capability : String) (reply : Reply) : Script :=
  ⟨Assoc.insert capability reply script.replies⟩

/-- The time of every scripted refusal. -/
def refusalTime : Int64 := 1700000000000

/-- The name of the snapshot behind a call's success; calls are numbered from zero. -/
def snapshotId (number : Nat) : String := s!"snap-{number}"

/-- What a capability without a reply gives: its name and the number of the call. -/
def echo (capability : String) (number : Nat) : Table :=
  (Table.empty.insert "capability" (.str capability) (.str capability)).insert "call"
    (.num (.int (.ofUInt64 (UInt64.ofNat number)))) (.num _)

def answer (script : Script) (call : Call) (number : Nat) : Answer :=
  match script.replies.lookup call.capability with
  | some (.succeed data) => .ok (.success data (snapshotId number))
  | some (.refuse reason) =>
    .ok (.refused ((Refusal.plain reason refusalTime).withText "capability" call.capability))
  | some (.raise text) => .error (.raised text)
  | none => .ok (.success (echo call.capability number) (snapshotId number))

/-- The authority that follows a script.  Its state is the list of its calls so far. -/
def authority (script : Script) : Authority (List Call) := fun call calls =>
  (script.answer call calls.length, calls ++ [call])

def invoked (capability : String) (calls : List Call) : Bool :=
  calls.any fun call => call.capability = capability

end Script

end Custody
