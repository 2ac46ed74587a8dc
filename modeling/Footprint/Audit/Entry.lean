import Footprint.Audit.Event
import Footprint.Forms

/-!
# Audit entries

The JSON entry of an audit event, with its keys in alphabetical order, and the audit file, which
holds one entry a line. The escapes of JSON keep line feeds out of an entry, whatever its texts are.
-/

namespace Footprint.Audit

open Json

/-- The ids of a call as members of an object. -/
def Correlation.members (c : Correlation) : List (String × Value) :=
  [("request_id", .text c.requestId), ("run_id", .text c.runId),
   ("tracee_pid", (Codec.optional .signed32).write c.pid)]

namespace Event

/-- The members that an entry has only if the event has something for them. -/
def optionalMember {α : Type} (name : String) (codec : Codec α) : Option α → List (String × Value)
  | some a => [(name, codec.write a)]
  | none => []

/-- What an entry says about the event, up to its type. -/
def leadingMembers (e : Event) : List (String × Value) :=
  optionalMember "accessed_blocks" (.list .address) e.blocks
    ++ [("correlation", .record e.correlation.members), ("details", .text e.details)]
    ++ optionalMember "error_kind" .string e.errorKind
    ++ [("event_type", .text e.eventType.name)]

/-- What an entry says about the event alone. -/
def members (e : Event) : List (String × Value) :=
  e.leadingMembers ++ [("severity", .text e.severity.name)]

/-- What an entry says about the event and its moment. -/
def timedMembers (e : Event) (moment : Moment) : List (String × Value) :=
  e.members ++ [("timestamp", .word moment.millis)]

/-- The whole entry of an event that a process recorded. -/
def entry (e : Event) (moment : Moment) (processId : UInt32) : Value :=
  .record (e.leadingMembers
    ++ [("process_id", .int processId.toNat), ("severity", .text e.severity.name),
        ("timestamp", .word moment.millis)])

end Event

/-- One recorded event: what happened, when and in which process. -/
structure Record where
  event : Event
  moment : Moment
  processId : UInt32
deriving DecidableEq, Repr, Inhabited

namespace Record

def line (r : Record) : String :=
  (r.event.entry r.moment r.processId).render ++ "\n"

end Record

/-- The text that records append to the audit file. -/
def fileText (records : List Record) : String :=
  String.join (records.map Record.line)

end Footprint.Audit
