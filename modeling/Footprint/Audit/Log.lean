import Footprint.Audit.Entry
import Footprint.Files

/-!
# Audit logs

Where a service records its audit events. Every event goes to the process's log at the level of its
severity; a log with a file also appends the entry to that file.
-/

namespace Footprint.Audit

/-- An audit log and what it recorded so far. -/
structure Log where
  -- The audit file, if there is one.
  path : Option String
  events : Array Event
deriving Inhabited

namespace Log

/-- A log without a file. -/
def withoutFile : Log := ⟨none, #[]⟩

/-- A log that also appends to a file, whose directory is created if it is missing. -/
def withFile (files : Files) (path : String) : Except ConfigCause (Log × Files) := do
  let directory := Files.directoryOf path
  let files ←
    if directory = "" then pure files
    else (files.createPath directory).mapError ConfigCause.auditDirectory
  let files ← (files.openAppending path).mapError ConfigCause.auditFile
  return (⟨some path, #[]⟩, files)

/-- The log that a configuration asks for. -/
def ofPath (files : Files) : Option String → Except ConfigCause (Log × Files)
  | some path => withFile files path
  | none => .ok (withoutFile, files)

def record (log : Log) (event : Event) : Log :=
  { log with events := log.events.push event }

end Log

end Footprint.Audit
