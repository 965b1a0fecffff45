import LogWatch.Configuration
import LogWatch.Digest.Base
import LogWatch.Digest.Sha256
import LogWatch.Event.Basic
import LogWatch.Time.Text

/-!
# Identities

Events and configurations are told apart by SHA-256 digests of their canonical texts, in
which the parts stand on lines of their own.  The identity of an event leaves out its index
and the offset of its clock; that of a configuration leaves out its source.
-/

namespace LogWatch

/-- What identifies a reported event. -/
structure Identity where
  /-- The digest of the event's canonical text, in base64. -/
  hash : String
  instant : Time.Instant
  deriving DecidableEq

/-- Lines joined by line feeds. -/
def canonicalLines (lines : List String) : String := "\n".intercalate lines

def Event.canonicalText (e : Event) : String :=
  canonicalLines [
    e.category,
    Text.ofInt e.categoryNumber.toInt,
    e.entryType.name,
    Text.ofInt e.errorLevel.toInt,
    Text.ofInt e.eventId.toInt,
    Text.ofInt e.instanceId.toInt,
    e.message,
    e.source,
    e.instant.toString]

def Event.identity (e : Event) : Identity :=
  ⟨String.ofList (Digest.base64 (Digest.Sha256.ofString e.canonicalText)), e.instant⟩

def Configuration.canonicalText (c : Configuration) : String :=
  canonicalLines [
    c.eventLog,
    c.filter,
    Text.ofInt c.maxMessages.toInt,
    c.remoteMachine,
    c.timeLimit.toString,
    if c.hasMaximum then "True" else "False"]

/-- The name under which the configuration's watermark is kept: hexadecimal digits. -/
def Configuration.identity (c : Configuration) : String :=
  String.ofList (Digest.hex (Digest.Sha256.ofString c.canonicalText))

end LogWatch
