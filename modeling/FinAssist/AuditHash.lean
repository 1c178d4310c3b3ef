/-
**What is recorded of an event, and the hash that chains the records.**

`finassist.infrastructure.postgres.event_mapping` turns a domain event into the type and the
payload that the outbox and the audit log store; `audit_hash` computes the hash of an audit row
from the hash of the row before it and the fields of this one, written as canonical JSON.

Main definitions:

* `FinAssist.Payload`, `FinAssist.eventToRecord`;
* `FinAssist.canonicalJson` — sorted keys, no blanks, ASCII only;
* `FinAssist.computeAuditHash` — **the hash of an audit row**.
-/

import FinAssist.Application
import FinAssist.Sha256

set_option relaxedAutoImplicit false
set_option autoImplicit false

namespace FinAssist

/-! ### Payloads -/

/-- A value of an event's payload. -/
inductive PayloadValue
  | text (s : String)
  | integer (n : ℤ)
  deriving DecidableEq

/-- The `payload` column: a JSON object. -/
abbrev Payload := List (String × PayloadValue)

/-- `AGGREGATE_TYPE_APPLICATION`. -/
def aggregateTypeApplication : String := "Application"

/-- The type of an event, as the outbox and the audit log name it. -/
def DomainEvent.eventType : DomainEvent → String
  | .applicationCreated .. => "ApplicationCreated"
  | .applicationStateChanged .. => "ApplicationStateChanged"
  | .documentUploaded .. => "DocumentUploaded"

/-- What the outbox and the audit log store of an event. -/
def DomainEvent.payload : DomainEvent → Payload
  | .applicationCreated _ _ _ productId => [("product_id", .text productId)]
  | .applicationStateChanged _ _ _ previousStatus newStatus reason version =>
      [("previous_status", .text previousStatus.value), ("new_status", .text newStatus.value),
       ("reason", .text reason), ("version", .integer version)]
  | .documentUploaded _ _ _ documentId documentType objectKey =>
      [("document_id", .text documentId), ("document_type", .text documentType),
       ("object_key", .text objectKey)]

/-- `event_to_record`: the event's type, the aggregate's type and the payload. -/
def eventToRecord (event : DomainEvent) : String × String × Payload :=
  (event.eventType, aggregateTypeApplication, event.payload)

/-! ### Canonical JSON -/

def hexDigits4 (n : ℕ) : List Char := Sha256.hexDigits 4 n

/-- A character inside a JSON string, as `json.dumps` escapes it (`ensure_ascii` is on). -/
def escapeChar (c : Char) : List Char :=
  if c = '"' then ['\\', '"']
  else if c = '\\' then ['\\', '\\']
  else if c = '\n' then ['\\', 'n']
  else if c = '\r' then ['\\', 'r']
  else if c = '\t' then ['\\', 't']
  else if c.toNat = 8 then ['\\', 'b']
  else if c.toNat = 12 then ['\\', 'f']
  else if 32 ≤ c.toNat ∧ c.toNat < 127 then [c]
  else if c.toNat < 65536 then ['\\', 'u'] ++ hexDigits4 c.toNat
  else
    -- a surrogate pair
    ['\\', 'u'] ++ hexDigits4 (55296 + (c.toNat - 65536) / 1024) ++
    ['\\', 'u'] ++ hexDigits4 (56320 + (c.toNat - 65536) % 1024)

def quoteJson (s : String) : String :=
  String.ofList ('"' :: s.toList.flatMap escapeChar ++ ['"'])

/-- Python's `<` on strings, on their code points. -/
def keyLt : List Char → List Char → Bool
  | _, [] => false
  | [], _ :: _ => true
  | c :: s, d :: t => c.toNat < d.toNat || (c = d && keyLt s t)

def insertKey (field : String × String) : List (String × String) → List (String × String)
  | [] => [field]
  | other :: fields =>
      if keyLt field.1.toList other.1.toList then field :: other :: fields
      else other :: insertKey field fields

/-- An object whose values are written already: `sort_keys=True, separators=(",", ":")`. -/
def dumpObject (fields : List (String × String)) : String :=
  let sorted := fields.foldr insertKey []
  "\x7b" ++ ",".intercalate (sorted.map fun f => quoteJson f.1 ++ ":" ++ f.2) ++ "\x7d"

def PayloadValue.dump : PayloadValue → String
  | .text s => quoteJson s
  | .integer n => toString n

def Payload.dump (payload : Payload) : String :=
  dumpObject (payload.map fun f => (f.1, f.2.dump))

/-- `_canonical_json` of what an audit row is hashed from. -/
def canonicalJson (prevHash eventId eventType aggregateId : String) (occurredAt : DateTime)
    (payload : Payload) : String :=
  dumpObject
    [("prev_hash", quoteJson prevHash),
     ("event_id", quoteJson eventId),
     ("event_type", quoteJson eventType),
     ("aggregate_id", quoteJson aggregateId),
     ("occurred_at", quoteJson occurredAt.isoformat),
     ("payload", payload.dump)]

/-! ### Hashes -/

/-- `GENESIS_HASH`. -/
def genesisHash : String := String.ofList (List.replicate 64 '0')

/-- **`compute_audit_hash`.** -/
def computeAuditHash (prevHash eventId eventType aggregateId : String) (occurredAt : DateTime)
    (payload : Payload) : String :=
  Sha256.hexdigest (canonicalJson prevHash eventId eventType aggregateId occurredAt payload)

end FinAssist
