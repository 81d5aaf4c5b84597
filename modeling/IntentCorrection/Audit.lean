import IntentCorrection.Intent.Codec

namespace IntentCorrection

inductive Severity where
  | debug | info | warning | error
  deriving DecidableEq, Repr

namespace Severity

def name : Severity → String
  | .debug => "debug"
  | .info => "info"
  | .warning => "warning"
  | .error => "error"

def rank : Severity → Nat
  | .debug => 0
  | .info => 1
  | .warning => 2
  | .error => 3

instance : LT Severity := ⟨fun a b ↦ a.rank < b.rank⟩

instance (a b : Severity) : Decidable (a < b) := inferInstanceAs (Decidable (a.rank < b.rank))

end Severity

inductive AuditKind where
  | reevaluated | statusChanged
  deriving DecidableEq, Repr

def AuditKind.name : AuditKind → String
  | .reevaluated => "reevaluated"
  | .statusChanged => "status_changed"

structure AuditEvent where
  kind : AuditKind
  severity : Severity
  intentKey : String
  correlationId : Option Uuid
  details : Entries String Json
  recordedAt : Timestamp

namespace AuditEvent

def stage : String := "feedback"

def of (kind : AuditKind) (severity : Severity) (intentKey : String) (correlationId : Option Uuid)
    (recordedAt : Timestamp) : AuditEvent :=
  ⟨kind, severity, intentKey, correlationId, [], recordedAt⟩

def withDetail (e : AuditEvent) (name : String) (j : Json) : AuditEvent :=
  { e with details := e.details.insert name j }

def withDetails (e : AuditEvent) (details : List (String × Json)) : AuditEvent :=
  details.foldl (fun e d ↦ e.withDetail d.1 d.2) e

def detail? (e : AuditEvent) (name : String) : Option Json := e.details.get? name

def toJson (e : AuditEvent) : Json :=
  .object
    [("stage", .string stage), ("operation", .string e.kind.name), ("details", .object e.details),
      ("intent_key", .string e.intentKey),
      ("correlation_id", (e.correlationId.map Uuid.toJson).getD .null),
      ("event_kind", .string e.kind.name), ("severity", .string e.severity.name),
      ("recorded_at", e.recordedAt.toJson)]

end AuditEvent

/-- The sink did not take an event. -/
inductive AuditError where
  | unavailable
  deriving DecidableEq, Repr

end IntentCorrection
