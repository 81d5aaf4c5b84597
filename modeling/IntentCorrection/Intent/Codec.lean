import IntentCorrection.Intent.Record
import IntentCorrection.Json.Fields

namespace IntentCorrection

def Status.toJson (s : Status) : Json := .string s.name

def Status.ofJson? (j : Json) : Option Status := j.name?.bind Status.ofName?

def Actor.toJson (a : Actor) : Json := .string a.name

def Actor.ofJson? (j : Json) : Option Actor := j.name?.bind Actor.ofName?

def Uuid.toJson (u : Uuid) : Json := .string (String.ofList u.text)

def Uuid.ofJson? (j : Json) : Option Uuid := j.string?.bind fun s ↦ Uuid.parse? s.toList

def Timestamp.toJson (t : Timestamp) : Json := .string (String.ofList t.text)

def Timestamp.ofJson? (j : Json) : Option Timestamp := j.string?.bind fun s ↦ Timestamp.parse? s.toList

def Diff.toJson (d : Diff) : Json := Json.ofMap d.entries

/-- Any object; what is in it is not checked. -/
def Diff.ofJson? (j : Json) : Option Diff := j.map?.map Diff.mk

namespace CorrectionRecord

def fieldNames : List String := ["correction_id", "source", "reason", "diff", "applied_at", "metadata"]

def toJson (r : CorrectionRecord) : Json :=
  .object <|
    [("correction_id", r.id.toJson), ("source", r.source.toJson), ("reason", .string r.reason),
      ("diff", r.diff.toJson), ("applied_at", r.appliedAt.toJson)] ++
    (r.metadata.map fun m ↦ ("metadata", Json.ofMap m)).toList

def ofJson? (j : Json) : Option CorrectionRecord := do
  match ← j.record? .skip fieldNames with
  | [id, source, reason, diff, appliedAt, metadata] =>
    return {
      id := ← id.bind Uuid.ofJson?
      source := ← source.bind Actor.ofJson?
      reason := ← reason.bind Json.string?
      diff := ← diff.bind Diff.ofJson?
      appliedAt := ← appliedAt.bind Timestamp.ofJson?
      metadata := ← (metadata.getD .null).optionalMap? }
  | _ => none

end CorrectionRecord

namespace Intent

def fieldNames : List String :=
  ["key", "kind", "correlation_id", "status", "version", "payload", "correction_history", "created_at",
    "updated_at"]

def toJson (i : Intent) : Json :=
  .object
    [("key", .string i.key), ("kind", .string i.kind), ("correlation_id", i.correlationId.toJson),
      ("status", i.status.toJson), ("version", .ofNat i.version), ("payload", Json.ofMap i.payload),
      ("correction_history", .array (i.history.map CorrectionRecord.toJson)),
      ("created_at", i.createdAt.toJson), ("updated_at", i.updatedAt.toJson)]

def ofJson? (j : Json) : Option Intent := do
  match ← j.record? .skip fieldNames with
  | [key, kind, correlationId, status, version, payload, history, createdAt, updatedAt] =>
    return {
      key := ← key.bind Json.string?
      kind := ← kind.bind Json.string?
      correlationId := ← correlationId.bind Uuid.ofJson?
      status := ← status.bind Status.ofJson?
      version := ← version.bind (Json.below? Word.size64)
      payload := ← payload.bind Json.map?
      history := ← (history.getD (.array [])).listOf? CorrectionRecord.ofJson?
      createdAt := ← createdAt.bind Timestamp.ofJson?
      updatedAt := ← updatedAt.bind Timestamp.ofJson? }
  | _ => none

end Intent

end IntentCorrection
