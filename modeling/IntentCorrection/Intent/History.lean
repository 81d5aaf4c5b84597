import IntentCorrection.Intent.Record
import IntentCorrection.Json.Basic
import IntentCorrection.Text.Blank

namespace IntentCorrection.History

def textDenotes (id : Uuid) (text : String) : Bool :=
  let cs := Text.trim text.toList
  match Uuid.parse? cs with
  | some u => u = id
  | none => Text.lowerAscii cs = id.text

def idText? (entry : Json) : Option String :=
  (entry.field? "correction_id").bind Json.string?

def entryCarries (id : Uuid) (entry : Json) : Bool := (idText? entry).any (textDenotes id)

def documentsCarry (history : List Json) (id : Uuid) : Bool := history.any (entryCarries id)

def contains (history : List CorrectionRecord) (id : Uuid) : Bool := history.any (·.id = id)

def find? (history : List CorrectionRecord) (id : Uuid) : Option CorrectionRecord :=
  List.find? (·.id = id) history

theorem contains_eq_isSome_find? (history : List CorrectionRecord) (id : Uuid) :
    contains history id = (find? history id).isSome := by
  rw [Bool.eq_iff_iff]
  simp [contains, find?]

end IntentCorrection.History
