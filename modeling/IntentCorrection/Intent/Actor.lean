import IntentCorrection.Text.Blank

namespace IntentCorrection

inductive Actor where
  | yuno | kana | tsumu
  deriving DecidableEq, Repr

namespace Actor

def all : List Actor := [.yuno, .kana, .tsumu]

def name : Actor → String
  | .yuno => "yuno"
  | .kana => "kana"
  | .tsumu => "tsumu"

def ofName? (name : String) : Option Actor := all.find? (·.name = name)

def parse? (text : String) : Option Actor :=
  ofName? (String.ofList (Text.lowerAscii (Text.trim text.toList)))

theorem ofName?_name (a : Actor) : ofName? a.name = some a := by cases a <;> decide

end Actor

end IntentCorrection
