import IntentCorrection.Entries
import IntentCorrection.Intent.Actor
import IntentCorrection.Intent.Status
import IntentCorrection.Number.Word
import IntentCorrection.Text.Numeral

namespace IntentCorrection.CommandLine

inductive OutputFormat where
  | text | json
  deriving DecidableEq, Repr

structure ApplyOptions where
  store : String
  intent : String
  diff : String
  source : Actor
  reason : String
  metadata : Option String
  deadlineMs : Option Nat
  deriving DecidableEq, Repr

inductive Command where
  | apply (o : ApplyOptions)
  | status (store intent : String) (requested : Status)
  | create (store intent kind : String) (payload : Option String)
  | inspect (store intent : String)
  | list (store : String) (status : Option Status)
  | correctionId (intent diff : String)
  | validateDiff (diff : String)
  | transitions (source : Option Status)
  deriving DecidableEq, Repr

structure General where
  output : Option OutputFormat
  quiet : Bool
  config : Option String
  deriving DecidableEq, Repr

structure Call where
  output : OutputFormat
  quiet : Bool
  config : Option String
  command : Command
  deriving DecidableEq, Repr

abbrev Options := Entries String String

def generalValues : List String := ["output", "config", "log-format"]

def flags : List String := ["quiet"]

def isOption (word : List Char) : Bool := word.head? = some '-' && word ≠ ['-']

def splitEquals (word : List Char) : String × Option String :=
  let name := String.ofList (word.takeWhile (· ≠ '='))
  match word.dropWhile (· ≠ '=') with
  | [] => (name, none)
  | _ :: value => (name, some (String.ofList value))

def addOption (name value : String) (os : Options) : Option Options :=
  if os.contains name then none else some (os.insert name value)

/-- Takes options off the front, up to a word that is neither an option nor the value of one. Nothing may come
after two dashes. -/
def readOptions (values : List String) : List String → Options → Option (Options × List String)
  | [], os => some (os, [])
  | word :: rest, os =>
    if isOption word.toList then
      match word.toList with
      | ['-', '-'] => if rest.isEmpty then some (os, []) else none
      | '-' :: '-' :: letters =>
        match splitEquals letters, rest with
        | (name, some value), rest =>
          if values.contains name then (addOption name value os).bind (readOptions values rest)
          else none
        | (name, none), rest =>
          if flags.contains name then (addOption name "" os).bind (readOptions values rest)
          else if values.contains name then
            match rest with
            | value :: rest =>
              if isOption value.toList then none
              else (addOption name value os).bind (readOptions values rest)
            | [] => none
          else none
      | _ => none
    else some (os, word :: rest)

def path? (value : String) : Option String := if value.isEmpty then none else some value

def outputFormat? : String → Option OutputFormat
  | "text" => some .text
  | "json" => some .json
  | _ => none

/-- The format of diagnostics. There are none, so it is only checked. -/
def logFormat? (value : String) : Option String :=
  if value = "pretty" ∨ value = "json" then some value else none

def milliseconds? (value : String) : Option Nat := Text.natural? Word.size64 value.toList

def required {α : Type} (read : String → Option α) (os : Options) (name : String) : Option α :=
  (os.get? name).bind read

def optional {α : Type} (read : String → Option α) (os : Options) (name : String) :
    Option (Option α) :=
  match os.get? name with
  | none => some none
  | some value => (read value).map some

def general? (os : Options) : Option General := do
  let _ ← optional logFormat? os "log-format"
  return {
    output := ← optional outputFormat? os "output"
    quiet := os.contains "quiet"
    config := ← optional path? os "config" }

def command? : String → Option (List String × (Options → Option Command))
  | "apply" => some (["store", "intent", "diff", "source", "reason", "metadata", "deadline-ms"],
      fun os ↦ do
        return .apply {
          store := ← required path? os "store"
          intent := ← required some os "intent"
          diff := ← required some os "diff"
          source := ← required Actor.parse? os "source"
          reason := ← required some os "reason"
          metadata := ← optional some os "metadata"
          deadlineMs := ← optional milliseconds? os "deadline-ms" })
  | "status" => some (["store", "intent", "to"], fun os ↦ do
      return .status (← required path? os "store") (← required some os "intent")
        (← required Status.parse? os "to"))
  | "create" => some (["store", "intent", "kind", "payload"], fun os ↦ do
      return .create (← required path? os "store") (← required some os "intent")
        (← required some os "kind") (← optional some os "payload"))
  | "show" => some (["store", "intent"], fun os ↦ do
      return .inspect (← required path? os "store") (← required some os "intent"))
  | "list" => some (["store", "status"], fun os ↦ do
      return .list (← required path? os "store") (← optional Status.parse? os "status"))
  | "correction-id" => some (["intent", "diff"], fun os ↦ do
      return .correctionId (← required some os "intent") (← required some os "diff"))
  | "validate-diff" => some (["diff"], fun os ↦ do
      return .validateDiff (← required some os "diff"))
  | "transitions" => some (["from"], fun os ↦ do
      return .transitions (← optional Status.parse? os "from"))
  | _ => none

def isVersionOption (word : String) : Bool :=
  word = "--version" || ['-', 'V'].isPrefixOf word.toList

/-- The version is asked for, behind nothing but general options. -/
def asksForVersion (arguments : List String) : Bool :=
  let before := arguments.takeWhile (!isVersionOption ·)
  match readOptions generalValues before [] with
  | some (os, []) => before ≠ arguments && !before.contains "--" && (general? os).isSome
  | _ => false

def Call.parse? (arguments : List String) : Option Call := do
  let (before, rest) ← readOptions generalValues arguments []
  match rest with
  | [] => none
  | name :: rest =>
    let first ← general? before
    let (values, make) ← command? name
    let (after, rest) ← readOptions (generalValues ++ values) rest []
    if !rest.isEmpty then none
    else
      let second ← general? after
      return {
        output := (second.output.or first.output).getD .text
        quiet := first.quiet || second.quiet
        config := second.config.or first.config
        command := ← make after }

end IntentCorrection.CommandLine
