import IntentCorrection.CommandLine.Arguments
import IntentCorrection.CommandLine.StoreFile
import IntentCorrection.Reevaluation.Protocol
import IntentCorrection.Reevaluation.Solo

namespace IntentCorrection.CommandLine

structure Surroundings (m : Type → Type) where
  files : FileSystem m
  lookup : String → Option String
  date : Timestamp
  newId : Uuid

def line (s : String) : String := s ++ "\n"

def document (j : Json) : String := line (String.ofList j.pretty)

def sorted (fields : List (String × Json)) : Json := .object (Entries.ofList fields)

def canonicalText (d : Diff) : String := String.ofList d.canonical

def correctionCount (n : Nat) : String := toString n ++ " correction(s)"

def responseText (output : OutputFormat) (r : ReevaluationResponse) : String :=
  match output with
  | .json => document r.toJson
  | .text =>
    let verb := if r.alreadyApplied then "already applied" else "applied"
    line (verb ++ " correction " ++ String.ofList r.correctionId.text ++ " to " ++ r.intentKey ++
      ": status " ++ r.status.name ++ ", version " ++ toString r.version ++ ", " ++
      correctionCount r.correctionCount)

def statusText (output : OutputFormat) (i : Intent) (previous : Status) : String :=
  let changed := previous ≠ i.status
  match output with
  | .json => document <| sorted
      [("intent_key", .string i.key), ("from", previous.toJson), ("status", i.status.toJson),
        ("version", .ofNat i.version), ("changed", .bool changed)]
  | .text =>
    if changed then
      line (i.key ++ ": " ++ previous.name ++ " -> " ++ i.status.name ++ " (version " ++
        toString i.version ++ ")")
    else line (i.key ++ ": already " ++ i.status.name)

def createdText (output : OutputFormat) (i : Intent) : String :=
  match output with
  | .json => document i.toJson
  | .text => line ("created " ++ i.key ++ " (" ++ i.kind ++ ") in status " ++ i.status.name)

def recordLine (r : CorrectionRecord) : String :=
  line ("    " ++ String.ofList r.id.text ++ " by " ++ r.source.name ++ ": " ++ canonicalText r.diff ++
    " -- " ++ r.reason)

def intentText (output : OutputFormat) (i : Intent) : String :=
  match output with
  | .json => document i.toJson
  | .text =>
    line (i.key ++ " (" ++ i.kind ++ ")") ++ line ("  status:  " ++ i.status.name) ++
      line ("  version: " ++ toString i.version) ++
      line ("  payload: " ++ String.ofList (Value.canonicalMap i.payload)) ++
      (if i.history.isEmpty then line "  corrections: none"
      else line "  corrections:" ++ String.join (i.history.map recordLine))

def listLine (i : Intent) : String :=
  line (i.key ++ "\t" ++ i.status.name ++ "\tv" ++ toString i.version ++ "\t" ++
    correctionCount i.history.length)

def listText (output : OutputFormat) (is : List Intent) : String :=
  match output with
  | .json => document (.array (is.map Intent.toJson))
  | .text => String.join (is.map listLine)

def correctionIdText (output : OutputFormat) (intent : String) (d : Diff) : String :=
  let id := correctionId intent d
  match output with
  | .json => document <| sorted
      [("intent_key", .string intent), ("correction_id", id.toJson),
        ("canonical_diff", .string (canonicalText d))]
  | .text => line (String.ofList id.text)

def validText (output : OutputFormat) (d : Diff) : String :=
  match output with
  | .json => document <| sorted
      [("valid", .bool true), ("canonical_diff", .string (canonicalText d))]
  | .text => line ("valid: " ++ canonicalText d)

def transitionsLine (s : Status) : String :=
  line (s.name ++ (if s.isTerminal then " (terminal)" else "") ++ " -> " ++
    ", ".intercalate (s.successors.map Status.name))

def transitionsText (output : OutputFormat) (source : Option Status) : String :=
  let sources := (source.map fun s ↦ [s]).getD Status.all
  match output with
  | .json => document <| sorted <| sources.map fun s ↦
      (s.name, sorted
        [("terminal", .bool s.isTerminal), ("allowed", .array (s.successors.map Status.toJson))])
  | .text => String.join (sources.map transitionsLine)

variable {m : Type → Type} [Monad m]

/-- The value of an argument: a document, or the path of a file with one behind an at sign. -/
def readArgument (fs : FileSystem m) (argument : String) : ExceptT Failure m Value := do
  let (text, origin) ← match argument.toList with
    | '@' :: path =>
      let path := String.ofList path
      match ← fs.read path with
      | .ok text => pure (text, path)
      | .error e => throw (.unreadableFile path e)
    | _ => pure (argument, "argument")
  match (Json.parse text.toList).bind Json.value? with
  | some v => return v
  | none => throw (.notDocument origin)

def readDiff (fs : FileSystem m) (argument : String) : ExceptT Failure m Diff := do
  match Diff.ofValue (← readArgument fs argument) with
  | .ok d => return d
  | .error e => throw (.diff e)

def readMap (fs : FileSystem m) (what : String) (argument : Option String) :
    ExceptT Failure m (Option ValueMap) := do
  match argument with
  | none => return none
  | some argument =>
    match ← readArgument fs argument with
    | .map entries => return some entries
    | other => throw (.notObject what other.kind)

def readConfig (s : Surroundings m) (path : Option String) : ExceptT Failure m Config := do
  let config ← match path with
    | none => pure (Except.ok Config.default)
    | some path =>
      match ← s.files.read path with
      | .ok text => pure (Config.ofToml text)
      | .error e => throw (.unreadableConfig path e)
  match config.bind (·.withOverrides s.lookup) with
  | .ok config => return config
  | .error e => throw (.config e)

def requestOf (o : ApplyOptions) (d : Diff) (metadata : Option ValueMap) : ReevaluationRequest where
  intentKey := o.intent
  diff := d
  source := o.source
  reason := o.reason
  metadata := metadata

/-- Applies a correction. A run alone waits for nothing, so it keeps any deadline. -/
def runApply (s : Surroundings m) (config : Config) (output : OutputFormat) (o : ApplyOptions) :
    ExceptT Failure m String := do
  let d ← readDiff s.files o.diff
  let metadata ← readMap s.files "metadata" o.metadata
  let store ← loadStore s.files o.store
  match (Reevaluation.reevaluate config (requestOf o d metadata)).runAlone s.date store with
  | (.error e, _) => throw (.reevaluation e)
  | (.ok response, store) =>
    if !response.alreadyApplied then saveStore s.files o.store store
    return responseText output response

def runStatus (s : Surroundings m) (config : Config) (output : OutputFormat) (path intent : String)
    (requested : Status) : ExceptT Failure m String := do
  let store ← loadStore s.files path
  match store.get intent with
  | .error e => throw (.reevaluation (.ofStorage e))
  | .ok previous =>
    match (Reevaluation.updateStatus config intent requested).runAlone s.date store with
    | (.error e, _) => throw (.reevaluation e)
    | (.ok i, store) =>
      if previous.status ≠ i.status then saveStore s.files path store
      return statusText output i previous.status

def runCreate (s : Surroundings m) (output : OutputFormat) (path intent kind : String)
    (payload : Option String) : ExceptT Failure m String := do
  let payload := (← readMap s.files "payload" payload).getD []
  let store ← loadOrCreateStore s.files path
  let i := Intent.received intent kind payload s.newId s.date
  match store.insert i with
  | .error e => throw (.storage e)
  | .ok store =>
    saveStore s.files path store
    return createdText output i

def runInspect (fs : FileSystem m) (output : OutputFormat) (path intent : String) :
    ExceptT Failure m String := do
  match (← loadStore fs path).get intent with
  | .error e => throw (.storage e)
  | .ok i => return intentText output i

def runList (fs : FileSystem m) (output : OutputFormat) (path : String) (status : Option Status) :
    ExceptT Failure m String :=
  return listText output ((← loadStore fs path).list status)

def checkDiff (d : Diff) : Except CorrectionError Unit := do
  d.validate
  let _ ← d.payload
  return ()

def runValidate (fs : FileSystem m) (output : OutputFormat) (argument : String) :
    ExceptT Failure m String := do
  let d ← readDiff fs argument
  match checkDiff d with
  | .ok () => return validText output d
  | .error e => throw (.refusedDiff e)

def runCommand (s : Surroundings m) (call : Call) : ExceptT Failure m String :=
  match call.command with
  | .apply o => do runApply s (← readConfig s call.config) call.output o
  | .status path intent requested => do
    runStatus s (← readConfig s call.config) call.output path intent requested
  | .create path intent kind payload => runCreate s call.output path intent kind payload
  | .inspect path intent => runInspect s.files call.output path intent
  | .list path status => runList s.files call.output path status
  | .correctionId intent argument => do
    return correctionIdText call.output intent (← readDiff s.files argument)
  | .validateDiff argument => runValidate s.files call.output argument
  | .transitions source => return transitionsText call.output source

structure Ending where
  exitCode : UInt8
  output : String
  errors : String
  deriving DecidableEq, Repr

def usageEnding : Ending := ⟨2, "", "usage: [options] <command> [options]\n"⟩

def versionEnding : Ending := ⟨0, "reeval 0.1.0\n", ""⟩

/-- What a quiet call tells is only whether it failed. A panic is always told. -/
def Call.ending (call : Call) (detail : String) : Except Failure String → Ending
  | .ok text => ⟨0, if call.quiet then "" else text, ""⟩
  | .error f =>
    match f.panic? with
    | some p => ⟨101, "", line p.message⟩
    | none =>
      let text := match call.output with
        | .text => f.message detail
        | .json => String.ofList (f.toJson detail).compact
      ⟨1, "", if call.quiet then "" else line text⟩

def run (s : Surroundings m) (detail : String) (arguments : List String) : m Ending := do
  if asksForVersion arguments then return versionEnding
  else
    match Call.parse? arguments with
    | none => return usageEnding
    | some call => return call.ending detail (← (runCommand s call).run)

end IntentCorrection.CommandLine
