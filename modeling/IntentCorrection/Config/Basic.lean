import IntentCorrection.Backoff
import IntentCorrection.Config.Toml
import IntentCorrection.Intent.Actor
import IntentCorrection.Json.Fields
import IntentCorrection.Text.Numeral
import IntentCorrection.Text.Shown

namespace IntentCorrection

structure Config where
  /-- Optimistic attempts before the exclusive lock. -/
  maxRetries : Nat
  backoffBaseMs : Nat
  backoffMaxMs : Nat
  backoffJitterMs : Nat
  lockTimeoutMs : Nat
  /-- Attempts at the locked path while the store reports deadlocks. -/
  deadlockRetries : Nat
  authorizedSources : List Actor
  deriving DecidableEq, Repr

inductive ConfigFault where
  | baseExceedsMax (base max : Nat)
  | noLockTimeout
  | noDeadlockRetries
  | noSources
  deriving DecidableEq, Repr

inductive ConfigError where
  | unreadable
  | variableNotNatural (name value : String)
  | invalid (fault : ConfigFault)
  deriving DecidableEq, Repr

def ConfigFault.message : ConfigFault → String
  | .baseExceedsMax base max =>
    "backoff_base_ms (" ++ toString base ++ ") exceeds backoff_max_ms (" ++ toString max ++ ")"
  | .noLockTimeout => "lock_timeout_ms must be positive"
  | .noDeadlockRetries => "deadlock_retries must be at least 1"
  | .noSources => "authorized_sources must name at least one actor"

def ConfigError.message (detail : String) : ConfigError → String
  | .unreadable => "invalid config file: " ++ detail
  | .variableNotNatural name value =>
    "invalid value " ++ String.ofList (Text.shown value.toList) ++ " for " ++ name ++
      ": expected a non-negative integer"
  | .invalid fault => "invalid configuration: " ++ fault.message

namespace Config

def default : Config where
  maxRetries := 3
  backoffBaseMs := 100
  backoffMaxMs := 2000
  backoffJitterMs := 50
  lockTimeoutMs := 5000
  deadlockRetries := 3
  authorizedSources := [.yuno, .kana]

instance : Inhabited Config := ⟨default⟩

def isAuthorized (c : Config) (source : Actor) : Bool := c.authorizedSources.contains source

def backoff (c : Config) : BackoffPolicy where
  base := .ofMilliseconds c.backoffBaseMs
  max := .ofMilliseconds c.backoffMaxMs
  jitter := .ofMilliseconds c.backoffJitterMs

def lockTimeout (c : Config) : Duration := .ofMilliseconds c.lockTimeoutMs

def fault? (c : Config) : Option ConfigFault :=
  if c.backoffMaxMs < c.backoffBaseMs then some (.baseExceedsMax c.backoffBaseMs c.backoffMaxMs)
  else if c.lockTimeoutMs = 0 then some .noLockTimeout
  else if c.deadlockRetries = 0 then some .noDeadlockRetries
  else if c.authorizedSources.isEmpty then some .noSources
  else none

def validate (c : Config) : Except ConfigError Unit :=
  match c.fault? with
  | none => .ok ()
  | some fault => .error (.invalid fault)

def fieldNames : List String :=
  ["max_retries", "backoff_base_ms", "backoff_max_ms", "backoff_jitter_ms", "lock_timeout_ms",
    "deadlock_retries", "authorized_sources"]

def setting {α β : Type} (read : α → Option β) (fallback : β) : Option α → Option β
  | none => some fallback
  | some a => read a

def ofSettings? {α : Type} (word32 word64 : α → Option Nat) (sources : α → Option (List Actor)) :
    List (Option α) → Option Config
  | [retries, base, max, jitter, timeout, deadlocks, actors] => do
    return {
      maxRetries := ← setting word32 default.maxRetries retries
      backoffBaseMs := ← setting word64 default.backoffBaseMs base
      backoffMaxMs := ← setting word64 default.backoffMaxMs max
      backoffJitterMs := ← setting word64 default.backoffJitterMs jitter
      lockTimeoutMs := ← setting word64 default.lockTimeoutMs timeout
      deadlockRetries := ← setting word32 default.deadlockRetries deadlocks
      authorizedSources := ← setting sources default.authorizedSources actors }
  | _ => none

/-- Settings from a document; no other field may be there. -/
def ofJson? (j : Json) : Option Config := do
  ofSettings? (Json.below? Word.size32) (Json.below? Word.size64)
    (Json.listOf? fun j ↦ j.name?.bind Actor.ofName?) (← j.record? .refuse fieldNames)

def toJson (c : Config) : Json :=
  .object
    [("max_retries", .ofNat c.maxRetries), ("backoff_base_ms", .ofNat c.backoffBaseMs),
      ("backoff_max_ms", .ofNat c.backoffMaxMs), ("backoff_jitter_ms", .ofNat c.backoffJitterMs),
      ("lock_timeout_ms", .ofNat c.lockTimeoutMs), ("deadlock_retries", .ofNat c.deadlockRetries),
      ("authorized_sources", .array (c.authorizedSources.map fun a ↦ .string a.name))]

def tomlBelow? (bound : Nat) : Toml → Option Nat
  | .integer n => if 0 ≤ n ∧ n < bound then some n.toNat else none
  | _ => none

/-- A name, or a table with that one key over something empty. -/
def tomlActor? : Toml → Option Actor
  | .string s => Actor.ofName? s
  | .table [(s, .table [])] | .table [(s, .array [])] => Actor.ofName? s
  | _ => none

def tomlActors? : Toml → Option (List Actor)
  | .array items => items.mapM tomlActor?
  | _ => none

/-- Settings from the text of a document; no other key may be there. -/
def parseToml? (text : String) : Option Config := do
  let entries ← Toml.parse text.toList
  if entries.all fun e ↦ fieldNames.contains e.1 then
    ofSettings? (tomlBelow? Word.size32) (tomlBelow? Word.size64) tomlActors?
      (fieldNames.map (Entries.get? entries))
  else none

def ofToml (text : String) : Except ConfigError Config :=
  match parseToml? text with
  | none => .error .unreadable
  | some c => do
    c.validate
    return c

def maxRetriesVariable : String := "REEVAL_MAX_RETRIES"
def backoffBaseVariable : String := "REEVAL_BACKOFF_BASE_MS"
def backoffJitterVariable : String := "REEVAL_BACKOFF_JITTER_MS"
def lockTimeoutVariable : String := "REEVAL_LOCK_TIMEOUT_MS"

def variableNames : List String :=
  [maxRetriesVariable, backoffBaseVariable, backoffJitterVariable, lockTimeoutVariable]

def readVariable (lookup : String → Option String) (name : String) :
    Except ConfigError (Option Nat) :=
  match lookup name with
  | none => .ok none
  | some value =>
    match Text.natural? Word.size64 (Text.trim value.toList) with
    | some n => .ok (some n)
    | none => .error (.variableNotNatural name value)

def withOverrides (c : Config) (lookup : String → Option String) : Except ConfigError Config := do
  let retries ← readVariable lookup maxRetriesVariable
  let retries := retries.getD c.maxRetries
  if Word.size32 ≤ retries then throw (.variableNotNatural maxRetriesVariable (toString retries))
  let base ← readVariable lookup backoffBaseVariable
  let jitter ← readVariable lookup backoffJitterVariable
  let timeout ← readVariable lookup lockTimeoutVariable
  let c := { c with
    maxRetries := retries
    backoffBaseMs := base.getD c.backoffBaseMs
    backoffJitterMs := jitter.getD c.backoffJitterMs
    lockTimeoutMs := timeout.getD c.lockTimeoutMs }
  c.validate
  return c

end Config

end IntentCorrection
