import IntentCorrection.Conformance.Checks

namespace IntentCorrection.Conformance

structure Check (σ : Type) where
  category : String
  name : String
  run : Trial σ Unit

def suite {σ η : Type} (s : Subject σ η) : List (Check σ) :=
  [⟨"init", "insert_then_get_round_trips", insertThenGet s⟩,
    ⟨"init", "inserted_intent_starts_at_version_0", startsAtVersionZero s⟩,
    ⟨"init", "double_insert_returns_already_exists", doubleInsert s⟩,
    ⟨"init", "different_keys_are_independent", keysAreIndependent s⟩,
    ⟨"init", "list_filters_by_status", listFilters s⟩,
    ⟨"error", "get_nonexistent_returns_not_found", getMissing s⟩,
    ⟨"error", "cas_nonexistent_returns_not_found", swapMissing s⟩,
    ⟨"error", "lock_nonexistent_returns_not_found", lockMissing s⟩,
    ⟨"error", "list_empty_store", listEmpty s⟩,
    ⟨"version", "cas_with_current_version_succeeds", swapCurrent s⟩,
    ⟨"version", "cas_with_stale_version_refused", swapStale s⟩,
    ⟨"version", "refused_cas_leaves_record_unchanged", refusedSwapChangesNothing s⟩,
    ⟨"version", "sequential_cas_increments_versions", swapsCount s⟩,
    ⟨"version", "cas_persists_correction_history", swapKeepsHistory s⟩,
    ⟨"lock", "lock_exposes_current_intent", lockShowsCurrent s⟩,
    ⟨"lock", "commit_persists_replacement", commitWrites s⟩,
    ⟨"lock", "commit_without_replace_is_noop", commitUnreplaced s⟩,
    ⟨"lock", "abort_discards_replacement", abortDiscards s⟩,
    ⟨"lock", "drop_without_commit_rolls_back", dropDiscards s⟩,
    ⟨"lock", "second_lock_times_out", secondLockTimesOut s⟩,
    ⟨"lock", "lock_released_after_commit", commitReleases s⟩,
    ⟨"lock", "cas_refused_while_locked", swapRefusedWhileLocked s⟩,
    ⟨"concurrent", "concurrent_cas_exactly_one_wins", oneSwapWins s⟩,
    ⟨"concurrent", "concurrent_cas_different_intents_all_succeed", swapsOfOthersSucceed s⟩,
    ⟨"concurrent", "concurrent_lock_holders_serialize", locksSerialize s⟩]

structure Verdict where
  category : String
  name : String
  finding : Option Finding
  deriving Repr

def Verdict.passed (v : Verdict) : Bool := v.finding.isNone

abbrev Report := List Verdict

def Check.verdict {σ : Type} (c : Check σ) (fresh : σ) (date : Timestamp) : Verdict :=
  let finding := match (c.run.run.run ⟨fresh, date, 0⟩).1 with
    | .ok () => none
    | .error f => some f
  ⟨c.category, c.name, finding⟩

def run {σ η : Type} (s : Subject σ η) (date : Timestamp) : Report :=
  (suite s).map (·.verdict s.fresh date)

namespace Report

def passed (r : Report) : Nat := r.countP Verdict.passed

def failed (r : Report) : Nat := r.length - r.passed

def summary (r : Report) : String :=
  "Conformance: " ++ toString r.passed ++ "/" ++ toString r.length ++ " passed (" ++ toString r.failed ++
    " failed)"

def failureLine (v : Verdict) (f : Finding) : String :=
  "  FAIL [" ++ v.category ++ "/" ++ v.name ++ "]: " ++ f.message

def lines (r : Report) : List String :=
  r.summary :: r.filterMap fun v ↦ v.finding.map (failureLine v)

end Report

end IntentCorrection.Conformance
