namespace IntentCorrection

abbrev Entries (κ α : Type) := List (κ × α)

namespace Entries

variable {κ α : Type} [DecidableEq κ]

def Sorted [LT κ] (m : Entries κ α) : Prop := m.Pairwise fun a b ↦ a.1 < b.1

def get? : Entries κ α → κ → Option α
  | [], _ => none
  | (k', v) :: m, k => if k = k' then some v else get? m k

def contains (m : Entries κ α) (k : κ) : Bool := (get? m k).isSome

def erase (m : Entries κ α) (k : κ) : Entries κ α := m.filter (·.1 ≠ k)

@[simp] theorem get?_nil (k : κ) : get? ([] : Entries κ α) k = none := rfl

@[simp] theorem get?_cons (x : κ × α) (m : Entries κ α) (k : κ) :
    get? (x :: m) k = if k = x.1 then some x.2 else get? m k := rfl

theorem mem_of_get? {m : Entries κ α} {k : κ} {v : α} (h : get? m k = some v) : (k, v) ∈ m := by
  induction m with
  | nil => cases h
  | cons x m ih => grind [get?]

theorem get?_erase (m : Entries κ α) (k k' : κ) :
    get? (erase m k) k' = if k' = k then none else get? m k' := by
  induction m with
  | nil => simp [erase]
  | cons x m ih => grind [erase, get?]

theorem erase_eq_self {m : Entries κ α} {k : κ} (h : get? m k = none) : erase m k = m := by
  induction m with
  | nil => rfl
  | cons x m ih => grind [erase, get?]

variable [LT κ] [DecidableLT κ]

def insert (k : κ) (v : α) : Entries κ α → Entries κ α
  | [] => [(k, v)]
  | (k', v') :: m =>
    if k = k' then (k, v) :: m
    else if k < k' then (k, v) :: (k', v') :: m
    else (k', v') :: insert k v m

def modify (m : Entries κ α) (k : κ) (f : α → α) : Entries κ α :=
  match m.get? k with
  | some v => insert k (f v) m
  | none => m

/-- Of several values under one key the last stays. -/
def ofList (xs : List (κ × α)) : Entries κ α := xs.foldl (fun m x ↦ insert x.1 x.2 m) []

theorem get?_insert (k k' : κ) (v : α) (m : Entries κ α) :
    get? (insert k v m) k' = if k' = k then some v else get? m k' := by
  induction m with
  | nil => rfl
  | cons x m ih => grind [insert, get?]

theorem erase_insert (k : κ) (v : α) (m : Entries κ α) : erase (insert k v m) k = erase m k := by
  induction m with
  | nil => simp [insert, erase]
  | cons x m ih => grind [insert, erase]

theorem get?_modify (m : Entries κ α) (k k' : κ) (f : α → α) :
    get? (modify m k f) k' = if k' = k then (get? m k).map f else get? m k' := by
  unfold modify
  split <;> rename_i h
  · rw [get?_insert]
    simp [h]
  · split <;> simp_all

end Entries

end IntentCorrection
