import IntentCorrection.Store.Basic

namespace IntentCorrection.Conformance

/-- A store under test with states `σ` and locked handles `η`. -/
structure Subject (σ η : Type) where
  fresh : σ
  insert : Intent → StateM σ (Except StorageError Unit)
  get : String → StateM σ (Except StorageError Intent)
  list : Option Status → StateM σ (Except StorageError (List Intent))
  swap : String → Intent → CorrectionRecord → Nat → StateM σ (Except StorageError Bool)
  lock : String → Duration → StateM σ (Except StorageError η)
  commit : η → StateM σ (Except StorageError Intent)
  abort : η → StateM σ (Except StorageError Unit)
  drop : η → StateM σ Unit
  shown : η → Intent
  replace : η → Intent → η
  isDirty : η → Bool

def reading {σ α : Type} (f : σ → α) : StateM σ α := return f (← get)

def memory : Subject Store LockedIntent where
  fresh := .empty
  insert i := modifyGet fun s ↦
    match s.insert i with
    | .ok s' => (.ok (), s')
    | .error e => (.error e, s)
  get key := reading (·.get key)
  list status := reading fun s ↦ .ok (s.list status)
  swap key i r expected := modifyGet (·.compareAndSwap key i r expected)
  lock key timeout := modifyGet (·.lockAlone key timeout)
  commit h := modifyGet (·.commit h)
  abort h := modifyGet fun s ↦ (.ok (), s.abort h)
  drop h := modify (·.abort h)
  shown h := h.intent
  replace h i := h.replace i
  isDirty h := h.dirty

end IntentCorrection.Conformance
