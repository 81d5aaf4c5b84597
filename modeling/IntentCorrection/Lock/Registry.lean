import IntentCorrection.Entries

namespace IntentCorrection

abbrev Ticket := Nat

abbrev SlotId := Nat

inductive Phase where
  | waiting
  /-- Handed the lock, not running yet. -/
  | granted
  | holding
  deriving DecidableEq, Repr

structure Slot where
  holder : Option Ticket
  queue : List Ticket
  deriving DecidableEq, Repr

/-- An acquisition that is pending or holds its lock. -/
structure Claim where
  key : String
  slot : SlotId
  phase : Phase
  deriving DecidableEq, Repr

/-- Everyone who holds or awaits a key refers to the slot that was registered when they came. A slot that nobody refers
to is taken out on release and on expiry, but not on cancellation. -/
structure LockRegistry where
  registered : Entries String SlotId
  slots : Entries SlotId Slot
  claims : Entries Ticket Claim
  nextSlot : SlotId
  nextTicket : Ticket
  deriving DecidableEq, Repr

namespace LockRegistry

def empty : LockRegistry := ⟨[], [], [], 0, 0⟩

def slotFor (r : LockRegistry) (key : String) : SlotId × LockRegistry :=
  match r.registered.get? key with
  | some id => (id, r)
  | none =>
    (r.nextSlot,
      { r with
        registered := r.registered.insert key r.nextSlot
        slots := r.slots.insert r.nextSlot ⟨none, []⟩
        nextSlot := r.nextSlot + 1 })

/-- Starts to acquire a key: a free slot is taken at once, else the ticket joins the queue. -/
def begin (r : LockRegistry) (key : String) : Ticket × LockRegistry :=
  let (id, r) := r.slotFor key
  let t := r.nextTicket
  let slot := (r.slots.get? id).getD ⟨none, []⟩
  let (slot, phase) : Slot × Phase :=
    if slot.holder.isNone then (⟨some t, slot.queue⟩, .holding)
    else (⟨slot.holder, slot.queue ++ [t]⟩, .waiting)
  (t,
    { r with
      slots := r.slots.insert id slot
      claims := r.claims.insert t ⟨key, id, phase⟩
      nextTicket := t + 1 })

def phase? (r : LockRegistry) (t : Ticket) : Option Phase := (r.claims.get? t).map Claim.phase

def handOver (r : LockRegistry) (id : SlotId) : LockRegistry :=
  match r.slots.get? id with
  | none => r
  | some slot =>
    match slot.queue with
    | [] => { r with slots := r.slots.insert id ⟨none, []⟩ }
    | t :: queue =>
      { r with
        slots := r.slots.insert id ⟨some t, queue⟩
        claims := r.claims.modify t fun c ↦ { c with phase := .granted } }

def leaveQueue (r : LockRegistry) (id : SlotId) (t : Ticket) : LockRegistry :=
  { r with slots := r.slots.modify id fun slot ↦ { slot with queue := slot.queue.erase t } }

def references (r : LockRegistry) (id : SlotId) : Nat := r.claims.countP (·.2.slot = id)

/-- Takes the slot of a key out if nobody refers to it. -/
def prune (r : LockRegistry) (key : String) : LockRegistry :=
  match r.registered.get? key with
  | some id =>
    if r.references id = 0 then
      { r with registered := r.registered.erase key, slots := r.slots.erase id }
    else r
  | none => r

def resume (r : LockRegistry) (t : Ticket) : LockRegistry :=
  match r.claims.get? t with
  | some ⟨key, id, .granted⟩ => { r with claims := r.claims.insert t ⟨key, id, .holding⟩ }
  | _ => r

def expire (r : LockRegistry) (t : Ticket) : LockRegistry :=
  match r.claims.get? t with
  | some ⟨key, id, .waiting⟩ =>
    let r := r.leaveQueue id t
    prune { r with claims := r.claims.erase t } key
  | _ => r

def cancel (r : LockRegistry) (t : Ticket) : LockRegistry :=
  match r.claims.get? t with
  | some ⟨_, id, .waiting⟩ =>
    let r := r.leaveQueue id t
    { r with claims := r.claims.erase t }
  | some ⟨_, id, .granted⟩ => { r with claims := r.claims.erase t }.handOver id
  | _ => r

def release (r : LockRegistry) (t : Ticket) : LockRegistry :=
  match r.claims.get? t with
  | some ⟨key, id, .holding⟩ => ({ r with claims := r.claims.erase t }.handOver id).prune key
  | _ => r

def isLocked (r : LockRegistry) (key : String) : Bool :=
  ((r.registered.get? key).bind r.slots.get?).any (·.holder.isSome)

def activeKeys (r : LockRegistry) : Nat := r.registered.length

end LockRegistry

end IntentCorrection
