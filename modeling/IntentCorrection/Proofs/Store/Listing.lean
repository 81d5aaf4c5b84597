import IntentCorrection.Proofs.Store.Operations
import IntentCorrection.Proofs.Store.Snapshot
import Mathlib.Data.List.Nodup

namespace IntentCorrection.Store

variable {s : Store} {is js : List Intent} {i j : Intent}

theorem Before.asymm (h : Before i j) : ¬Before j i := by
  intro h'
  rcases h with hlt | ⟨heq, hkey⟩
  · rcases h' with hlt' | ⟨heq', -⟩ <;> omega
  · rcases h' with hlt' | ⟨-, hkey'⟩
    · omega
    · exact Std.lt_irrefl (Std.lt_trans hkey hkey')

theorem eq_of_before (hperm : is.Perm js) (his : is.Pairwise Before) (hjs : js.Pairwise Before) : is = js :=
  hperm.eq_of_pairwise (fun _ _ _ _ h h' ↦ absurd h' h.asymm) his hjs

theorem listing_congr (hperm : is.Perm js) (hkeys : (is.map Intent.key).Nodup) : listing is = listing js := by
  have hsorted : (listing is).Perm (listing js) :=
    ((List.mergeSort_perm is _).trans hperm).trans (List.mergeSort_perm js _).symm
  exact eq_of_before hsorted (before_listing hkeys) (before_listing ((hperm.map _).nodup_iff.1 hkeys))

theorem listing_filter (hkeys : (is.map Intent.key).Nodup) (p : Intent → Bool) :
    listing (is.filter p) = (listing is).filter p := by
  have hfilter : ((is.filter p).map Intent.key).Nodup := hkeys.sublist (List.filter_sublist.map _)
  have hperm : (listing (is.filter p)).Perm ((listing is).filter p) :=
    (List.mergeSort_perm _ _).trans ((List.mergeSort_perm is _).filter p).symm
  exact eq_of_before hperm (before_listing hfilter) ((before_listing hkeys).filter p)

/-- The map may have its entries in any order. -/
theorem listings_congr {entries : Entries String Intent} (hkeys : ((s.intents.map Prod.snd).map Intent.key).Nodup)
    (hperm : entries.Perm s.intents) :
    { s with intents := entries }.snapshot = s.snapshot ∧
      ∀ status, { s with intents := entries }.list status = s.list status := by
  have hstored := (hperm.map Prod.snd).symm
  refine ⟨(listing_congr hstored hkeys).symm, ?_⟩
  intro status
  exact (listing_congr (hstored.filter _) (hkeys.sublist (List.filter_sublist.map _))).symm

theorem get_of_mem_snapshot (hs : s.Represented) : i ∈ s.snapshot ↔ s.get i.key = .ok i := by
  rw [mem_snapshot hs.keyed hs.intents, get_eq_ok]

theorem count_snapshot (hs : s.Represented) {key : String} (h : s.get key = .ok i) : s.snapshot.count i = 1 := by
  have hi := get_eq_ok.1 h
  obtain rfl := hs.keyed key i hi
  have hnodup := (List.pairwise_map.1 (nodup_keys_snapshot hs.keyed hs.intents)).imp fun hne heq ↦
    hne (congrArg Intent.key heq)
  exact List.count_eq_one_of_mem hnodup ((get_of_mem_snapshot hs).2 h)

/-- However a store came about, a snapshot has every stored intent once and nothing else, strictly in the order of
creation and then of keys, whatever order the map has its entries in; so has a listing without a status, and one by
status is what the snapshot has with that status. -/
theorem reachable_listings (hs : s.Reachable) :
    (∀ key i, s.get key = .ok i → s.snapshot.count i = 1) ∧ (∀ i ∈ s.snapshot, s.get i.key = .ok i) ∧
      s.snapshot.Pairwise Before ∧ s.list none = s.snapshot ∧
      (∀ status, s.list (some status) = s.snapshot.filter fun i ↦ i.status = status) ∧
      ∀ entries : Entries String Intent, entries.Perm s.intents →
        { s with intents := entries }.snapshot = s.snapshot ∧
          ∀ status, { s with intents := entries }.list status = s.list status := by
  have hrep := hs.represented
  have hkeys := nodup_keys_stored hrep.keyed hrep.intents
  have hlist : ∀ status, s.list status = s.snapshot.filter fun i ↦ status.all (i.status = ·) := fun status ↦
    listing_filter hkeys _
  refine ⟨fun _ _ ↦ count_snapshot hrep, fun _ ↦ (get_of_mem_snapshot hrep).1,
    pairwise_snapshot hrep.keyed hrep.intents, ?_, fun status ↦ hlist (some status), fun _ ↦ listings_congr hkeys⟩
  rw [hlist]
  exact List.filter_eq_self.2 fun _ _ ↦ rfl

/-- Half past one in the afternoon two and a half hours ahead of UTC, so an hour before the payment. -/
def invoice : Intent :=
  { Race.payment with
    key := "order-2"
    status := .processed
    createdAt := { Race.noon with time := ⟨13, 30, 0, 0, by decide⟩, offset := 150, valid := by decide } }

theorem reachable_listings_offsets :
    let s := (Race.store.perform (.insert invoice)).2
    s.get "order-2" = .ok invoice ∧ s.snapshot.count invoice = 1 ∧ s.snapshot.Pairwise Before ∧
      s.intents.map Prod.fst = ["order-1", "order-2"] ∧ s.snapshot = [invoice, Race.payment] ∧
      { s with intents := s.intents.reverse }.snapshot = s.snapshot := by
  intro s
  have hs : s.Reachable := .perform _ (.ofIntents Race.ofIntents_payment)
  obtain ⟨hcount, -, hbefore, -, -, hsame⟩ := reachable_listings hs
  have hperm : s.snapshot.Perm [invoice, Race.payment] := (List.mergeSort_perm _ _).trans (.swap _ _ _)
  have hearlier : Before invoice Race.payment := .inl (by decide)
  refine ⟨rfl, hcount "order-2" invoice rfl, hbefore, rfl, ?_, (hsame _ (List.reverse_perm _)).1⟩
  exact eq_of_before hperm hbefore (List.pairwise_pair.2 hearlier)

end IntentCorrection.Store
