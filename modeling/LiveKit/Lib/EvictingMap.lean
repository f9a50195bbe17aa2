import LiveKit.Lib.AssocMap
import Mathlib.Data.List.Dedup

/-!
# Maps of limited capacity

A map with the order in which its keys came. Before something is stored, the oldest entries are
evicted until there is room; so an entry stays as long as fewer keys than the capacity come after
it.
-/

namespace EvictingMap

open AssocMap AList List

variable {K V : Type} [DecidableEq K]

/-- Evicts the oldest entries while the map is at capacity. -/
def evict (capacity : ℕ) (map : AssocMap K V) : List K → AssocMap K V × List K
  | [] => (map, [])
  | k :: order =>
    if AssocMap.size map ≥ capacity then evict capacity (AList.erase k map) order
    else (map, k :: order)

/-- Makes room for an entry and inserts it; a key that is there already keeps its place. -/
def store (capacity : ℕ) (map : AssocMap K V) (order : List K) (k : K) (v : V) :
    AssocMap K V × List K :=
  let (map, order) := evict capacity map order
  (AList.insert k v map, if (AList.lookup k map).isSome then order else order ++ [k])

/-- The order has the keys of the map, each of them one time. -/
structure Ordered (map : AssocMap K V) (order : List K) : Prop where
  nodup : order.Nodup
  mem_iff : ∀ k, k ∈ order ↔ (AList.lookup k map).isSome = true

/-- The keys are in the order in which they were inserted last. -/
def InOrder (inserted order : List K) : Prop := List.Sublist order inserted.dedup

/-- The key is not there when it is stored, once there is room. -/
def fresh (capacity : ℕ) (map : AssocMap K V) (order : List K) (k : K) : Bool :=
  (AList.lookup k (evict capacity map order).1).isNone

/-- How many keys came after a key. -/
def behind (k : K) : List K → ℕ
  | [] => 0
  | k' :: order => if k' = k then order.length else behind k order

variable {capacity : ℕ} {map : AssocMap K V} {order : List K} {k k' : K} {v : V}

theorem behind_cons (k first : K) (order : List K) :
    behind k (first :: order) = if first = k then order.length else behind k order := rfl

theorem ordered_empty : Ordered (∅ : AssocMap K V) [] := by
  refine ⟨nodup_nil, fun k => ?_⟩
  rw [lookup_empty]
  exact iff_of_false not_mem_nil Bool.false_ne_true

/-- The order lists each entry of the map once. -/
theorem Ordered.size (h : Ordered map order) : size map = order.length := by
  have hkeys : ∀ k, k ∈ map ↔ k ∈ order := by
    intro k
    rw [h.mem_iff, lookup_isSome]
  apply Nat.le_antisymm
  · exact size_le_of_subset map order fun k hk => (hkeys k).mp hk
  · exact le_size_of_subset map h.nodup fun k hk => (hkeys k).mpr hk

/-- Taking out the oldest entry keeps the order of the others. -/
theorem Ordered.tail (h : Ordered map (k :: order)) : Ordered (erase k map) order := by
  obtain ⟨hnot, hnodup⟩ := nodup_cons.mp h.nodup
  refine ⟨hnodup, fun k' => ?_⟩
  have hmem := h.mem_iff k'
  rw [lookup_erase_ite]
  by_cases hk : k' = k
  · rw [if_pos hk, hk]
    exact iff_of_false hnot Bool.false_ne_true
  · rw [if_neg hk, ← hmem, mem_cons, or_iff_right hk]

/-! ## Eviction -/

/-- Evicting keeps the map and its order together. -/
theorem evict_ordered (h : Ordered map order) :
    Ordered (evict capacity map order).1 (evict capacity map order).2 := by
  induction order generalizing map with
  | nil => exact h
  | cons k order ih =>
    unfold evict
    split
    · exact ih h.tail
    · exact h

/-- An entry with room for all that came after it is not evicted. -/
theorem evict_kept (h : Ordered map order) (hk : k ∈ order)
    (hroom : behind k order + 1 < capacity) :
    lookup k (evict capacity map order).1 = lookup k map ∧
      k ∈ (evict capacity map order).2 ∧
      behind k (evict capacity map order).2 = behind k order := by
  induction order generalizing map with
  | nil => cases hk
  | cons first order ih =>
    unfold evict
    by_cases hfull : size map ≥ capacity
    · rw [if_pos hfull]
      rw [h.size, length_cons] at hfull
      rw [behind_cons] at hroom ⊢
      by_cases hfirst : first = k
      · rw [if_pos hfirst] at hroom
        omega
      · rw [if_neg hfirst] at hroom ⊢
        have hrest := (mem_cons.mp hk).resolve_left (Ne.symm hfirst)
        obtain ⟨hlookup, hmem, hbehind⟩ := ih h.tail hrest hroom
        refine ⟨?_, hmem, hbehind⟩
        rw [hlookup, lookup_erase_ite, if_neg (Ne.symm hfirst)]
    · rw [if_neg hfull]
      exact ⟨rfl, hk, rfl⟩

/-- What is left was there. -/
theorem lookup_of_evict (hv : lookup k (evict capacity map order).1 = some v) :
    lookup k map = some v := by
  induction order generalizing map with
  | nil => exact hv
  | cons first order ih =>
    unfold evict at hv
    split at hv
    · have hrest := ih hv
      exact (of_lookup_erase hrest).2
    · exact hv

/-- Nothing is evicted while there is room. -/
theorem evict_of_lt (hroom : size map < capacity) :
    evict capacity map order = (map, order) := by
  cases order with
  | nil => rfl
  | cons first order =>
    unfold evict
    rw [if_neg (Nat.not_le.mpr hroom)]

/-- Of a map that is full, the oldest entry is evicted, and no other. -/
theorem evict_of_full (h : Ordered map (k :: order)) (hfull : order.length + 1 = capacity) :
    evict capacity map (k :: order) = (erase k map, order) := by
  have hsize := h.size
  have htail := h.tail.size
  rw [length_cons] at hsize
  unfold evict
  rw [if_pos (by omega)]
  apply evict_of_lt
  omega

/-- Only the oldest entry of a map that is full is affected by the eviction. -/
theorem lookup_evict (h : Ordered map order) (hfit : order.length ≤ capacity)
    (hplace : order.head? = some k → order.length < capacity) :
    lookup k (evict capacity map order).1 = lookup k map := by
  cases order with
  | nil => rfl
  | cons first order =>
    rw [length_cons] at hfit hplace
    by_cases hroom : order.length + 1 < capacity
    · rw [evict_of_lt (by rw [h.size, length_cons]; exact hroom)]
    · have hfirst : k ≠ first := by
        rintro rfl
        exact hroom (hplace rfl)
      rw [evict_of_full h (by omega), lookup_erase_ite, if_neg hfirst]

/-- There is room for one entry after the eviction. -/
theorem evict_length_lt (hpos : 0 < capacity) (h : Ordered map order) :
    (evict capacity map order).2.length < capacity := by
  induction order generalizing map with
  | nil => exact hpos
  | cons k order ih =>
    unfold evict
    by_cases hfull : size map ≥ capacity
    · rw [if_pos hfull]
      exact ih h.tail
    · rw [if_neg hfull]
      show (k :: order).length < capacity
      rw [← h.size]
      omega

/-- Only the oldest entries are evicted. -/
theorem evict_suffix : (evict capacity map order).2 <:+ order := by
  induction order generalizing map with
  | nil => exact suffix_refl []
  | cons k order ih =>
    unfold evict
    split
    · exact ih.trans (suffix_cons k order)
    · exact suffix_refl _

/-! ## Places in the order -/

/-- A new entry pushes every earlier one a place back. -/
theorem behind_append (hk : k ∈ order) : behind k (order ++ [k']) = behind k order + 1 := by
  induction order with
  | nil => cases hk
  | cons first order ih =>
    rw [cons_append, behind_cons, behind_cons]
    by_cases hfirst : first = k
    · rw [if_pos hfirst, if_pos hfirst, length_append, length_singleton]
    · rw [if_neg hfirst, if_neg hfirst]
      exact ih ((mem_cons.mp hk).resolve_left (Ne.symm hfirst))

theorem behind_last (hk : k ∉ order) : behind k (order ++ [k]) = 0 := by
  induction order with
  | nil => exact if_pos rfl
  | cons first order ih =>
    rw [mem_cons, not_or] at hk
    rw [cons_append, behind_cons, if_neg (Ne.symm hk.1)]
    exact ih hk.2

theorem behind_erase (hne : k ≠ k') : behind k (order.erase k') ≤ behind k order := by
  induction order with
  | nil => exact Nat.le_refl _
  | cons first order ih =>
    by_cases hfirst : first = k'
    · rw [hfirst, erase_cons_head, behind_cons, if_neg (Ne.symm hne)]
    · rw [erase_cons_tail (by simpa using hfirst), behind_cons, behind_cons]
      split
      · exact erase_sublist.length_le
      · exact ih

/-! ## Storing and taking -/

/-- Storing keeps the map and its order together. -/
theorem store_ordered (capacity : ℕ) (h : Ordered map order) (k : K) (v : V) :
    Ordered (store capacity map order k v).1 (store capacity map order k v).2 := by
  have hevict : Ordered (evict capacity map order).1 (evict capacity map order).2 := evict_ordered h
  unfold store
  simp only
  have hmem := hevict.mem_iff k
  by_cases hthere : (lookup k (evict capacity map order).1).isSome = true
  · rw [if_pos hthere]
    refine ⟨hevict.nodup, fun k' => ?_⟩
    rw [lookup_insert_ite]
    by_cases hk : k' = k
    · rw [if_pos hk, hk]
      exact iff_of_true (hmem.mpr hthere) rfl
    · rw [if_neg hk]
      exact hevict.mem_iff k'
  · rw [if_neg hthere]
    have hnot := mt hmem.mp hthere
    refine ⟨hevict.nodup.append (nodup_singleton k) ?_, fun k' => ?_⟩
    · rw [disjoint_singleton]
      exact hnot
    · rw [lookup_insert_ite, mem_append, mem_singleton]
      by_cases hk : k' = k
      · rw [if_pos hk]
        exact iff_of_true (.inr hk) rfl
      · rw [if_neg hk, or_iff_left hk]
        exact hevict.mem_iff k'

/-- What was stored is there. -/
theorem lookup_store_self : lookup k (store capacity map order k v).1 = some v := by
  unfold store
  simp only [lookup_insert]

/-- What is stored came before, or is new. -/
theorem lookup_of_store {v' : V} (hne : k' ≠ k)
    (hv : lookup k' (store capacity map order k v).1 = some v') :
    lookup k' map = some v' := by
  unfold store at hv
  simp only at hv
  rw [lookup_insert_ite, if_neg hne] at hv
  exact lookup_of_evict hv

/-- An entry that is not evicted has one more key behind it at most. -/
theorem store_kept (v : V) (h : Ordered map order) (hne : k' ≠ k) (hk' : k' ∈ order)
    (hroom : behind k' order + 1 < capacity) :
    lookup k' (store capacity map order k v).1 = lookup k' map ∧
      k' ∈ (store capacity map order k v).2 ∧
      behind k' (store capacity map order k v).2 ≤ behind k' order + 1 := by
  obtain ⟨hlookup, hmem, hbehind⟩ := evict_kept h hk' hroom
  unfold store
  simp only
  refine ⟨?_, ?_, ?_⟩
  · rw [lookup_insert_ite, if_neg hne, hlookup]
  · split
    · exact hmem
    · exact mem_append_left _ hmem
  · split
    · omega
    · rw [behind_append hmem, hbehind]

/-- A new key comes last. -/
theorem store_new (capacity : ℕ) (v : V) (h : Ordered map order)
    (hnew : lookup k map = none) :
    (store capacity map order k v).2 = (evict capacity map order).2 ++ [k] ∧
      behind k (store capacity map order k v).2 = 0 := by
  have hnone : lookup k (evict capacity map order).1 = none := by
    cases hlookup : lookup k (evict capacity map order).1 with
    | none => rfl
    | some v => cases hnew.symm.trans (lookup_of_evict hlookup)
  have horder : (store capacity map order k v).2 = (evict capacity map order).2 ++ [k] := by
    unfold store
    simp only [hnone, Option.isSome_none, if_neg Bool.false_ne_true]
  refine ⟨horder, ?_⟩
  rw [horder]
  apply behind_last
  intro hmem
  have hordered : Ordered (evict capacity map order).1 (evict capacity map order).2 :=
    evict_ordered h
  have hsome := (hordered.mem_iff k).mp hmem
  rw [hnone] at hsome
  cases hsome

theorem store_order (capacity : ℕ) (map : AssocMap K V) (order : List K) (k : K) (v : V) :
    (store capacity map order k v).2 = (evict capacity map order).2 ++
      if fresh capacity map order k then [k] else [] := by
  unfold store fresh
  simp only
  cases hthere : lookup k (evict capacity map order).1 with
  | none => rfl
  | some v' => exact (append_nil _).symm

/-- The map never outgrows its capacity. -/
theorem store_length_le (hpos : 0 < capacity) (h : Ordered map order) (k : K) (v : V) :
    (store capacity map order k v).2.length ≤ capacity := by
  have hlt := evict_length_lt hpos h
  rw [store_order, length_append]
  split
  · rw [length_singleton]
    omega
  · rw [length_nil]
    omega

/-! ## The order of insertion -/

theorem inOrder_nil : InOrder ([] : List K) [] := List.Sublist.refl []

/-- What is left of an order is in order. -/
theorem InOrder.sublist {inserted order' : List K} (h : InOrder inserted order)
    (hsub : List.Sublist order' order) : InOrder inserted order' := hsub.trans h

/-- A key that is inserted comes last, whenever it was there before. -/
theorem InOrder.concat {inserted : List K} (h : InOrder inserted order) (hnot : k ∉ order) :
    InOrder (inserted ++ [k]) (order ++ [k]) := by
  induction inserted generalizing order with
  | nil =>
    have hnil : order = [] := sublist_nil.mp h
    rw [hnil]
    exact List.Sublist.refl [k]
  | cons first inserted ih =>
    unfold InOrder at h ih ⊢
    rw [cons_append]
    by_cases hagain : first ∈ inserted
    · rw [dedup_cons_of_mem hagain] at h
      rw [dedup_cons_of_mem (mem_append_left _ hagain)]
      exact ih h hnot
    · rw [dedup_cons_of_notMem hagain, sublist_cons_iff] at h
      by_cases hfirst : first = k
      · rw [dedup_cons_of_mem (mem_append_right _ (mem_singleton.mpr hfirst))]
        refine ih (h.resolve_right ?_) hnot
        rintro ⟨rest, rfl, -⟩
        exact hnot (hfirst ▸ mem_cons_self)
      · have hnew : first ∉ inserted ++ [k] := by
          rw [mem_append, mem_singleton, not_or]
          exact ⟨hagain, hfirst⟩
        rw [dedup_cons_of_notMem hnew, sublist_cons_iff]
        rcases h with hskip | ⟨rest, rfl, hrest⟩
        · exact .inl (ih hskip hnot)
        · rw [mem_cons, not_or] at hnot
          exact .inr ⟨rest ++ [k], rfl, ih hrest hnot.2⟩

/-- The entries stay in the order they were first stored in. -/
theorem store_inOrder {inserted : List K} (capacity : ℕ) (hordered : Ordered map order)
    (h : InOrder inserted order) (k : K) (v : V) :
    InOrder (inserted ++ if fresh capacity map order k then [k] else [])
      (store capacity map order k v).2 := by
  have hevict : InOrder inserted (evict capacity map order).2 := h.sublist evict_suffix.sublist
  rw [store_order]
  by_cases hfresh : fresh capacity map order k = true
  · rw [if_pos hfresh]
    apply hevict.concat
    rw [(evict_ordered hordered).mem_iff k, Option.isNone_iff_eq_none.mp hfresh]
    exact Bool.false_ne_true
  · rw [if_neg hfresh, append_nil, append_nil]
    exact hevict

/-- Erasing keeps the map and its order together. -/
theorem erase_ordered (h : Ordered map order) (k : K) :
    Ordered (erase k map) (order.erase k) := by
  refine ⟨h.nodup.erase k, fun k' => ?_⟩
  rw [h.nodup.mem_erase_iff, lookup_erase_ite, h.mem_iff]
  by_cases hk : k' = k
  · rw [if_pos hk]
    exact iff_of_false (fun hbad => hbad.1 hk) Bool.false_ne_true
  · rw [if_neg hk, and_iff_right hk]

end EvictingMap
