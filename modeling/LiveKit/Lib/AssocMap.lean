import Mathlib.Data.List.AList
import Mathlib.Data.List.Perm.Basic
import Mathlib.Data.List.Perm.Lattice

/-!
# Finite maps with an arbitrary iteration order

A hash map is modelled by Mathlib's association lists without repeated keys. What a
program can observe of such a map is `lookup`, plus the order in which one pass visits
the entries, which the container does not promise. The second half is `IterOrder`: any
permutation of the entries. A result stated for every `IterOrder` holds whatever order
the real container happens to use.
-/

/-- A finite map from `K` to `V`. -/
abbrev AssocMap (K V : Type) := AList (fun _ : K => V)

namespace AssocMap

open AList List

variable {K V : Type} [DecidableEq K]

/-! ## Lookup after an update -/

theorem lookup_insert_ite (m : AssocMap K V) (k k' : K) (v : V) :
    lookup k' (insert k v m) = if k' = k then some v else lookup k' m := by
  split
  · next h => rw [h, lookup_insert]
  · next h => exact lookup_insert_ne h

theorem lookup_erase_ite (m : AssocMap K V) (k k' : K) :
    lookup k' (erase k m) = if k' = k then none else lookup k' m := by
  split
  · next h => rw [h, lookup_erase]
  · next h => exact lookup_erase_ne h

/-- What is found after an insertion is the new value, or was there under another key. -/
theorem of_lookup_insert {m : AssocMap K V} {k k' : K} {v w : V}
    (h : lookup k' (insert k v m) = some w) : k' = k ∧ w = v ∨ k' ≠ k ∧ lookup k' m = some w := by
  rw [lookup_insert_ite] at h
  by_cases hk : k' = k
  · rw [if_pos hk, Option.some.injEq] at h
    exact .inl ⟨hk, h.symm⟩
  · rw [if_neg hk] at h
    exact .inr ⟨hk, h⟩

/-- What is found after a removal was there under another key. -/
theorem of_lookup_erase {m : AssocMap K V} {k k' : K} {w : V}
    (h : lookup k' (erase k m) = some w) : k' ≠ k ∧ lookup k' m = some w := by
  rw [lookup_erase_ite] at h
  by_cases hk : k' = k
  · rw [if_pos hk] at h
    cases h
  · rw [if_neg hk] at h
    exact ⟨hk, h⟩

/-- What holds of every entry holds still where one is inserted. -/
theorem forall_insert {p : K → V → Prop} {m : AssocMap K V} {k : K} {v : V}
    (hall : ∀ k w, lookup k m = some w → p k w) (hnew : p k v) :
    ∀ k' w, lookup k' (insert k v m) = some w → p k' w := by
  intro k' w h
  rcases of_lookup_insert h with ⟨rfl, rfl⟩ | ⟨-, h⟩
  · exact hnew
  · exact hall k' w h

theorem erase_insert (m : AssocMap K V) (k : K) (v : V) :
    erase k (insert k v m) = erase k m := by
  apply ext
  show List.kerase k (⟨k, v⟩ :: List.kerase k m.entries) = List.kerase k m.entries
  exact kerase_cons_eq rfl

/-! ## Collecting pairs -/

/-- The map of the pairs of a list; of those with one key the last counts. -/
def collect (l : List (K × V)) : AssocMap K V :=
  l.foldl (fun m entry => AList.insert entry.1 entry.2 m) ∅

/-- The last entry of a key counts. -/
theorem lookup_collect (l : List (K × V)) (k : K) :
    lookup k (collect l) = (l.reverse.find? fun entry => entry.1 = k).map Prod.snd := by
  unfold collect
  have hfrom : ∀ m : AssocMap K V,
      lookup k (l.foldl (fun m entry => insert entry.1 entry.2 m) m)
        = ((l.reverse.find? fun entry => entry.1 = k).map Prod.snd).or (lookup k m) := by
    induction l with
    | nil =>
      intro m
      rfl
    | cons entry l ih =>
      intro m
      rw [foldl_cons, ih, lookup_insert_ite, reverse_cons, find?_append]
      cases l.reverse.find? fun entry => decide (entry.1 = k) with
      | some entry' => rfl
      | none =>
        by_cases hk : k = entry.1
        · rw [if_pos hk, find?_cons_of_pos (by simp [hk])]
          rfl
        · rw [if_neg hk, find?_cons_of_neg (by simp [Ne.symm hk])]
          rfl
  rw [hfrom, lookup_empty, Option.or_none]

/-! ## Removing entries -/

/-- The entries for which `p` holds. -/
def retain (p : K → V → Bool) (m : AssocMap K V) : AssocMap K V :=
  ⟨m.entries.filter fun entry => p entry.1 entry.2,
    List.NodupKeys.sublist filter_sublist m.nodupKeys⟩

theorem lookup_retain (p : K → V → Bool) (m : AssocMap K V) (k : K) :
    lookup k (retain p m) = (lookup k m).filter (p k) := by
  apply Option.ext
  intro v
  rw [← Option.mem_def, mem_lookup_iff, Option.filter_eq_some_iff, ← Option.mem_def,
    mem_lookup_iff]
  exact mem_filter

/-! ## What changes from one map to another -/

/-- Every entry is as before, or `P` says what it is now, of the key and what there was. -/
def Changes (P : K → Option V → V → Prop) (m m' : AssocMap K V) : Prop :=
  ∀ k, AList.lookup k m' = AList.lookup k m ∨
    ∃ v', AList.lookup k m' = some v' ∧ P k (AList.lookup k m) v'

theorem Changes.refl (P : K → Option V → V → Prop) (m : AssocMap K V) : Changes P m m :=
  fun _ => .inl rfl

variable {P : K → Option V → V → Prop} {m m' : AssocMap K V}

theorem Changes.mono {Q : K → Option V → V → Prop} (h : Changes P m m')
    (hPQ : ∀ k v v', P k v v' → Q k v v') : Changes Q m m' := by
  intro k
  rcases h k with hsame | ⟨v', hv', hP⟩
  · exact .inl hsame
  · exact .inr ⟨v', hv', hPQ _ _ _ hP⟩

variable {k : K}

variable {v' v : V} {l : List (K × V)}

theorem Changes.insert (m : AssocMap K V) (h : P k (lookup k m) v') :
    Changes P m (insert k v' m) := by
  intro k'
  rw [lookup_insert_ite]
  split
  · next heq =>
    rw [heq]
    exact .inr ⟨v', rfl, h⟩
  · exact .inl rfl

/-- Where an entry comes from. -/
theorem Changes.to_some (h : Changes P m m') (hv' : lookup k m' = some v') :
    lookup k m = some v' ∨ P k (lookup k m) v' := by
  rcases h k with hsame | ⟨w, hw, hP⟩
  · exact .inl (hsame.symm.trans hv')
  · rw [hv', Option.some.injEq] at hw
    rw [hw]
    exact .inr hP

/-- What becomes of an entry. -/
theorem Changes.of_some (h : Changes P m m') (hv : lookup k m = some v) :
    ∃ v', lookup k m' = some v' ∧ (v' = v ∨ P k (some v) v') := by
  rcases h k with hsame | ⟨v', hv', hP⟩
  · exact ⟨v, hsame.trans hv, .inl rfl⟩
  · rw [hv] at hP
    exact ⟨v', hv', .inr hP⟩

/-! ## Size -/

/-- The number of entries. -/
def size (m : AssocMap K V) : ℕ := m.keys.length

/-- Removing a present key makes the map smaller: the measure of a draining loop. -/
theorem size_erase_lt (m : AssocMap K V) (h : lookup k m = some v) :
    size (erase k m) < size m := by
  have hk : k ∈ m.keys := by
    rw [← AList.mem_keys, ← AList.lookup_isSome, h]
    rfl
  have hpos : 0 < m.keys.length := length_pos_of_mem hk
  rw [size, size, keys_erase, length_erase_of_mem hk]
  omega

omit [DecidableEq K] in
/-- A map whose keys all come from a list is no larger than that list. -/
theorem size_le_of_subset (m : AssocMap K V) (l : List K) (h : ∀ k ∈ m, k ∈ l) :
    size m ≤ l.length := by
  have hsub : m.keys ⊆ l := fun k hk => h k (mem_keys.mpr hk)
  exact (subperm_of_subset m.keys_nodup hsub).length_le

omit [DecidableEq K] in
/-- A map with one entry for each member of a duplicate-free list is at least that large. -/
theorem le_size_of_subset (m : AssocMap K V) {l : List K} (hl : l.Nodup) (h : ∀ k ∈ l, k ∈ m) :
    l.length ≤ size m := by
  have hsub : l ⊆ m.keys := fun k hk => mem_keys.mp (h k hk)
  exact (subperm_of_subset hl hsub).length_le

/-! ## Iteration -/

/-- The entries as pairs. -/
def toPairs (m : AssocMap K V) : List (K × V) := m.entries.map fun e => (e.1, e.2)

/-- The pairs are the entries. -/
theorem mem_toPairs (m : AssocMap K V) (k : K) (v : V) :
    (k, v) ∈ toPairs m ↔ lookup k m = some v := by
  rw [toPairs, mem_map]
  constructor
  · rintro ⟨e, he, heq⟩
    obtain ⟨k', v'⟩ := e
    simp only [Prod.mk.injEq] at heq
    obtain ⟨rfl, rfl⟩ := heq
    exact mem_lookup_iff.mpr he
  · intro h
    exact ⟨⟨k, v⟩, mem_lookup_iff.mp h, rfl⟩

/-- A property of all entries that can be evaluated on each can be evaluated on the map. -/
instance decidableForallLookup {P : K → V → Prop} [∀ k v, Decidable (P k v)] (m : AssocMap K V) :
    Decidable (∀ k v, AList.lookup k m = some v → P k v) :=
  decidable_of_iff (∀ entry ∈ toPairs m, P entry.1 entry.2) <| by
    constructor
    · intro h k v hkv
      exact h (k, v) ((mem_toPairs m k v).mpr hkv)
    · intro h entry hentry
      exact h entry.1 entry.2 ((mem_toPairs m entry.1 entry.2).mp hentry)

omit [DecidableEq K] in
theorem toPairs_keys (m : AssocMap K V) : (toPairs m).map Prod.fst = m.keys := by
  rw [toPairs, map_map]
  rfl

theorem toPairs_insert (m : AssocMap K V) (k : K) (v : V) :
    toPairs (insert k v m) = (k, v) :: toPairs (erase k m) := rfl

theorem toPairs_erase_of_none (m : AssocMap K V) (h : lookup k m = none) :
    toPairs (erase k m) = toPairs m := by
  have hk : k ∉ m.entries.keys := lookup_eq_none.mp h
  unfold toPairs
  show (List.kerase k m.entries).map _ = _
  rw [kerase_of_notMem_keys hk]

/-- The entry of a key can be taken out of the list of all. -/
theorem toPairs_perm (m : AssocMap K V) (h : lookup k m = some v) :
    (toPairs m).Perm ((k, v) :: toPairs (erase k m)) := by
  have hk : k ∈ m.entries.keys := by
    apply AList.mem_keys.mp
    exact AList.lookup_isSome.mp (by rw [h]; rfl)
  obtain ⟨v', l₁, l₂, -, hentries, herase⟩ := exists_of_kerase hk
  have hv : v' = v := by
    have hmem : ⟨k, v'⟩ ∈ m.entries := by
      rw [hentries]
      simp
    have hlookup := mem_lookup_iff.mpr hmem
    rw [h] at hlookup
    exact (Option.some.inj hlookup).symm
  unfold toPairs
  show (m.entries.map _).Perm ((k, v) :: (List.kerase k m.entries).map _)
  rw [herase, hentries, hv, map_append, map_cons, map_append]
  exact perm_middle

/-- One pass over the map may visit the entries in the order of `l`. -/
def IterOrder (m : AssocMap K V) (l : List (K × V)) : Prop := l.Perm (toPairs m)

theorem IterOrder.mem_iff (h : IterOrder m l) (k : K) (v : V) :
    (k, v) ∈ l ↔ lookup k m = some v := by
  rw [List.Perm.mem_iff h, mem_toPairs]

omit [DecidableEq K] in
/-- No key is visited twice. -/
theorem IterOrder.keys_nodup (h : IterOrder m l) : (l.map Prod.fst).Nodup := by
  have hperm : (l.map Prod.fst).Perm m.keys := by
    rw [← toPairs_keys]
    exact List.Perm.map _ h
  exact hperm.nodup_iff.mpr m.keys_nodup

/-- The order of a pass as a choice: the first number says which of the entries comes first,
the second which of those left comes next, and so on. -/
def reorder {A : Type} : List ℕ → List A → List A
  | [], l => l
  | _, [] => []
  | c :: cs, a :: as =>
    match (a :: as)[c]? with
    | none => a :: reorder cs as
    | some b => b :: reorder cs ((a :: as).eraseIdx c)

/-- No item is lost or doubled. -/
theorem reorder_perm {A : Type} (cs : List ℕ) (l : List A) : (reorder cs l).Perm l := by
  induction cs generalizing l with
  | nil =>
    rw [reorder]
  | cons c cs ih =>
    cases l with
    | nil => rw [reorder]; simp
    | cons a as =>
      rw [reorder]
      cases hb : (a :: as)[c]? with
      | none => exact (ih as).cons a
      | some b =>
        obtain ⟨hc, hb⟩ := List.getElem?_eq_some_iff.mp hb
        refine ((ih _).cons b).trans ?_
        rw [← hb]
        exact getElem_cons_eraseIdx_perm hc

/-- The entries in the order of the choice. -/
def inOrder (m : AssocMap K V) (cs : List ℕ) : List (K × V) := reorder cs (toPairs m)

omit [DecidableEq K] in
theorem inOrder_iterOrder (m : AssocMap K V) (cs : List ℕ) : IterOrder m (inOrder m cs) :=
  reorder_perm cs (toPairs m)

/-- In any order the pairs are the entries. -/
theorem mem_inOrder (m : AssocMap K V) (cs : List ℕ) (k : K) (v : V) :
    (k, v) ∈ inOrder m cs ↔ lookup k m = some v :=
  (inOrder_iterOrder m cs).mem_iff k v

end AssocMap

/-- A hash map that is consumed by one pass, as its entries in the order of that pass. -/
structure Entries (K V : Type) where
  toList : List (K × V)
  keys_nodup : (toList.map Prod.fst).Nodup
deriving DecidableEq

