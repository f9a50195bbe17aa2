import Mathlib.Data.List.Basic
import Mathlib.Logic.Relation

/-!
# Fair read-write locks

A lock is the list of the requests for it in the order they came in, those that have it
included. A request has the lock when none of the requests ahead of it conflicts with it, so a
reader waits behind a writer that waits. A mutex is a lock that is only asked for exclusively.

A task that waits waits for the conflicting requests ahead of its own. `not_cyclic_of_ordered`
is the rule of lock ordering: when whoever waits has requests only for lower locks, no tasks
wait for each other in a circle.
-/

/-- How a lock is asked for. -/
inductive LockMode where
  | shared
  | exclusive
deriving DecidableEq

/-- Two requests that cannot have the lock at once. -/
def LockMode.conflicts : LockMode → LockMode → Bool
  | .shared, .shared => false
  | _, _ => true

/-- The requests for a lock, the first to come in front. -/
abbrev FifoLock (τ : Type) := List (τ × LockMode)

namespace FifoLock

open List

variable {τ : Type} [DecidableEq τ]

/-- What a task asks for. -/
def modeOf (l : FifoLock τ) (t : τ) : Option LockMode := (l.find? (·.1 = t)).map Prod.snd

/-- The requests ahead of a task's own. -/
def ahead (l : FifoLock τ) (t : τ) : FifoLock τ := l.takeWhile (·.1 ≠ t)

/-- The task has asked for the lock and has it. -/
def holds (l : FifoLock τ) (t : τ) : Bool :=
  match l.modeOf t with
  | some mode => (l.ahead t).all fun r => !mode.conflicts r.2
  | none => false

/-- A request of `u` that keeps `t` from having the lock. -/
def Blocks (l : FifoLock τ) (u t : τ) : Prop :=
  ∃ mode mode', l.modeOf t = some mode ∧ (u, mode') ∈ l.ahead t ∧ mode.conflicts mode'

/-- Bring the requests of a task in line with what it asks for now. -/
def adjust (l : FifoLock τ) (t : τ) (want : Option LockMode) : FifoLock τ :=
  match l.modeOf t, want with
  | none, some mode => l ++ [(t, mode)]
  | some _, none => l.filter (·.1 ≠ t)
  | _, _ => l

/-! ## What a task asks for -/

theorem modeOf_cons (r : τ × LockMode) (l : FifoLock τ) (t : τ) :
    modeOf (r :: l) t = if r.1 = t then some r.2 else modeOf l t := by
  unfold modeOf
  rw [find?_cons]
  by_cases h : r.1 = t
  · rw [if_pos h, decide_eq_true h]
    rfl
  · rw [if_neg h, decide_eq_false h]

theorem ahead_cons (r : τ × LockMode) (l : FifoLock τ) (t : τ) :
    ahead (r :: l) t = if r.1 = t then [] else r :: ahead l t := by
  unfold ahead
  rw [takeWhile_cons]
  by_cases h : r.1 = t
  · rw [if_pos h]
    simp only [h, ne_eq, not_true_eq_false, decide_false, Bool.false_eq_true, if_false]
  · rw [if_neg h]
    simp only [h, ne_eq, not_false_eq_true, decide_true, if_true]

variable {l : FifoLock τ} {t u : τ}

theorem modeOf_append_of_ne (mode : LockMode) (h : u ≠ t) :
    modeOf (l ++ [(t, mode)]) u = modeOf l u := by
  induction l with
  | nil => rw [nil_append, modeOf_cons, if_neg h.symm]
  | cons r l ih => rw [cons_append, modeOf_cons, modeOf_cons, ih]

theorem modeOf_append_self (mode : LockMode) (h : l.modeOf t = none) :
    modeOf (l ++ [(t, mode)]) t = some mode := by
  induction l with
  | nil => rw [nil_append, modeOf_cons, if_pos rfl]
  | cons r l ih =>
    rw [modeOf_cons] at h
    rw [cons_append, modeOf_cons]
    by_cases hr : r.1 = t
    · rw [if_pos hr] at h
      cases h
    · rw [if_neg hr] at h ⊢
      exact ih h

theorem modeOf_filter_of_ne (l : FifoLock τ) (h : u ≠ t) :
    modeOf (l.filter (·.1 ≠ t)) u = modeOf l u := by
  induction l with
  | nil => rfl
  | cons r l ih =>
    by_cases hr : r.1 = t
    · rw [filter_cons_of_neg (by simp [hr]), ih, modeOf_cons, if_neg]
      rw [hr]
      exact h.symm
    · rw [filter_cons_of_pos (by simp [hr]), modeOf_cons, modeOf_cons, ih]

theorem modeOf_filter_self (l : FifoLock τ) (t : τ) : modeOf (l.filter (·.1 ≠ t)) t = none := by
  induction l with
  | nil => rfl
  | cons r l ih =>
    by_cases hr : r.1 = t
    · rw [filter_cons_of_neg (by simp [hr]), ih]
    · rw [filter_cons_of_pos (by simp [hr]), modeOf_cons, if_neg hr, ih]

/-- A new request comes last. -/
theorem adjust_of_none (mode : LockMode) (h : l.modeOf t = none) :
    l.adjust t (some mode) = l ++ [(t, mode)] := by
  unfold adjust
  rw [h]

/-- The requests of the others stay. -/
theorem modeOf_adjust_of_ne (l : FifoLock τ) (want : Option LockMode) (h : u ≠ t) :
    modeOf (l.adjust t want) u = modeOf l u := by
  unfold adjust
  split
  · exact modeOf_append_of_ne _ h
  · exact modeOf_filter_of_ne l h
  · rfl

/-- The task asks for what it was to ask for; a request is not changed into another one. -/
theorem modeOf_adjust_self (l : FifoLock τ) {want : Option LockMode}
    (h : l.modeOf t = none ∨ want = none ∨ l.modeOf t = want) :
    modeOf (l.adjust t want) t = want := by
  unfold adjust
  cases hl : l.modeOf t with
  | none =>
    cases want with
    | none => exact hl
    | some mode => exact modeOf_append_self mode hl
  | some mode =>
    cases want with
    | none => exact modeOf_filter_self l t
    | some mode' =>
      rcases h with h | h | h
      · rw [hl] at h
        cases h
      · cases h
      · exact h

/-! ## One request for each task -/

/-- No task has two requests. -/
def Single (l : FifoLock τ) : Prop := (l.map Prod.fst).Nodup

omit [DecidableEq τ] in
theorem single_nil : Single ([] : FifoLock τ) := nodup_nil

theorem not_mem_of_modeOf (h : l.modeOf t = none) : t ∉ l.map Prod.fst := by
  induction l with
  | nil => exact not_mem_nil
  | cons r l ih =>
    rw [modeOf_cons] at h
    by_cases hr : r.1 = t
    · rw [if_pos hr] at h
      cases h
    · rw [if_neg hr] at h
      rw [map_cons, mem_cons]
      rintro (heq | hmem)
      · exact hr heq.symm
      · exact ih h hmem

variable {mode : LockMode}

theorem mem_of_modeOf (h : l.modeOf t = some mode) : (t, mode) ∈ l := by
  obtain ⟨r, hr, rfl⟩ := Option.map_eq_some_iff.mp h
  have ht := find?_some hr
  rw [← of_decide_eq_true ht]
  exact mem_of_find?_eq_some hr

theorem Single.adjust (h : Single l) (t : τ) (want : Option LockMode) :
    Single (l.adjust t want) := by
  unfold FifoLock.adjust
  split
  · next mode hnone =>
    unfold Single
    rw [map_append, map_cons, map_nil]
    refine nodup_append.mpr ⟨h, pairwise_singleton _ _, ?_⟩
    intro a ha b hb
    rw [mem_singleton] at hb
    rintro rfl
    rw [hb] at ha
    exact not_mem_of_modeOf hnone ha
  · exact h.sublist (filter_sublist.map Prod.fst)
  · exact h

theorem Single.modeOf_of_mem (h : Single l) (hmem : (t, mode) ∈ l) : l.modeOf t = some mode := by
  induction l with
  | nil => cases hmem
  | cons r l ih =>
    obtain ⟨hnot, hrest⟩ := nodup_cons.mp h
    rw [modeOf_cons]
    rcases mem_cons.mp hmem with heq | hmem
    · rw [if_pos (by rw [← heq]), ← heq]
    · have hne : r.1 ≠ t := by
        intro heq
        rw [heq] at hnot
        exact hnot (mem_map_of_mem (f := Prod.fst) hmem)
      rw [if_neg hne]
      exact ih hrest hmem

/-! ## Having the lock -/

theorem holds_iff :
    l.holds t = true ↔ ∃ mode, l.modeOf t = some mode ∧
      ∀ r ∈ l.ahead t, mode.conflicts r.2 = false := by
  unfold holds
  cases l.modeOf t with
  | none => simp
  | some mode => simp [all_eq_true]

/-- Who has the lock is not kept from having it. -/
theorem not_blocks_of_holds (h : l.holds t = true) : ¬ l.Blocks u t := by
  rintro ⟨mode, mode', hmode, hmem, hconf⟩
  obtain ⟨mode'', hmode'', hfree⟩ := holds_iff.mp h
  rw [hmode, Option.some.injEq] at hmode''
  have hno := hfree _ hmem
  rw [← hmode'', hconf] at hno
  cases hno

/-- Who has asked for the lock and does not have it is kept from having it by someone. -/
theorem exists_blocks (hmode : l.modeOf t = some mode) (h : l.holds t = false) :
    ∃ u, l.Blocks u t := by
  by_contra hno
  have hholds : l.holds t = true := by
    apply holds_iff.mpr
    refine ⟨mode, hmode, ?_⟩
    intro r hr
    cases hconf : mode.conflicts r.2 with
    | false => rfl
    | true => exact absurd ⟨r.1, mode, r.2, hmode, hr, hconf⟩ hno
  rw [h] at hholds
  cases hholds

variable {mode' : LockMode}

theorem mem_ahead_of_append (hmode : l.modeOf u = some mode') {r : τ × LockMode}
    (h : r ∈ ahead (l ++ [(t, mode)]) u) : r ∈ ahead l u := by
  induction l with
  | nil => cases hmode
  | cons s l ih =>
    rw [cons_append, ahead_cons] at h
    rw [ahead_cons]
    rw [modeOf_cons] at hmode
    by_cases hs : s.1 = u
    · rw [if_pos hs] at h
      cases h
    · rw [if_neg hs] at h hmode ⊢
      rcases mem_cons.mp h with h | h
      · exact mem_cons.mpr (.inl h)
      · exact mem_cons.mpr (.inr (ih hmode h))

theorem mem_ahead_of_filter (hne : u ≠ t) {r : τ × LockMode}
    (h : r ∈ ahead (l.filter (·.1 ≠ t)) u) : r ∈ ahead l u := by
  induction l with
  | nil => cases h
  | cons s l ih =>
    rw [ahead_cons]
    by_cases hs : s.1 = t
    · rw [filter_cons_of_neg (by simp [hs])] at h
      rw [if_neg (by rw [hs]; exact hne.symm)]
      exact mem_cons.mpr (.inr (ih h))
    · rw [filter_cons_of_pos (by simp [hs]), ahead_cons] at h
      by_cases hu : s.1 = u
      · rw [if_pos hu] at h
        cases h
      · rw [if_neg hu] at h ⊢
        rcases mem_cons.mp h with h | h
        · exact mem_cons.mpr (.inl h)
        · exact mem_cons.mpr (.inr (ih h))

/-- Whoever has the lock keeps it when another task asks for it or gives it back. -/
theorem holds_adjust_of_ne (want : Option LockMode) (hne : u ≠ t) (h : l.holds u = true) :
    (l.adjust t want).holds u = true := by
  obtain ⟨mode, hmode, hfree⟩ := holds_iff.mp h
  apply holds_iff.mpr
  refine ⟨mode, by rw [modeOf_adjust_of_ne l want hne, hmode], ?_⟩
  intro r hr
  apply hfree
  unfold adjust at hr
  split at hr
  · exact mem_ahead_of_append hmode hr
  · exact mem_ahead_of_filter hne hr
  · exact hr

/-- A request that is already there is left alone. -/
theorem adjust_of_modeOf {want : Option LockMode} (h : l.modeOf t = want) :
    l.adjust t want = l := by
  unfold adjust
  split
  · next mode hnone =>
    rw [hnone] at h
    cases h
  · next mode hsome =>
    rw [hsome] at h
    cases h
  · rfl

/-- Of two requests one is ahead of the other. -/
theorem ahead_total (hne : t ≠ u) (ht : l.modeOf t = some mode) (hu : l.modeOf u = some mode') :
    (t, mode) ∈ l.ahead u ∨ (u, mode') ∈ l.ahead t := by
  induction l with
  | nil => cases ht
  | cons r l ih =>
    rw [modeOf_cons] at ht hu
    rw [ahead_cons, ahead_cons]
    by_cases hrt : r.1 = t
    · rw [if_pos hrt, Option.some.injEq] at ht
      have hru : r.1 ≠ u := by
        rw [hrt]
        exact hne
      rw [if_neg hru, ← ht, ← hrt]
      exact .inl mem_cons_self
    · rw [if_neg hrt] at ht ⊢
      by_cases hru : r.1 = u
      · rw [if_pos hru, Option.some.injEq] at hu
        rw [← hu, ← hru]
        exact .inr mem_cons_self
      · rw [if_neg hru] at hu ⊢
        rcases ih ht hu with h | h
        · exact .inl (mem_cons_of_mem _ h)
        · exact .inr (mem_cons_of_mem _ h)

/-- Two tasks that have the lock at once do not conflict. -/
theorem not_conflicts_of_holds (hne : t ≠ u) (ht : l.holds t = true) (hu : l.holds u = true)
    (hmode : l.modeOf t = some mode) (hmode' : l.modeOf u = some mode') :
    mode.conflicts mode' = false := by
  obtain ⟨m, hm, hfree⟩ := holds_iff.mp ht
  obtain ⟨m', hm', hfree'⟩ := holds_iff.mp hu
  rw [hmode, Option.some.injEq] at hm
  rw [hmode', Option.some.injEq] at hm'
  subst hm hm'
  rcases ahead_total hne hmode hmode' with h | h
  · have hconf := hfree' _ h
    cases mode <;> cases mode' <;> first | rfl | exact hconf
  · exact hfree _ h

/-! ## Waiting in a circle -/

theorem length_ahead_lt (h : (u, mode) ∈ l.ahead t) : (l.ahead u).length < (l.ahead t).length := by
  induction l with
  | nil => cases h
  | cons s l ih =>
    rw [ahead_cons] at h
    by_cases hs : s.1 = t
    · rw [if_pos hs] at h
      cases h
    · rw [if_neg hs] at h
      rw [ahead_cons, ahead_cons, if_neg hs]
      by_cases hu : s.1 = u
      · rw [if_pos hu]
        exact Nat.succ_pos _
      · rw [if_neg hu, length_cons, length_cons]
        rcases mem_cons.mp h with h | h
        · exact absurd (congrArg Prod.fst h).symm hu
        · exact Nat.succ_lt_succ (ih h)

theorem modeOf_of_mem_ahead (h : (u, mode) ∈ l.ahead t) : l.modeOf u ≠ none := by
  induction l with
  | nil => cases h
  | cons s l ih =>
    rw [ahead_cons] at h
    by_cases hs : s.1 = t
    · rw [if_pos hs] at h
      cases h
    · rw [if_neg hs] at h
      rw [modeOf_cons]
      by_cases hu : s.1 = u
      · rw [if_pos hu]
        exact Option.some_ne_none _
      · rw [if_neg hu]
        rcases mem_cons.mp h with h | h
        · exact absurd (congrArg Prod.fst h).symm hu
        · exact ih h

variable {ι : Type}

/-- A task waits for another at one of the locks. -/
def WaitsFor (locks : ι → FifoLock τ) (t u : τ) : Prop := ∃ a, (locks a).Blocks u t

/-- Some tasks wait for each other in a circle. -/
def Cyclic (locks : ι → FifoLock τ) : Prop := ∃ t, Relation.TransGen (WaitsFor locks) t t

/-- The task has to wait at the lock. -/
def Waits (locks : ι → FifoLock τ) (a : ι) (t : τ) : Prop := ∃ u, (locks a).Blocks u t

/-- Going from a waiting task to one it waits for leads to a higher lock or forward at the same
one. -/
theorem waits_advance {locks : ι → FifoLock τ} {rank : ι → ℕ}
    (hrank : ∀ t a b, Waits locks a t → (locks b).modeOf t ≠ none → a ≠ b → rank b < rank a)
    (h : Relation.TransGen (WaitsFor locks) t u) {a b : ι} (ht : Waits locks a t)
    (hu : Waits locks b u) :
    rank a < rank b ∨ a = b ∧ ((locks b).ahead u).length < ((locks a).ahead t).length := by
  have hstep : ∀ {t u : τ} {a b : ι}, WaitsFor locks t u → Waits locks a t → Waits locks b u →
      rank a < rank b ∨ a = b ∧ ((locks b).ahead u).length < ((locks a).ahead t).length := by
    intro t u a b htu ht hu
    obtain ⟨c, mode, mode', hmode, hmem, hconf⟩ := htu
    -- a task waits at one lock at most
    have hca : c = a := by
      by_contra hne
      have hc : Waits locks c t := ⟨u, mode, mode', hmode, hmem, hconf⟩
      obtain ⟨v, m, m', hm, -, -⟩ := id ht
      have hlow := hrank t a c ht (by rw [hmode]; exact Option.some_ne_none _) (Ne.symm hne)
      have hhigh := hrank t c a hc (by rw [hm]; exact Option.some_ne_none _) hne
      omega
    subst hca
    by_cases hcb : c = b
    · subst hcb
      exact .inr ⟨rfl, length_ahead_lt hmem⟩
    · exact .inl (hrank u b c hu (modeOf_of_mem_ahead hmem) (Ne.symm hcb))
  induction h generalizing b with
  | single htu => exact hstep htu ht hu
  | tail _ hvu ih =>
    obtain ⟨c, hc⟩ := hvu
    have hfirst := ih ⟨_, hc⟩
    have hlast := hstep ⟨c, hc⟩ ⟨_, hc⟩ hu
    rcases hfirst with hfirst | ⟨rfl, hfirst⟩
    · rcases hlast with hlast | ⟨rfl, hlast⟩
      · exact .inl (by omega)
      · exact .inl hfirst
    · rcases hlast with hlast | ⟨rfl, hlast⟩
      · exact .inl hlast
      · exact .inr ⟨rfl, by omega⟩

/-- Lock ordering: when a task that waits at a lock has asked for lower locks only, no tasks
wait for each other in a circle. -/
theorem not_cyclic_of_ordered {locks : ι → FifoLock τ} (rank : ι → ℕ)
    (hrank : ∀ t a b, Waits locks a t → (locks b).modeOf t ≠ none → a ≠ b → rank b < rank a) :
    ¬ Cyclic locks := by
  rintro ⟨t, h⟩
  obtain ⟨u, htu, -⟩ := Relation.TransGen.head'_iff.mp h
  obtain ⟨a, ha⟩ := htu
  rcases waits_advance hrank h ⟨u, ha⟩ ⟨u, ha⟩ with hlt | ⟨-, hlt⟩
  · omega
  · omega

end FifoLock
