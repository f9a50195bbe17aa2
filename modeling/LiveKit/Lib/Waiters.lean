import LiveKit.Lib.AssocMap

/-!
# Who waits for an answer

A table from the ids of requests to the tasks that wait for the answers. It agrees with the
tasks when it has an entry for a task exactly as long as the task waits; then an answer reaches
the one that asked, and nothing is left of a task that has gone.
-/

namespace Waiters

variable {K : Type} [DecidableEq K]

/-- The table has the tasks that wait, each under the id that it waits for. -/
def Agree (table : AssocMap K ℕ) (waitsFor : ℕ → Option K) : Prop :=
  ∀ k i, AList.lookup k table = some i ↔ waitsFor i = some k

variable {table : AssocMap K ℕ} {waitsFor waitsFor' : ℕ → Option K}

theorem agree_empty (h : ∀ i, waitsFor i = none) : Agree (∅ : AssocMap K ℕ) waitsFor := by
  intro k i
  rw [h i]
  constructor
  · intro hlookup
    cases hlookup
  · intro hwaits
    cases hwaits

/-- Nobody waits under two ids, or two under one. -/
theorem Agree.unique (h : Agree table waitsFor) {i j : ℕ} {k : K} (hi : waitsFor i = some k)
    (hj : waitsFor j = some k) : i = j := by
  have hboth := ((h k i).mpr hi).symm.trans ((h k j).mpr hj)
  exact Option.some.inj hboth

theorem Agree.congr (h : Agree table waitsFor) (hsame : ∀ i, waitsFor' i = waitsFor i) :
    Agree table waitsFor' := by
  intro k i
  rw [hsame i]
  exact h k i

/-- A task begins to wait under an id of its own. -/
theorem Agree.insert (h : Agree table waitsFor) {i : ℕ} {k : K} (hfresh : ∀ j, waitsFor j ≠ some k)
    (hi : waitsFor' i = some k) (hnone : waitsFor i = none)
    (hsame : ∀ j, j ≠ i → waitsFor' j = waitsFor j) : Agree (AList.insert k i table) waitsFor' := by
  intro k' j
  rw [AssocMap.lookup_insert_ite]
  by_cases hk : k' = k
  · rw [if_pos hk, Option.some.injEq]
    constructor
    · rintro rfl
      rw [hi, hk]
    · intro hj
      by_contra hne
      rw [hsame j (Ne.symm hne), hk] at hj
      exact hfresh j hj
  · rw [if_neg hk, h k' j]
    by_cases hj : j = i
    · subst hj
      rw [hi, hnone]
      constructor
      · intro hbad
        cases hbad
      · intro hbad
        exact absurd (Option.some.inj hbad).symm hk
    · rw [hsame j hj]

/-- The task that waits under the id stops waiting. -/
theorem Agree.erase (h : Agree table waitsFor) {i : ℕ} {k : K}
    (hbefore : waitsFor i = some k ∨ waitsFor i = none ∧ ∀ j, waitsFor j ≠ some k)
    (hafter : waitsFor' i = none) (hsame : ∀ j, j ≠ i → waitsFor' j = waitsFor j) :
    Agree (AList.erase k table) waitsFor' := by
  intro k' j
  rw [AssocMap.lookup_erase_ite]
  by_cases hj : j = i
  · subst hj
    rw [hafter]
    constructor
    · intro hlookup
      by_cases hk : k' = k
      · rw [if_pos hk] at hlookup
        cases hlookup
      · rw [if_neg hk] at hlookup
        have hwaits := (h k' j).mp hlookup
        rcases hbefore with hbefore | ⟨hbefore, -⟩
        · rw [hbefore] at hwaits
          exact absurd (Option.some.inj hwaits).symm hk
        · rw [hbefore] at hwaits
          cases hwaits
    · intro hbad
      cases hbad
  · rw [hsame j hj]
    by_cases hk : k' = k
    · rw [if_pos hk]
      constructor
      · intro hlookup
        cases hlookup
      · intro hwaits
        rw [hk] at hwaits
        rcases hbefore with hbefore | ⟨-, hbefore⟩
        · exact absurd (h.unique hwaits hbefore) hj
        · exact absurd hwaits (hbefore j)
    · rw [if_neg hk]
      exact h k' j

end Waiters
