import LiveKit.Lib.AssocMap

/-!
# The map with a time to live

`TtlMap` in `utils/ttl_map.rs`. Elements older than the time to live are removed. Points in time
and durations are numbers of nanoseconds. Each reading of the system clock is an argument: the
clock may also go backwards.
-/

namespace LiveKit.RtcSession

structure Entry (V : Type) where
  value : V
  expiresAt : ℕ

/-- The value of the entry, if it has not expired. -/
def Entry.valueAt {V : Type} (entry : Entry V) (now : ℕ) : Option V :=
  if now ≤ entry.expiresAt then some entry.value else none

theorem Entry.valueAt_of_expired {V : Type} (entry : Entry V) {now : ℕ}
    (h : entry.expiresAt < now) :
    entry.valueAt now = none := if_neg (Nat.not_le.mpr h)

structure TtlMap (K V : Type) where
  inner : AssocMap K (Entry V)
  lastCleanup : ℕ
  ttl : ℕ

namespace TtlMap

variable {K V : Type}

/-- Creates an empty map. -/
def new (ttl now : ℕ) : TtlMap K V := ⟨∅, now, ttl⟩

/-- Removes expired elements. -/
def cleanup (m : TtlMap K V) (now : ℕ) : TtlMap K V :=
  { m with
    inner := m.inner.retain fun _ entry => now ≤ entry.expiresAt
    lastCleanup := now }

/-- The pairs in an order that the map does not promise. -/
def iter (m : TtlMap K V) (now : ℕ) (order : List ℕ) : List (K × V) × TtlMap K V :=
  let m := m.cleanup now
  ((m.inner.inOrder order).map fun (key, entry) => (key, entry.value), m)

variable [DecidableEq K]

/-- Returns the value corresponding to the key. -/
def get (m : TtlMap K V) (k : K) (now : ℕ) : Option V × TtlMap K V :=
  match AList.lookup k m.inner with
  | none => (none, m)
  | some entry =>
    if entry.expiresAt < now then (none, { m with inner := AList.erase k m.inner })
    else (some entry.value, m)

/-- Sets the value for the given key. A cleanup reads the clock again. -/
def set (m : TtlMap K V) (k : K) (v : Option V) (now cleanupNow : ℕ) : TtlMap K V :=
  -- System clock anomaly detected
  if now < m.lastCleanup then m
  else
    let elapsed := now - m.lastCleanup
    let halfTtl := m.ttl / 2
    let m := if halfTtl < elapsed then m.cleanup cleanupNow else m
    match v with
    | none => { m with inner := AList.erase k m.inner }
    | some value => { m with inner := AList.insert k ⟨value, now + m.ttl⟩ m.inner }

theorem get_clock (m : TtlMap K V) (k : K) (now : ℕ) :
    (m.get k now).2.ttl = m.ttl ∧ (m.get k now).2.lastCleanup = m.lastCleanup := by
  unfold get
  split
  · exact ⟨rfl, rfl⟩
  · split <;> exact ⟨rfl, rfl⟩

variable {now cleanupNow now' : ℕ}

theorem set_clock (m : TtlMap K V) (k : K) (v : Option V) (hclock : m.lastCleanup ≤ cleanupNow) :
    (m.set k v now cleanupNow).ttl = m.ttl ∧
      (m.set k v now cleanupNow).lastCleanup ≤ cleanupNow := by
  unfold set
  by_cases hanomaly : now < m.lastCleanup
  · rw [if_pos hanomaly]
    exact ⟨rfl, hclock⟩
  · rw [if_neg hanomaly]
    dsimp only
    by_cases hcleanup : m.ttl / 2 < now - m.lastCleanup
    · rw [if_pos hcleanup]
      cases v with
      | none | some => exact ⟨rfl, Nat.le_refl _⟩
    · rw [if_neg hcleanup]
      cases v with
      | none | some => exact ⟨rfl, hclock⟩

/-! ## What the map has at a time -/

/-- The value of the key, if it has not expired. -/
def valueAt (m : TtlMap K V) (k : K) (now : ℕ) : Option V :=
  (AList.lookup k m.inner).bind fun entry => entry.valueAt now

theorem get_value (m : TtlMap K V) (k : K) (now : ℕ) : (m.get k now).1 = m.valueAt k now := by
  unfold get valueAt
  cases AList.lookup k m.inner with
  | none => rfl
  | some entry =>
    show _ = entry.valueAt now
    by_cases hexpired : entry.expiresAt < now
    · rw [entry.valueAt_of_expired hexpired]
      simp only [if_pos hexpired]
    · rw [Entry.valueAt, if_pos (Nat.not_lt.mp hexpired)]
      simp only [if_neg hexpired]

theorem valueAt_cleanup (m : TtlMap K V) (k : K) (hnow : now ≤ now') :
    (m.cleanup now).valueAt k now' = m.valueAt k now' := by
  unfold valueAt cleanup
  rw [AssocMap.lookup_retain]
  cases AList.lookup k m.inner with
  | none => rfl
  | some entry =>
    by_cases hexpired : entry.expiresAt < now
    · have hremoved : (some entry).filter (fun entry => decide (now ≤ entry.expiresAt)) = none := by
        rw [Option.filter_some_eq_none, decide_eq_true_eq]
        exact Nat.not_le.mpr hexpired
      rw [hremoved]
      exact (entry.valueAt_of_expired (by omega)).symm
    · have hkept : (some entry).filter (fun entry => decide (now ≤ entry.expiresAt))
          = some entry := by
        rw [Option.filter_some_eq_some, decide_eq_true_eq]
        exact Nat.not_lt.mp hexpired
      rw [hkept]

theorem valueAt_get (m : TtlMap K V) (k k' : K) (hnow : now ≤ now') :
    (m.get k now).2.valueAt k' now' = m.valueAt k' now' := by
  unfold get
  cases hentry : AList.lookup k m.inner with
  | none => rfl
  | some entry =>
    by_cases hexpired : entry.expiresAt < now
    · simp only [if_pos hexpired]
      unfold valueAt
      rw [AssocMap.lookup_erase_ite]
      by_cases hk : k' = k
      · rw [if_pos hk, hk, hentry]
        exact (entry.valueAt_of_expired (by omega)).symm
      · rw [if_neg hk]
    · simp only [if_neg hexpired]

/-- What is set is there for the time to live, and the values of the other keys stay. -/
theorem valueAt_set_ite (m : TtlMap K V) (k k' : K) (v : Option V) (hclock : m.lastCleanup ≤ now)
    (hnow : cleanupNow ≤ now') :
    (m.set k v now cleanupNow).valueAt k' now'
      = if k' = k then if now' ≤ now + m.ttl then v else none else m.valueAt k' now' := by
  -- a cleanup before it does not matter
  have hstore : ∀ m' : TtlMap K V, m'.ttl = m.ttl → m'.valueAt k' now' = m.valueAt k' now' →
      (match v with
        | none => { m' with inner := AList.erase k m'.inner }
        | some value => { m' with inner := AList.insert k ⟨value, now + m'.ttl⟩ m'.inner } :
          TtlMap K V).valueAt k' now'
        = if k' = k then if now' ≤ now + m.ttl then v else none else m.valueAt k' now' := by
    intro m' httl hvalue
    rw [← hvalue]
    cases v with
    | none =>
      unfold valueAt
      dsimp only
      rw [AssocMap.lookup_erase_ite, ite_self]
      by_cases hk : k' = k
      · rw [if_pos hk, if_pos hk]
        rfl
      · rw [if_neg hk, if_neg hk]
    | some value =>
      unfold valueAt
      dsimp only
      rw [AssocMap.lookup_insert_ite, httl]
      by_cases hk : k' = k
      · rw [if_pos hk, if_pos hk]
        rfl
      · rw [if_neg hk, if_neg hk]
  unfold set
  rw [if_neg (Nat.not_lt.mpr hclock)]
  dsimp only
  by_cases hcleanup : m.ttl / 2 < now - m.lastCleanup
  · rw [if_pos hcleanup]
    exact hstore (m.cleanup cleanupNow) rfl (m.valueAt_cleanup k' hnow)
  · rw [if_neg hcleanup]
    exact hstore m rfl rfl

end TtlMap

end LiveKit.RtcSession
