import LiveKit.RtcSession.TtlMap
import Mathlib.Data.List.Induction

/-!
# A map with times

The answers of a `TtlMap` are those of a map that keeps the last value that was set for each key,
with the time at which it was set: when expired entries are removed cannot be seen.
-/

namespace LiveKit.RtcSession

open List

namespace TtlMap

variable {K V : Type}

/-- Returns the number of elements in the map. -/
def len (m : TtlMap K V) (now : ℕ) : ℕ × TtlMap K V :=
  let m := m.cleanup now
  (m.inner.size, m)

/-- A call, with what it reads from the clock. -/
inductive Call (K V : Type) where
  | set (k : K) (v : Option V) (now cleanupNow : ℕ)
  | get (k : K) (now : ℕ)
  | len (now : ℕ)
  | iter (now : ℕ) (order : List ℕ)

inductive Answer (K V : Type) where
  | set
  | get (v : Option V)
  | len (n : ℕ)
  | iter (pairs : List (K × V))

def Call.readings : Call K V → List ℕ
  | .set _ _ now cleanupNow => [now, cleanupNow]
  | .get _ now => [now]
  | .len now => [now]
  | .iter now _ => [now]

/-- All that has been read from the clock. -/
def readings (start : ℕ) (calls : List (Call K V)) : List ℕ := start :: calls.flatMap Call.readings

variable [DecidableEq K]

def call (m : TtlMap K V) : Call K V → Answer K V × TtlMap K V
  | .set k v now cleanupNow => (.set, m.set k v now cleanupNow)
  | .get k now => ((m.get k now).map .get id)
  | .len now => ((m.len now).map .len id)
  | .iter now order => ((m.iter now order).map .iter id)

/-- The map after the calls. -/
def after (ttl start : ℕ) (calls : List (Call K V)) : TtlMap K V :=
  calls.foldl (fun m call => (m.call call).2) (new ttl start)

/-! ## What the calls say -/

/-- What was last set for the key, and when. -/
def lastSet (k : K) (calls : List (Call K V)) : Option (Option V × ℕ) :=
  calls.reverse.findSome? fun
    | .set k' v now _ => if k' = k then some (v, now) else none
    | _ => none

/-- The value of the key at a time. -/
def liveValue (ttl : ℕ) (calls : List (Call K V)) (k : K) (t : ℕ) : Option V :=
  (lastSet k calls).bind fun (v, t₀) => if t ≤ t₀ + ttl then v else none

/-- The answer that a call gets after the calls before it. -/
def Answers (ttl : ℕ) (before : List (Call K V)) : Call K V → Answer K V → Prop
  | .set _ _ _ _, .set => True
  | .get k now, .get v => v = liveValue ttl before k now
  | .len now, .len n =>
    ∃ keys : List K, keys.Nodup ∧ (∀ k, k ∈ keys ↔ (liveValue ttl before k now).isSome) ∧
      n = keys.length
  | .iter now _, .iter pairs =>
    (pairs.map Prod.fst).Nodup ∧ ∀ k v, (k, v) ∈ pairs ↔ liveValue ttl before k now = some v
  | _, _ => False

theorem liveValue_concat (ttl : ℕ) (calls : List (Call K V)) (call : Call K V) (k : K) (t : ℕ) :
    liveValue ttl (calls ++ [call]) k t =
      match call with
      | .set k' v now _ =>
        if k = k' then if t ≤ now + ttl then v else none else liveValue ttl calls k t
      | _ => liveValue ttl calls k t := by
  unfold liveValue lastSet
  rw [reverse_concat, findSome?_cons]
  cases call with
  | set k' v now cleanupNow =>
    dsimp only
    by_cases hk : k = k'
    · rw [if_pos hk.symm, if_pos hk]
      rfl
    · rw [if_neg (Ne.symm hk), if_neg hk]
  | get | len | iter => rfl

/-! ## What the map keeps -/

/-- From now on the map has the values that the calls say. -/
structure Refines (ttl start : ℕ) (calls : List (Call K V)) (m : TtlMap K V) : Prop where
  lives : m.ttl = ttl
  clock : ∀ t, (∀ r ∈ readings start calls, r ≤ t) → m.lastCleanup ≤ t
  value : ∀ t, (∀ r ∈ readings start calls, r ≤ t) →
    ∀ k, m.valueAt k t = liveValue ttl calls k t

theorem Refines.new (ttl start : ℕ) : Refines ttl start [] (new ttl start : TtlMap K V) where
  lives := rfl
  clock _ hread := hread start mem_cons_self
  value _ _ _ := rfl

omit [DecidableEq K] in
theorem readings_concat (start : ℕ) (calls : List (Call K V)) (call : Call K V) :
    readings start (calls ++ [call]) = readings start calls ++ call.readings := by
  unfold readings
  rw [flatMap_append, flatMap_singleton, cons_append]

/-- The call comes after the others. -/
def Later (start : ℕ) (calls : List (Call K V)) (call : Call K V) : Prop :=
  (readings start (calls ++ [call])).Pairwise (· ≤ ·)

variable {calls : List (Call K V)} {start : ℕ}

omit [DecidableEq K] in
theorem Later.le {call : Call K V} (h : Later start calls call) {now : ℕ}
    (hnow : now ∈ call.readings) : ∀ r ∈ readings start calls, r ≤ now := by
  unfold Later at h
  rw [readings_concat, pairwise_append] at h
  exact fun r hr => h.2.2 r hr now hnow

variable {m : TtlMap K V}

/-- A cleanup cannot be seen later. -/
theorem Refines.cleanup {ttl : ℕ} (h : Refines ttl start calls m) {call : Call K V} {now : ℕ}
    (hnow : call.readings = [now])
    (hlive : ∀ k t, liveValue ttl (calls ++ [call]) k t = liveValue ttl calls k t) :
    Refines ttl start (calls ++ [call]) (m.cleanup now) where
  lives := h.lives
  clock t hread := by
    rw [readings_concat, hnow] at hread
    exact hread now (mem_append_right _ (mem_singleton_self _))
  value t hread k := by
    rw [readings_concat, hnow] at hread
    have hle := hread now (mem_append_right _ (mem_singleton_self _))
    rw [m.valueAt_cleanup k hle, hlive]
    exact h.value t (fun r hr => hread r (mem_append_left _ hr)) k

theorem Refines.call {ttl : ℕ} (h : Refines ttl start calls m) {call : Call K V}
    (hlater : Later start calls call) : Refines ttl start (calls ++ [call]) (m.call call).2 := by
  have hlive := liveValue_concat ttl calls call
  cases call with
  | set k v now cleanupNow =>
    have hclock := h.clock now (hlater.le mem_cons_self)
    have hread : ∀ t, (∀ r ∈ readings start (calls ++ [.set k v now cleanupNow]), r ≤ t) →
        (∀ r ∈ readings start calls, r ≤ t) ∧ cleanupNow ≤ t := by
      intro t hread
      rw [readings_concat] at hread
      refine ⟨fun r hr => hread r (mem_append_left _ hr), hread cleanupNow ?_⟩
      exact mem_append_right _ (mem_cons_of_mem _ (mem_singleton_self _))
    have hcleanup := h.clock cleanupNow
      (hlater.le (mem_cons_of_mem _ (mem_singleton_self _)))
    obtain ⟨httl, hlast⟩ : (m.set k v now cleanupNow).ttl = m.ttl ∧
        (m.set k v now cleanupNow).lastCleanup ≤ cleanupNow := m.set_clock k v hcleanup
    refine ⟨httl.trans h.lives, fun t ht => Nat.le_trans hlast (hread t ht).2, fun t ht k' => ?_⟩
    show (m.set k v now cleanupNow).valueAt k' t = _
    rw [m.valueAt_set_ite k k' v hclock (hread t ht).2, hlive, h.lives,
      h.value t (hread t ht).1]
  | get k now =>
    obtain ⟨httl, hlast⟩ := m.get_clock k now
    have hread : ∀ t, (∀ r ∈ readings start (calls ++ [.get k now]), r ≤ t) →
        (∀ r ∈ readings start calls, r ≤ t) ∧ now ≤ t := by
      intro t hread
      rw [readings_concat] at hread
      exact ⟨fun r hr => hread r (mem_append_left _ hr),
        hread now (mem_append_right _ (mem_singleton_self _))⟩
    refine ⟨httl.trans h.lives, fun t ht => ?_, fun t ht k' => ?_⟩
    · show (m.get k now).2.lastCleanup ≤ t
      rw [hlast]
      exact h.clock t (hread t ht).1
    · show (m.get k now).2.valueAt k' t = _
      rw [m.valueAt_get k k' (hread t ht).2, hlive]
      exact h.value t (hread t ht).1 k'
  | len | iter => exact h.cleanup rfl hlive

theorem lookup_cleanup (m : TtlMap K V) (k : K) (now : ℕ) :
    (AList.lookup k (m.cleanup now).inner).map Entry.value = m.valueAt k now := by
  unfold valueAt TtlMap.cleanup
  dsimp only
  rw [AssocMap.lookup_retain]
  cases AList.lookup k m.inner with
  | none => rfl
  | some entry =>
    rw [Option.filter_some]
    show _ = entry.valueAt now
    unfold Entry.valueAt
    by_cases hlive : now ≤ entry.expiresAt
    · rw [if_pos (decide_eq_true hlive), if_pos hlive]
      rfl
    · rw [if_neg (by simpa using hlive), if_neg hlive]
      rfl

theorem Refines.call_answers {ttl : ℕ} (h : Refines ttl start calls m) {call : Call K V}
    (hlater : Later start calls call) : Answers ttl calls call (m.call call).1 := by
  cases call with
  | set k v now cleanupNow => trivial
  | get k now =>
    show (m.get k now).1 = _
    rw [m.get_value]
    exact h.value now (hlater.le mem_cons_self) k
  | len now =>
    have hvalue := h.value now (hlater.le mem_cons_self)
    refine ⟨(m.cleanup now).inner.keys, (m.cleanup now).inner.keys_nodup, fun k => ?_, rfl⟩
    rw [← hvalue, ← lookup_cleanup, Option.isSome_map, ← AList.mem_keys, AList.lookup_isSome]
  | iter now order =>
    have hvalue := h.value now (hlater.le mem_cons_self)
    have horder := AssocMap.inOrder_iterOrder (m.cleanup now).inner order
    constructor
    · show ((((m.cleanup now).inner.inOrder order).map _).map _).Nodup
      rw [map_map]
      exact horder.keys_nodup
    · intro k v
      show (k, v) ∈ ((m.cleanup now).inner.inOrder order).map _ ↔ _
      rw [← hvalue, ← lookup_cleanup, Option.map_eq_some_iff, mem_map]
      constructor
      · intro hin
        obtain ⟨⟨k', entry⟩, hentry, heq⟩ := hin
        cases heq
        exact ⟨entry, (AssocMap.mem_inOrder _ _ _ _).mp hentry, rfl⟩
      · intro hin
        obtain ⟨entry, hentry, rfl⟩ := hin
        exact ⟨(k, entry), (AssocMap.mem_inOrder _ _ _ _).mpr hentry, rfl⟩

/-! ## Runs -/

theorem refines_after (ttl start : ℕ) (calls : List (Call K V))
    (hclock : (readings start calls).Pairwise (· ≤ ·)) :
    Refines ttl start calls (after ttl start calls) := by
  induction calls using List.reverseRecOn with
  | nil => exact Refines.new ttl start
  | append_singleton calls call ih =>
    have hbefore : (readings start calls).Pairwise (· ≤ ·) := by
      rw [readings_concat, pairwise_append] at hclock
      exact hclock.1
    unfold after
    rw [foldl_concat]
    exact (ih hbefore).call hclock

/-- While the clock does not go back, every call of a run is answered as the calls before it say. -/
theorem answers_are_timed (ttl start : ℕ) (calls : List (Call K V))
    (hclock : (readings start calls).Pairwise (· ≤ ·)) :
    ∀ before call later, calls = before ++ call :: later →
      Answers ttl before call ((after ttl start before).call call).1 := by
  intro before call later hcalls
  have hsplit : readings start calls =
      readings start (before ++ [call]) ++ later.flatMap Call.readings := by
    rw [hcalls, readings_concat]
    unfold readings
    simp only [flatMap_append, flatMap_cons, cons_append, append_assoc]
  rw [hsplit, pairwise_append] at hclock
  have hlater : Later start before call := hclock.1
  have hbefore : (readings start before).Pairwise (· ≤ ·) := by
    unfold Later at hlater
    rw [readings_concat, pairwise_append] at hlater
    exact hlater.1
  exact (refines_after ttl start before hbefore).call_answers hlater

/-- Set at 1 to live for 2, read at the deadline, and counted after it. -/
theorem answers_are_timed_at_deadline :
    Answers 2 [Call.set 'a' (some 5) 1 1] (.get 'a' 3)
      ((after 2 0 [Call.set 'a' (some 5) 1 1]).call (.get 'a' 3)).1 :=
  answers_are_timed 2 0 [Call.set 'a' (some 5) 1 1, .get 'a' 3, .len 4] (by decide)
    [.set 'a' (some 5) 1 1] (.get 'a' 3) [.len 4] rfl

end TtlMap

end LiveKit.RtcSession
