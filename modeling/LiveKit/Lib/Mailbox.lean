import LiveKit.Lib.TransitionSystem
import Mathlib.Data.List.Perm.Subperm

/-!
# Items that must not get lost on their way

The steps of a system bring items, take items, and hold the others in between. Nothing is lost if
all that was brought is held or was taken. Where every step either keeps this or loses something
for good, nothing is ever lost exactly when every step keeps it.
-/

namespace TransitionSystem

open List

section Mailbox

variable {σ α β : Type} (step : σ → α → Option σ) (bring take : σ → α → List β)
  (held : σ → List β)

/-- After the run, all that was brought is held or was taken. -/
def NothingLost (init : σ) (run : List α) (s : σ) : Prop :=
  (trace step bring init run).Subperm (trace step take init run ++ held s)

/-- After every part of the run, all that was brought is held or was taken. -/
def NeverLost (init : σ) (run : List α) : Prop :=
  ∀ before after s, run = before ++ after → exec step init before = some s →
    NothingLost step bring take held init before s

variable {step bring take held}

theorem neverLost_iff {Q : σ → α → σ → Prop}
    (hstep : ∀ s a s', step s a = some s' →
      Q s a s' ∧ held s ++ bring s a = take s a ++ held s' ∨
      ¬ Q s a s' ∧ (take s a ++ held s').length < (held s ++ bring s a).length)
    {init : σ} (hinit : held init = []) (run : List α) :
    NeverLost step bring take held init run ↔ EachStep step Q init run := by
  -- the run may go on from a state that holds what was brought and not taken before
  have hfrom : ∀ (run : List α) (s : σ) (brought taken : List β), brought = taken ++ held s →
      ((∀ before after t, run = before ++ after → exec step s before = some t →
        (brought ++ trace step bring s before).Subperm
          (taken ++ trace step take s before ++ held t)) ↔ EachStep step Q s run) := by
    intro run
    induction run with
    | nil =>
      intro s brought taken hsame
      refine ⟨fun _ => trivial, ?_⟩
      intro _ before after t hrun ht
      obtain ⟨rfl, rfl⟩ := append_eq_nil_iff.mp hrun.symm
      rw [exec_nil, Option.some.injEq] at ht
      subst ht
      simp only [trace, append_nil]
      rw [hsame]
    | cons a as ih =>
      intro s brought taken hsame
      constructor
      · intro hlost s' hs'
        have hfirst := hlost [a] as s' rfl (exec_single hs')
        rw [trace_cons hs', trace_cons hs'] at hfirst
        simp only [trace, append_nil] at hfirst
        rcases hstep s a s' hs' with ⟨hQ, heq⟩ | ⟨-, hlt⟩
        · have hsame' : brought ++ bring s a = (taken ++ take s a) ++ held s' := by
            rw [hsame, append_assoc, heq, append_assoc]
          refine ⟨hQ, (ih s' _ _ hsame').mp ?_⟩
          intro before after t hrun ht
          have hnext := hlost (a :: before) after t (by rw [hrun, cons_append])
            (exec_cons_eq_some.mpr ⟨s', hs', ht⟩)
          rw [trace_cons hs', trace_cons hs', ← append_assoc, ← append_assoc] at hnext
          exact hnext
        · -- more was brought than there is
          have hle := hfirst.length_le
          simp only [hsame, length_append] at hle hlt
          omega
      · intro heach before after t hrun ht
        cases before with
        | nil =>
          rw [exec_nil, Option.some.injEq] at ht
          subst ht
          simp only [trace, append_nil]
          rw [hsame]
        | cons b before =>
          obtain ⟨rfl, hrest⟩ := List.cons.inj hrun
          obtain ⟨s', hs', ht'⟩ := exec_cons_eq_some.mp ht
          obtain ⟨hQ, heach'⟩ := heach s' hs'
          have heq : held s ++ bring s a = take s a ++ held s' := by
            rcases hstep s a s' hs' with ⟨-, heq⟩ | ⟨hnot, -⟩
            · exact heq
            · exact absurd hQ hnot
          have hsame' : brought ++ bring s a = (taken ++ take s a) ++ held s' := by
            rw [hsame, append_assoc, heq, append_assoc]
          rw [trace_cons hs', trace_cons hs', ← append_assoc, ← append_assoc]
          exact (ih s' _ _ hsame').mpr heach' before after t hrest ht'
  have hall := hfrom run init [] [] (by rw [hinit]; rfl)
  simpa only [NeverLost, NothingLost, nil_append] using hall

/-- What is lost when more was brought than there is. -/
theorem not_neverLost {init s : σ} {run : List α} (hexec : exec step init run = some s)
    (hlt : (trace step take init run ++ held s).length < (trace step bring init run).length) :
    ¬ NeverLost step bring take held init run := by
  intro hnever
  have hle := (hnever run [] s (append_nil run).symm hexec).length_le
  omega

end Mailbox

/-! ## Queues with a bound -/

/-- What a step does to a bounded queue, as far as the items with the property `p` are concerned:
what is brought, what is taken, and what must hold for nothing to get lost. -/
inductive QueueStep {β : Type} (p : β → Bool) (capacity : ℕ) (queue queue' : List β) :
    List β → List β → Prop → Prop where
  | same (h : queue'.filter p = queue.filter p) : QueueStep p capacity queue queue' [] [] True
  | take (e : β) (h : queue = e :: queue') :
    QueueStep p capacity queue queue' [] ([e].filter p) True
  | put (e : β) (h : queue' = if queue.length < capacity then queue ++ [e] else queue) :
    QueueStep p capacity queue queue' ([e].filter p) [] (p e = true → queue.length < capacity)
  | drop (h : queue' = []) : QueueStep p capacity queue queue' [] [] (∀ e ∈ queue, p e = false)

/-- An item is offered, and put if the receiver is there and the queue has a place for it. -/
theorem QueueStep.offer {β : Type} {p : β → Bool} {capacity : ℕ} {queue queue' : List β}
    {ended : Prop} [Decidable ended] (e : β)
    (h : queue' = if ¬ ended ∧ queue.length < capacity then queue ++ [e] else queue) :
    ∃ P, (P ↔ (p e = true → ¬ ended → queue.length < capacity)) ∧
      QueueStep p capacity queue queue' (if ended then [] else [e].filter p) [] P := by
  by_cases hended : ended
  · rw [if_neg (fun hc => hc.1 hended)] at h
    rw [if_pos hended, h]
    exact ⟨True, (iff_true_intro fun _ hrunning => absurd hended hrunning).symm, .same rfl⟩
  · rw [if_neg hended]
    refine ⟨p e = true → queue.length < capacity, ?_, ?_⟩
    · exact ⟨fun hroom hp _ => hroom hp, fun hroom hp => hroom hp hended⟩
    · apply QueueStep.put
      rw [h]
      by_cases hroom : queue.length < capacity
      · rw [if_pos ⟨hended, hroom⟩, if_pos hroom]
      · rw [if_neg fun hc => hroom hc.2, if_neg hroom]

theorem QueueStep.balance {β : Type} {p : β → Bool} {capacity : ℕ}
    {queue queue' brought taken : List β} {P : Prop}
    (h : QueueStep p capacity queue queue' brought taken P) :
    P ∧ queue.filter p ++ brought = taken ++ queue'.filter p ∨
      ¬ P ∧ (taken ++ queue'.filter p).length < (queue.filter p ++ brought).length := by
  cases h with
  | same h =>
    rw [h, append_nil, nil_append]
    exact .inl ⟨trivial, rfl⟩
  | take e h =>
    rw [h, ← filter_append, singleton_append, append_nil]
    exact .inl ⟨trivial, rfl⟩
  | put e h =>
    rw [nil_append]
    by_cases hroom : queue.length < capacity
    · rw [if_pos hroom] at h
      rw [h, filter_append]
      exact .inl ⟨fun _ => hroom, rfl⟩
    · rw [if_neg hroom] at h
      rw [h]
      cases he : p e with
      | false =>
        rw [filter_cons_of_neg (by simp [he]), filter_nil, append_nil]
        exact .inl ⟨by simp, rfl⟩
      | true =>
        rw [filter_cons_of_pos he, length_append]
        exact .inr ⟨fun hplace => hroom (hplace rfl), Nat.lt_succ_self _⟩
  | drop h =>
    rw [h, append_nil]
    by_cases hnone : queue.filter p = []
    · refine .inl ⟨?_, hnone⟩
      intro e he
      simpa using filter_eq_nil_iff.mp hnone e he
    · refine .inr ⟨?_, length_pos_of_ne_nil hnone⟩
      intro hfalse
      apply hnone
      rw [filter_eq_nil_iff]
      intro e he
      rw [hfalse e he]
      exact Bool.false_ne_true

end TransitionSystem
