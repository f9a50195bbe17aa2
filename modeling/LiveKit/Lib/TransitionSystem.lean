import Mathlib.Data.List.Basic
import Mathlib.Order.Basic

/-!
# Labelled transition systems with an executable step

A system is a partial step function `step : σ → α → Option σ`: in state `s` the label `a`
is possible when `step s a` is some state. Interleaving is the choice of the labels, so a
run is a list of labels, and a concrete run can be evaluated.

* `exec step s as` performs the labels of `as` in order.
* `Reachable step init s` : some run leads from `init` to `s`.
* `exec_invariant` : the induction rule for invariants.
* `trace step out s as` : what the steps of the run put on record, and `trace_invariant`.
* `EachStep step Q s as` : every step of the run has the property `Q`, with the matching
  rules `eachStep_of_invariant`, `exec_invariant_of_eachStep` and `eachStep_iff`.
* `Always step out T init run` : `T` holds in every state of the run, of the state and what is on
  record there; `always_iff_eachStep` says by which steps it can be broken. `Throughout` is the
  same for properties of the state alone.
* `EachStepOn step out Q h s as` : as `EachStep`, for conditions that look at what is on record,
  with `EachStepOn.of_invariant` and `always_of_eachStepOn`.
* `exec_length_le` : runs of a class of labels that shrinks a measure are bounded by it.
* `exists_quiescent` : a class of labels that shrinks a measure can be run to exhaustion.
-/

namespace TransitionSystem

open List Option

variable {σ α : Type} (step : σ → α → Option σ)

/-! ## Runs -/

/-- Perform the labels in order; `none` if one of them is not possible when its turn comes. -/
def exec (s : σ) : List α → Option σ
  | [] => some s
  | a :: as => (step s a).bind fun s' => exec s' as

@[simp] theorem exec_nil (s : σ) : exec step s [] = some s := rfl

theorem exec_cons (s : σ) (a : α) (as : List α) :
    exec step s (a :: as) = (step s a).bind fun s' => exec step s' as := rfl

variable {step}

variable {s t : σ} {a : α} {as bs : List α} {c : Prop} {R : σ → α → σ → Prop}

theorem exec_cons_eq_some :
    exec step s (a :: as) = some t ↔ ∃ s', step s a = some s' ∧ exec step s' as = some t := by
  rw [exec_cons, bind_eq_some_iff]

/-- A run splits at any point into a first and a second run. -/
theorem exec_append :
    exec step s (as ++ bs) = some t ↔
      ∃ m, exec step s as = some m ∧ exec step m bs = some t := by
  induction as generalizing s with
  | nil => simp
  | cons a as ih =>
    rw [cons_append, exec_cons_eq_some]
    constructor
    · rintro ⟨s', hs', hrest⟩
      obtain ⟨m, hm, ht⟩ := ih.mp hrest
      exact ⟨m, exec_cons_eq_some.mpr ⟨s', hs', hm⟩, ht⟩
    · rintro ⟨m, hm, ht⟩
      obtain ⟨s', hs', hm'⟩ := exec_cons_eq_some.mp hm
      exact ⟨s', hs', ih.mpr ⟨m, hm', ht⟩⟩

/-- A step with a guard. -/
theorem of_guard [Decidable c] (h : (if c then some s else none) = some t) :
    c ∧ s = t := by
  rw [ite_none_right_eq_some, some.injEq] at h
  exact h

theorem of_unless [Decidable c] (h : (if c then none else some s) = some t) :
    ¬ c ∧ s = t := by
  rw [ite_none_left_eq_some, some.injEq] at h
  exact h

theorem exec_single (h : step s a = some t) : exec step s [a] = some t :=
  exec_cons_eq_some.mpr ⟨t, h, rfl⟩

/-! ## Invariants -/

variable {I : σ → Prop}

/-- What holds at the start and is kept by every step holds at the end of every run. -/
theorem exec_invariant (hstep : ∀ s a s', I s → step s a = some s' → I s') (hs : I s)
    (h : exec step s as = some t) : I t := by
  induction as generalizing s with
  | nil =>
    rw [exec_nil, some.injEq] at h
    exact h ▸ hs
  | cons a as ih =>
    obtain ⟨s', hs', hrest⟩ := exec_cons_eq_some.mp h
    exact ih (hstep s a s' hs hs') hrest

/-- What is kept by the steps of a class of labels holds at the end of every run of them. -/
theorem exec_invariant_of_labels {P : α → Prop}
    (hstep : ∀ s a s', I s → P a → step s a = some s' → I s') (hs : I s) (hP : ∀ a ∈ as, P a)
    (h : exec step s as = some t) : I t := by
  induction as generalizing s with
  | nil =>
    rw [exec_nil, some.injEq] at h
    exact h ▸ hs
  | cons a as ih =>
    obtain ⟨s', hs', hrest⟩ := exec_cons_eq_some.mp h
    have ha := hP a mem_cons_self
    exact ih (hstep s a s' hs ha hs') (fun b hb => hP b (mem_cons_of_mem _ hb)) hrest

/-! ## Records of a run -/

/-- What the steps of a run put on record, one after the other. -/
def trace {β : Type} (step : σ → α → Option σ) (out : σ → α → List β) (s : σ) : List α → List β
  | [] => []
  | a :: as =>
    match step s a with
    | none => []
    | some s' => out s a ++ trace step out s' as

variable {β : Type}

theorem trace_cons {out : σ → α → List β} {s s' : σ} {a : α} (h : step s a = some s')
    (as : List α) : trace step out s (a :: as) = out s a ++ trace step out s' as := by
  rw [trace, h]

/-- The rule for invariants that speak of what is on record. -/
theorem trace_invariant {out : σ → α → List β} {I : List β → σ → Prop}
    (hstep : ∀ h s a s', I h s → step s a = some s' → I (h ++ out s a) s') {h : List β} (hs : I h s)
    (hexec : exec step s as = some t) :
    I (h ++ trace step out s as) t := by
  induction as generalizing h s with
  | nil =>
    rw [exec_nil, some.injEq] at hexec
    rw [trace, append_nil, ← hexec]
    exact hs
  | cons a as ih =>
    obtain ⟨s', hs', hrest⟩ := exec_cons_eq_some.mp hexec
    rw [trace_cons hs', ← append_assoc]
    exact ih (hstep h s a s' hs hs') hrest

/-- What is on record stays there. -/
theorem trace_prefix {out : σ → α → List β} (s : σ) (before after : List α) :
    trace step out s before <+: trace step out s (before ++ after) := by
  induction before generalizing s with
  | nil => exact nil_prefix
  | cons a before ih =>
    rw [cons_append, trace, trace]
    cases step s a with
    | none => exact nil_prefix
    | some s' => exact (prefix_append_right_inj _).mpr (ih s')

/-! ## Runs whose steps all have a property -/

/-- Every step of the run from `s` has the property `Q`, of the state before it, its label and
the state after it. -/
def EachStep (step : σ → α → Option σ) (Q : σ → α → σ → Prop) (s : σ) : List α → Prop
  | [] => True
  | a :: as => ∀ s', step s a = some s' → Q s a s' ∧ EachStep step Q s' as

theorem EachStep.cons {Q : σ → α → σ → Prop} {s t : σ} {a : α} {as : List α}
    (hstep : step s a = some t) (hQ : Q s a t) (hrest : EachStep step Q t as) :
    EachStep step Q s (a :: as) := by
  intro s' hs'
  rw [hstep, some.injEq] at hs'
  exact hs' ▸ ⟨hQ, hrest⟩

theorem EachStep.append {Q : σ → α → σ → Prop} {m : σ} (h : EachStep step Q s (as ++ bs))
    (hm : exec step s as = some m) :
    EachStep step Q s as ∧ EachStep step Q m bs := by
  induction as generalizing s with
  | nil =>
    rw [exec_nil, some.injEq] at hm
    subst hm
    exact ⟨trivial, h⟩
  | cons a as ih =>
    obtain ⟨s', hs', hm'⟩ := exec_cons_eq_some.mp hm
    obtain ⟨hQ, hrest⟩ := h s' hs'
    obtain ⟨hleft, hright⟩ := ih hrest hm'
    refine ⟨?_, hright⟩
    intro s'' hs''
    rw [hs', some.injEq] at hs''
    exact hs'' ▸ ⟨hQ, hleft⟩

/-- An invariant of the steps that meet a condition holds at the end of every run whose steps
all meet it. -/
theorem exec_invariant_of_eachStep (I : σ → Prop) {Q : σ → α → σ → Prop}
    (hstep : ∀ s a s', I s → step s a = some s' → Q s a s' → I s') (hs : I s)
    (hok : EachStep step Q s as) (h : exec step s as = some t) : I t := by
  induction as generalizing s with
  | nil =>
    rw [exec_nil, some.injEq] at h
    exact h ▸ hs
  | cons a as ih =>
    obtain ⟨s', hs', hrest⟩ := exec_cons_eq_some.mp h
    obtain ⟨hQ, hok'⟩ := hok s' hs'
    exact ih (hstep s a s' hs hs' hQ) hok' hrest

/-- A condition on the steps under which an invariant is kept, together with the invariant,
gives what each step of a run does. -/
theorem EachStep.of_invariant {Q : σ → α → σ → Prop}
    (hstep : ∀ s, ∀ a ∈ as, ∀ s', I s → step s a = some s' → Q s a s' → I s' ∧ R s a s') (hs : I s)
    (hok : EachStep step Q s as) : EachStep step R s as := by
  induction as generalizing s with
  | nil => trivial
  | cons a as ih =>
    intro s' hs'
    obtain ⟨hQ, hok'⟩ := hok s' hs'
    obtain ⟨hI', hR⟩ := hstep s a mem_cons_self s' hs hs' hQ
    exact ⟨hR, ih (fun t b hb => hstep t b (mem_cons_of_mem a hb)) hI' hok'⟩

/-- An invariant that gives what each step does gives what each step of a run does. -/
theorem eachStep_of_invariant
    (hstep : ∀ s, ∀ a ∈ as, ∀ s', I s → step s a = some s' → I s' ∧ R s a s') (hs : I s) :
    EachStep step R s as := by
  induction as generalizing s with
  | nil => trivial
  | cons a as ih =>
    intro s' hs'
    obtain ⟨hI', hR⟩ := hstep s a mem_cons_self s' hs hs'
    exact ⟨hR, ih (fun t b hb => hstep t b (mem_cons_of_mem a hb)) hI'⟩

/-- Two properties of a step that agree as long as the invariant holds, and that keep it,
agree over whole runs. -/
theorem eachStep_iff {Q : σ → α → σ → Prop}
    (hstep : ∀ s, ∀ a ∈ as, ∀ s', I s → step s a = some s' → (Q s a s' ↔ R s a s'))
    (hinv : ∀ s, ∀ a ∈ as, ∀ s', I s → step s a = some s' → Q s a s' → I s') (hs : I s) :
    EachStep step Q s as ↔ EachStep step R s as := by
  constructor
  · intro h
    refine EachStep.of_invariant ?_ hs h
    intro s a ha s' hs hs' hQ
    exact ⟨hinv s a ha s' hs hs' hQ, (hstep s a ha s' hs hs').mp hQ⟩
  · intro h
    refine EachStep.of_invariant ?_ hs h
    intro s a ha s' hs hs' hR
    have hQ := (hstep s a ha s' hs hs').mpr hR
    exact ⟨hinv s a ha s' hs hs' hQ, hQ⟩

/-! ## Properties of every state of a run -/

/-- In every state of the run, `T` holds of what is on record and of the state. -/
def Always {β : Type} (step : σ → α → Option σ) (out : σ → α → List β) (T : List β → σ → Prop)
    (init : σ) (run : List α) : Prop :=
  ∀ before after s, run = before ++ after → exec step init before = some s →
    T (trace step out init before) s

/-- Every step of the run has the property `Q`, of what is on record before it, the state before it,
its label and the state after it; `h` is on record already. -/
def EachStepOn {β : Type} (step : σ → α → Option σ) (out : σ → α → List β)
    (Q : List β → σ → α → σ → Prop) (h : List β) (s : σ) : List α → Prop
  | [] => True
  | a :: as => ∀ s', step s a = some s' → Q h s a s' ∧ EachStepOn step out Q (h ++ out s a) s' as

theorem eachStepOn_iff_eachStep {out : σ → α → List β} {Q : σ → α → σ → Prop} (h : List β) (s : σ)
    (as : List α) :
    EachStepOn step out (fun _ => Q) h s as ↔ EachStep step Q s as := by
  induction as generalizing h s with
  | nil => exact Iff.rfl
  | cons a as ih =>
    rw [EachStepOn, EachStep]
    refine forall_congr' fun s' => forall_congr' fun _ => ?_
    rw [ih]

/-- A condition on the steps under which an invariant is kept, together with the invariant, gives
what each step of a run does. -/
theorem EachStepOn.of_invariant {out : σ → α → List β} {I : List β → σ → Prop}
    {Q R : List β → σ → α → σ → Prop}
    (hstep : ∀ h s a s', I h s → step s a = some s' → Q h s a s' → I (h ++ out s a) s' ∧ R h s a s')
    {h : List β} {s : σ} (hs : I h s) {as : List α} (hQ : EachStepOn step out Q h s as) :
    EachStepOn step out R h s as := by
  induction as generalizing h s with
  | nil => trivial
  | cons a as ih =>
    intro s' hs'
    obtain ⟨hQ', hrest⟩ := hQ s' hs'
    obtain ⟨hI', hR⟩ := hstep h s a s' hs hs' hQ'
    exact ⟨hR, ih hI' hrest⟩

section Always

variable {β : Type} {out : σ → α → List β} {I T : List β → σ → Prop}
  {Q : List β → σ → α → σ → Prop}

variable {init : σ} {run : List α}

/-- A property that follows from an invariant. -/
theorem always_of_invariant (hT : ∀ h s, I h s → T h s)
    (hstep : ∀ h s a s', I h s → step s a = some s' → I (h ++ out s a) s') (hinit : I [] init)
    (run : List α) : Always step out T init run := by
  intro before after s _ hexec
  have hinv := trace_invariant hstep hinit hexec
  rw [nil_append] at hinv
  exact hT _ s hinv

/-- A property that follows from an invariant of the steps that meet a condition. -/
theorem always_of_eachStepOn (hT : ∀ h s, I h s → T h s)
    (hstep : ∀ h s a s', I h s → step s a = some s' → Q h s a s' → I (h ++ out s a) s')
    (hinit : I [] init) (hQ : EachStepOn step out Q [] init run) :
    Always step out T init run := by
  have hfrom : ∀ (run : List α) (h : List β) (s : σ), I h s → EachStepOn step out Q h s run →
      ∀ before after t, run = before ++ after → exec step s before = some t →
        T (h ++ trace step out s before) t := by
    intro run
    induction run with
    | nil =>
      intro h s hI _ before after t hrun ht
      obtain ⟨rfl, rfl⟩ := append_eq_nil_iff.mp hrun.symm
      rw [exec_nil, some.injEq] at ht
      rw [trace, append_nil, ← ht]
      exact hT h s hI
    | cons a as ih =>
      intro h s hI heach before after t hrun ht
      cases before with
      | nil =>
        rw [exec_nil, some.injEq] at ht
        rw [trace, append_nil, ← ht]
        exact hT h s hI
      | cons b before =>
        obtain ⟨rfl, hrest⟩ := List.cons.inj hrun
        obtain ⟨s', hs', ht'⟩ := exec_cons_eq_some.mp ht
        obtain ⟨hQ, heach'⟩ := heach s' hs'
        rw [trace_cons hs', ← append_assoc]
        exact ih _ s' (hstep h s a s' hI hs' hQ) heach' before after t hrest ht'
  exact hfrom run [] init hinit hQ

/-- Two properties that agree wherever the invariant holds, along runs that keep it. -/
theorem always_congr {T' : List β → σ → Prop} (hT : ∀ h s, I h s → (T h s ↔ T' h s))
    (hstep : ∀ h s a s', I h s → step s a = some s' → Q h s a s' → I (h ++ out s a) s')
    (hinit : I [] init) (hQ : EachStepOn step out Q [] init run) :
    Always step out T init run ↔ Always step out T' init run := by
  have hinv : Always step out I init run := always_of_eachStepOn (fun _ _ h => h) hstep hinit hQ
  constructor
  · intro h before after s hrun hexec
    exact (hT _ s (hinv before after s hrun hexec)).mp (h before after s hrun hexec)
  · intro h before after s hrun hexec
    exact (hT _ s (hinv before after s hrun hexec)).mpr (h before after s hrun hexec)

/-- Where an invariant implies a property, and every step either meets a condition and keeps the
invariant, or does not meet it and breaks the property, the property holds in all states of the
runs whose steps all meet the condition, and in no others. -/
theorem always_iff_eachStepOn (hT : ∀ h s, I h s → T h s)
    (hstep : ∀ h s a s', I h s → step s a = some s' →
      Q h s a s' ∧ I (h ++ out s a) s' ∨ ¬ Q h s a s' ∧ ¬ T (h ++ out s a) s')
    {init : σ} (hinit : I [] init) (run : List α) :
    Always step out T init run ↔ EachStepOn step out Q [] init run := by
  have hkeep : ∀ h s a s', I h s → step s a = some s' → Q h s a s' → I (h ++ out s a) s' := by
    intro h s a s' hI hs' hQ
    rcases hstep h s a s' hI hs' with ⟨-, hI'⟩ | ⟨hnot, -⟩
    · exact hI'
    · exact absurd hQ hnot
  refine ⟨?_, always_of_eachStepOn hT hkeep hinit⟩
  -- the run may go on from a state with something on record
  have hfrom : ∀ (run : List α) (h : List β) (s : σ), I h s →
      (∀ before after t, run = before ++ after → exec step s before = some t →
        T (h ++ trace step out s before) t) → EachStepOn step out Q h s run := by
    intro run
    induction run with
    | nil => exact fun _ _ _ _ => trivial
    | cons a as ih =>
      intro h s hI halways s' hs'
      rcases hstep h s a s' hI hs' with ⟨hQ, hI'⟩ | ⟨-, hnot⟩
      · refine ⟨hQ, ih _ s' hI' ?_⟩
        intro before after t hrun ht
        have hnext := halways (a :: before) after t (by rw [hrun, cons_append])
          (exec_cons_eq_some.mpr ⟨s', hs', ht⟩)
        rw [trace_cons hs', ← append_assoc] at hnext
        exact hnext
      · have hfirst := halways [a] as s' rfl (exec_single hs')
        rw [trace_cons hs', trace, append_nil] at hfirst
        exact absurd hfirst hnot
  exact hfrom run [] init hinit

/-- The same for a condition that does not look at what is on record. -/
theorem always_iff_eachStep {Q : σ → α → σ → Prop} (hT : ∀ h s, I h s → T h s)
    (hstep : ∀ h s a s', I h s → step s a = some s' →
      Q s a s' ∧ I (h ++ out s a) s' ∨ ¬ Q s a s' ∧ ¬ T (h ++ out s a) s')
    {init : σ} (hinit : I [] init) (run : List α) :
    Always step out T init run ↔ EachStep step Q init run := by
  rw [always_iff_eachStepOn (Q := fun _ => Q) hT hstep hinit, eachStepOn_iff_eachStep]

end Always

instance decidableEachStepOn {β : Type} {out : σ → α → List β} {Q : List β → σ → α → σ → Prop}
    [∀ h s a s', Decidable (Q h s a s')] (h : List β) (s : σ) :
    (as : List α) → Decidable (EachStepOn step out Q h s as)
  | [] => isTrue trivial
  | a :: as =>
    match hs : step s a with
    | none => isTrue fun s' hs' => by
        rw [hs] at hs'
        cases hs'
    | some t =>
      have : Decidable (EachStepOn step out Q (h ++ out s a) t as) :=
        decidableEachStepOn (h ++ out s a) t as
      decidable_of_iff (Q h s a t ∧ EachStepOn step out Q (h ++ out s a) t as) <| by
        constructor
        · intro hand s' hs'
          rw [hs, some.injEq] at hs'
          exact hs' ▸ hand
        · intro hall
          exact hall t hs

/-- In every state of the run, `T` holds of the state. -/
def Throughout (step : σ → α → Option σ) (T : σ → Prop) (init : σ) (run : List α) : Prop :=
  ∀ before after s, run = before ++ after → exec step init before = some s → T s

theorem throughout_iff_eachStep {I T : σ → Prop} {Q : σ → α → σ → Prop} (hT : ∀ s, I s → T s)
    (hstep : ∀ s a s', I s → step s a = some s' → Q s a s' ∧ I s' ∨ ¬ Q s a s' ∧ ¬ T s')
    {init : σ} (hinit : I init) (run : List α) :
    Throughout step T init run ↔ EachStep step Q init run := by
  -- nothing is put on record
  let out : σ → α → List Empty := fun _ _ => []
  show Always step out (fun _ => T) init run ↔ EachStep step Q init run
  exact always_iff_eachStep (I := fun _ => I) (fun _ => hT) (fun _ => hstep) hinit run

/-- An invariant of the steps that meet a condition holds in every state of a run whose steps all
meet it. -/
theorem throughout_of_eachStep {I T : σ → Prop} {Q : σ → α → σ → Prop} (hT : ∀ s, I s → T s)
    (hstep : ∀ s a s', I s → step s a = some s' → Q s a s' → I s')
    {init : σ} (hinit : I init) {run : List α} (h : EachStep step Q init run) :
    Throughout step T init run := by
  intro before after s happ hexec
  rw [happ] at h
  exact hT s (exec_invariant_of_eachStep I hstep hinit (h.append hexec).1 hexec)

/-- A property that can be evaluated at each step can be evaluated over a run. -/
instance decidableEachStep {Q : σ → α → σ → Prop} [∀ s a s', Decidable (Q s a s')] (s : σ) :
    (as : List α) → Decidable (EachStep step Q s as)
  | [] => isTrue trivial
  | a :: as =>
    match hs : step s a with
    | none => isTrue fun s' hs' => by
        rw [hs] at hs'
        cases hs'
    | some t =>
      have : Decidable (EachStep step Q t as) := decidableEachStep t as
      decidable_of_iff (Q s a t ∧ EachStep step Q t as) <| by
        constructor
        · intro h s' hs'
          rw [hs, some.injEq] at hs'
          exact hs' ▸ h
        · intro h
          exact h t hs

/-! ## Enabled labels and progress -/

/-- The label is possible in the state. -/
def Enabled (step : σ → α → Option σ) (s : σ) (a : α) : Prop := ∃ s', step s a = some s'

theorem not_enabled_iff {s : σ} {a : α} : ¬ Enabled step s a ↔ step s a = none := by
  rw [Enabled, not_exists]
  constructor
  · intro h
    cases hs : step s a with
    | none => rfl
    | some s' => exact absurd hs (h s')
  · intro h s' hs'
    rw [h] at hs'
    cases hs'

/-- Where every label of the class `P` makes the measure smaller, a run of them is no longer than
the measure is large. -/
theorem exec_length_le {P : α → Prop} (μ : σ → ℕ)
    (hμ : ∀ s a s', P a → step s a = some s' → μ s' < μ s) {s t : σ} {as : List α}
    (hP : ∀ a ∈ as, P a) (h : exec step s as = some t) : as.length ≤ μ s := by
  induction as generalizing s with
  | nil => exact Nat.zero_le _
  | cons a as ih =>
    obtain ⟨s', hs', hrest⟩ := exec_cons_eq_some.mp h
    have hlt := hμ s a s' (hP a mem_cons_self) hs'
    have hle := ih (fun b hb => hP b (mem_cons_of_mem a hb)) hrest
    rw [length_cons]
    omega

/-- When every label of the class `P` makes the measure smaller, the class can be run
until none of its labels is possible any more. -/
theorem exists_quiescent {P : α → Prop} (μ : σ → ℕ)
    (hinv : ∀ s a s', I s → P a → step s a = some s' → I s')
    (hμ : ∀ s a s', I s → P a → step s a = some s' → μ s' < μ s) (s : σ) (hs : I s) :
    ∃ as t, (∀ a ∈ as, P a) ∧ exec step s as = some t ∧ I t ∧
      ∀ a, P a → ¬ Enabled step t a := by
  induction hn : μ s using Nat.strongRecOn generalizing s with
  | ind n ih =>
    by_cases hq : ∀ a, P a → ¬ Enabled step s a
    · exact ⟨[], s, by simp, rfl, hs, hq⟩
    · push Not at hq
      obtain ⟨a, ha, s', hs'⟩ := hq
      have hlt : μ s' < n := hn ▸ hμ s a s' hs ha hs'
      obtain ⟨as, t, hP, hexec, ht, hquiet⟩ := ih (μ s') hlt s' (hinv s a s' hs ha hs') rfl
      refine ⟨a :: as, t, ?_, exec_cons_eq_some.mpr ⟨s', hs', hexec⟩, ht, hquiet⟩
      intro b hb
      rcases mem_cons.mp hb with rfl | hb
      · exact ha
      · exact hP b hb

end TransitionSystem
