import LiveKit.DataTrack.Local.Shutdown

/-!
# Queries

A query that has found a place in the queue stays there until the manager answers it, or drops the
queue when it ends, which is an answer too.
-/

namespace LiveKit.DataTrack.Local

open AssocMap TransitionSystem

namespace State

variable {s s' : State} {query : QueryId}

/-- The query has been answered. -/
def Answered (s : State) (query : QueryId) : Prop := query ∈ s.answers.map Prod.fst

instance (s : State) (query : QueryId) : Decidable (s.Answered query) :=
  inferInstanceAs (Decidable (_ ∈ _))

/-- The query has been answered, or the manager will come to it. -/
def Asked (s : State) (query : QueryId) : Prop :=
  s.Answered query ∨ s.mode ≠ .ended ∧ .queryPublished ⟨query⟩ ∈ s.queue

theorem Answered.mono (h : s.Answered query) (hgrows : s.answers <+: s'.answers) :
    s'.Answered query := by
  unfold Answered at h ⊢
  exact (hgrows.map Prod.fst).subset h

/-! ## What a step means for a query -/

/-- The manager answers the query that it takes from the queue. -/
theorem eventTurn_answers {turn : Turn} {event : InputEvent} (h : EventTurn s turn event s') :
    s.answers <+: s'.answers ∧ ∀ query, event = .queryPublished ⟨query⟩ → s'.Answered query := by
  cases h with
  | answer event published =>
    refine ⟨List.prefix_append _ _, ?_⟩
    intro query hevent
    cases hevent
    show query ∈ (s.answers ++ [(query, _)]).map Prod.fst
    rw [List.map_append]
    exact List.mem_append_right _ (List.mem_singleton_self query)
  | _ => exact ⟨List.prefix_rfl, nofun⟩

/-- What a turn of the manager means for a query. -/
theorem asked_manager {turn : Turn} (hstep : s.managerStep turn = some s')
    (h : s.Asked query) : s'.Asked query := by
  cases managerTurn hstep with
  | event event rest hmode hqueue _ hturn =>
    obtain ⟨hgrows, hanswered⟩ := eventTurn_answers hturn
    rcases h with h | ⟨-, h⟩
    · exact .inl (Answered.mono (s := { s with queue := rest }) h hgrows)
    · rw [hqueue] at h
      -- the query is the one that is taken, or it waits on
      rcases List.mem_cons.mp h with heq | h
      · exact .inl (hanswered query heq.symm)
      · refine .inr ⟨(eventTurn_mode (by exact hmode) hturn).2, ?_⟩
        rw [(eventTurn_queue hturn).1]
        exact h
  | stopEnd hmode requests' answers' hrequests hgrows hanswered =>
    rcases h with h | ⟨-, h⟩
    · exact .inl (h.mono hgrows)
    · exact .inl (hanswered query h)
  | _ => exact h.imp id fun ⟨_, h⟩ => ⟨nofun, h⟩

/-- A query that has been asked stays so. -/
theorem asked_step {a : Action} (hstep : s.step a = some s') (h : s.Asked query) :
    s'.Asked query := by
  by_cases ha : a.isManager = false
  · rcases h with h | ⟨hmode, h⟩
    · exact .inl (h.mono (step_other hstep ha).answers)
    · have hother := step_other hstep ha
      refine .inr ⟨?_, ?_⟩
      · rw [hother.mode]
        exact hmode
      · rcases hother.queue with hqueue | ⟨-, event, hqueue⟩
        · rw [hqueue]
          exact h
        · rw [hqueue]
          exact List.mem_append_left _ h
  · cases a with
    | manager turn => exact asked_manager hstep h
    | _ => exact absurd rfl ha

/-- A query finds a place in the queue, or is answered at once. -/
theorem asked_query (hstep : s.query = some s') : s'.Asked s.nextQuery := by
  unfold State.query at hstep
  simp only at hstep
  split at hstep
  · rw [← Option.some.inj hstep]
    refine .inl ?_
    show s.nextQuery ∈ (s.answers ++ [(s.nextQuery, _)]).map Prod.fst
    rw [List.map_append]
    exact List.mem_append_right _ (List.mem_singleton_self _)
  · obtain ⟨hmode, -, rfl⟩ := enqueue_eq_some hstep
    exact .inr ⟨hmode, List.mem_append_right _ (List.mem_singleton_self _)⟩

end State

end LiveKit.DataTrack.Local
