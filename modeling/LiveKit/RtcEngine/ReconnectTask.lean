import LiveKit.Room.Restart

/-!
# The reconnect task and the participants

The loop of `EngineInner::reconnect_task`, as the events that it sends to the room, with those of
the session that come in between. The room removes the participants of the old session on
`Restarting`, and the loop sends it if its first attempt is a full reconnect. A loop that starts
with a resume and comes to a restart later sends none.
-/

namespace LiveKit.RtcEngine

open List LiveKit.Room

def reconnectAttempts : ℕ := 10

/-- How `try_restart_connection` ends. -/
inductive RestartOutcome where
  | failed
  /-- The signal connection was made, and the peer connections were not. -/
  | severed (joinResponse : JoinResponse)
  | connected (joinResponse : JoinResponse)
  /-- The server wants the client to stop. -/
  | disconnected

/-- How `try_resume_connection` ends. -/
inductive ResumeOutcome where
  | failed
  | severed
  | resumed
  | disconnected

/-- What an attempt meets. -/
structure Attempt where
  /-- The engine has been closed. -/
  closed : Bool
  /-- A full reconnect has been asked for since the last attempt. -/
  escalated : Bool
  /-- The updates that come from the session before the attempt. -/
  before : List (List (ℕ × ParticipantInfo))
  /-- The updates that come from the session once the attempt has been announced. -/
  during : List (List (ℕ × ParticipantInfo))
  resume : ResumeOutcome
  restart : RestartOutcome

/-- How the loop ends. -/
inductive Ending where
  | resumed
  | restarted (joinResponse : JoinResponse)
  | failed

/-- One turn of the loop of `reconnect_task`, with its end if it is the last; `fullReconnect` is the
flag of the handle. -/
def Attempt.run (a : Attempt) (i : ℕ) (fullReconnect : Bool) :
    List EngineEvent × Option Ending :=
  let before := a.before.map EngineEvent.participantUpdate
  let during := a.during.map EngineEvent.participantUpdate
  if a.closed then (before, some .failed)
  else if fullReconnect || a.escalated then
    let begun := before ++ (if i = 1 then [.restarting] else []) ++ during
    match a.restart with
    | .connected joinResponse =>
      (begun ++ [.signalRestarted joinResponse, .restarted], some (.restarted joinResponse))
    | .severed joinResponse => (begun ++ [.signalRestarted joinResponse], none)
    | .failed => (begun, none)
    | .disconnected => (begun, some .failed)
  else
    let begun := before ++ (if i = 1 then [.resuming] else []) ++ during
    match a.resume with
    | .resumed => (begun ++ [.signalResumed, .resumed], some .resumed)
    | .severed => (begun ++ [.signalResumed], none)
    | .failed => (begun, none)
    | .disconnected => (begun, some .failed)

/-- The loop of `reconnect_task` from attempt `i`. After an attempt the flag is set: it was, or the
resume has failed. -/
def reconnectFrom (i : ℕ) (fullReconnect : Bool) : List Attempt → List EngineEvent × Ending
  | [] => ([], .failed)
  | a :: attempts =>
    match a.run i fullReconnect with
    | (events, some ending) => (events, ending)
    | (events, none) =>
      let (events', ending) := reconnectFrom (i + 1) true attempts
      (events ++ events', ending)

/-- `reconnect_task` -/
def reconnectTask (fullReconnect : Bool) (attempts : List Attempt) : List EngineEvent × Ending :=
  reconnectFrom 1 fullReconnect (attempts.take reconnectAttempts)

/-! ## A loop that ends in a restart -/

variable {a : Attempt} {fullReconnect : Bool} {joinResponse : JoinResponse}

theorem Attempt.run_restarted {i : ℕ} {events : List EngineEvent}
    (h : a.run i fullReconnect = (events, some (.restarted joinResponse))) :
    ∃ before, events = before ++ [.signalRestarted joinResponse, .restarted] := by
  unfold Attempt.run at h
  simp only at h
  split at h
  · cases h
  · split at h
    · split at h
      · cases h
        exact ⟨_, rfl⟩
      · cases h
      · cases h
      · cases h
    · split at h <;> cases h

variable {attempts : List Attempt}

/-- The last thing that is sent is the join response, and that the restart is done. -/
theorem reconnectFrom_restarted {i : ℕ}
    (h : (reconnectFrom i fullReconnect attempts).2 = .restarted joinResponse) :
    ∃ before, (reconnectFrom i fullReconnect attempts).1
      = before ++ [.signalRestarted joinResponse, .restarted] := by
  induction attempts generalizing i fullReconnect with
  | nil => cases h
  | cons a attempts ih =>
    unfold reconnectFrom at h ⊢
    cases hrun : a.run i fullReconnect with
    | mk events ending =>
      rw [hrun] at h
      cases ending with
      | some ending =>
        simp only at h ⊢
        rw [h] at hrun
        exact Attempt.run_restarted hrun
      | none =>
        simp only at h ⊢
        obtain ⟨before, hbefore⟩ := ih h
        rw [hbefore]
        exact ⟨events ++ before, (append_assoc _ _ _).symm⟩

/-- Every join response comes after the announcement of a restart. -/
def Announced (events : List EngineEvent) : Prop :=
  ∀ before joinResponse after, events = before ++ .signalRestarted joinResponse :: after →
    EngineEvent.restarting ∈ before

theorem not_mem_updates (updates : List (List (ℕ × ParticipantInfo))) {event : EngineEvent}
    (h : ∀ update, event ≠ .participantUpdate update) :
    event ∉ updates.map EngineEvent.participantUpdate := by
  intro hmem
  obtain ⟨update, -, hupdate⟩ := mem_map.mp hmem
  exact h update hupdate.symm

/-- An attempt does not announce a restart unless it is the first, and a full reconnect. -/
theorem Attempt.restarting_not_mem {i : ℕ} (h : i ≠ 1 ∨ (fullReconnect || a.escalated) = false) :
    EngineEvent.restarting ∉ (a.run i fullReconnect).1 := by
  have hupdates : ∀ updates : List (List (ℕ × ParticipantInfo)),
      EngineEvent.restarting ∉ updates.map EngineEvent.participantUpdate :=
    fun updates => not_mem_updates updates fun _ => EngineEvent.noConfusion
  unfold Attempt.run
  simp only
  split
  · exact hupdates _
  · split
    · next hfull =>
      have hi : i ≠ 1 := by
        rcases h with hi | hnot
        · exact hi
        · rw [hnot] at hfull
          cases hfull
      rw [if_neg hi]
      split <;> simp [hupdates]
    · by_cases hi : i = 1
      · rw [if_pos hi]
        split <;> simp [hupdates]
      · rw [if_neg hi]
        split <;> simp [hupdates]

theorem restarting_not_mem {i : ℕ} (hi : i ≠ 1) (hpos : 0 < i) (fullReconnect : Bool)
    (attempts : List Attempt) :
    EngineEvent.restarting ∉ (reconnectFrom i fullReconnect attempts).1 := by
  induction attempts generalizing i fullReconnect with
  | nil => exact not_mem_nil
  | cons a attempts ih =>
    have hrun : EngineEvent.restarting ∉ (a.run i fullReconnect).1 :=
      a.restarting_not_mem (.inl hi)
    unfold reconnectFrom
    cases hrunEq : a.run i fullReconnect with
    | mk events ending =>
      rw [hrunEq] at hrun
      cases ending with
      | some ending => exact hrun
      | none =>
        show EngineEvent.restarting ∉ events ++ (reconnectFrom (i + 1) true attempts).1
        intro hmem
        rcases mem_append.mp hmem with hmem | hmem
        · exact hrun hmem
        · exact ih (by omega) (by omega) true hmem

/-- The first attempt is a full reconnect. -/
def StartsFull (fullReconnect : Bool) (attempts : List Attempt) : Prop :=
  ∀ a ∈ attempts.head?, fullReconnect = true ∨ a.escalated = true

/-- A first attempt that is a full reconnect announces it before it does anything. -/
theorem Attempt.run_full (hclosed : a.closed = false)
    (hfull : (fullReconnect || a.escalated) = true) :
    ∃ after, (a.run 1 fullReconnect).1
      = a.before.map EngineEvent.participantUpdate ++ .restarting :: after := by
  unfold Attempt.run
  simp only
  rw [if_neg (by simp [hclosed]), if_pos hfull, if_pos trivial]
  split <;> exact ⟨_, by simp only [append_assoc, cons_append, nil_append]; rfl⟩

theorem announced_of_restarting {updates : List (List (ℕ × ParticipantInfo))}
    {after : List EngineEvent} :
    Announced (updates.map EngineEvent.participantUpdate ++ .restarting :: after) := by
  intro before joinResponse rest h
  -- the join response is after the announcement, or among the updates before it
  rcases append_eq_append_iff.mp h with
    ⟨middle, hbefore, hmiddle⟩ | ⟨middle, hupdates, hmiddle⟩
  · cases middle with
    | nil => cases hmiddle
    | cons event middle =>
      rw [cons_append, List.cons.injEq] at hmiddle
      rw [hbefore, ← hmiddle.1]
      exact mem_append_right _ mem_cons_self
  · -- no join response is among the updates
    cases middle with
    | nil => cases hmiddle
    | cons event middle =>
      rw [cons_append, List.cons.injEq] at hmiddle
      have hmem : event ∈ updates.map EngineEvent.participantUpdate := by
        rw [hupdates]
        exact mem_append_right _ mem_cons_self
      rw [← hmiddle.1] at hmem
      exact absurd hmem (not_mem_updates updates fun _ => EngineEvent.noConfusion)

/-- A loop whose first attempt is a full reconnect sends `Restarting` before anything else of its
own. -/
theorem announced_of_full (hclosed : a.closed = false)
    (hfull : (fullReconnect || a.escalated) = true) :
    Announced (reconnectFrom 1 fullReconnect (a :: attempts)).1 := by
  obtain ⟨after, hafter⟩ := Attempt.run_full hclosed hfull
  unfold reconnectFrom
  cases hrun : a.run 1 fullReconnect with
  | mk events ending =>
    rw [hrun] at hafter
    have hevents : events
        = a.before.map EngineEvent.participantUpdate ++ .restarting :: after := hafter
    cases ending with
    | some ending =>
      show Announced events
      rw [hevents]
      exact announced_of_restarting
    | none =>
      show Announced (events ++ (reconnectFrom 2 true attempts).1)
      rw [hevents, append_assoc, cons_append]
      exact announced_of_restarting

/-- A loop whose first attempt is a resume never sends `Restarting`. -/
theorem restarting_not_mem_of_resume (attempts : List Attempt)
    (hfull : ¬ (fullReconnect || a.escalated) = true) :
    .restarting ∉ (reconnectFrom 1 fullReconnect (a :: attempts)).1 := by
  have hfirst := a.restarting_not_mem (i := 1) (.inr (by simpa using hfull))
  unfold reconnectFrom
  cases hrun : a.run 1 fullReconnect with
  | mk events ending =>
    rw [hrun] at hfirst
    cases ending with
    | some ending => exact hfirst
    | none =>
      show EngineEvent.restarting ∉ events ++ (reconnectFrom 2 true attempts).1
      intro hmem
      rcases mem_append.mp hmem with hmem | hmem
      · exact hfirst hmem
      · -- only the first attempt looks whether to announce a restart
        exact restarting_not_mem (by omega) (by omega) true attempts hmem

/-- The join responses of a loop that ends in a restart are announced if and only if its first
attempt is a full reconnect. -/
theorem announced_iff (h : (reconnectFrom 1 fullReconnect attempts).2 = .restarted joinResponse) :
    Announced (reconnectFrom 1 fullReconnect attempts).1 ↔ StartsFull fullReconnect attempts := by
  obtain ⟨before, hbefore⟩ := reconnectFrom_restarted h
  cases attempts with
  | nil => cases h
  | cons a attempts =>
    have hstarts : StartsFull fullReconnect (a :: attempts) ↔
        (fullReconnect || a.escalated) = true := by
      constructor
      · intro hstarts
        simpa using hstarts a rfl
      · intro hfull a' ha'
        rw [head?_cons, Option.mem_some_iff] at ha'
        rw [← ha']
        simpa using hfull
    rw [hstarts]
    constructor
    · intro hannounced
      by_contra hfull
      -- the join response that ends the loop is one that must be announced
      have hmem := hannounced before joinResponse _ hbefore
      have hnone := restarting_not_mem_of_resume attempts hfull
      rw [hbefore] at hnone
      exact hnone (mem_append_left _ hmem)
    · intro hfull
      have hclosed : a.closed = false := by
        cases hclosed : a.closed with
        | false => rfl
        | true =>
          -- a loop that finds the engine closed does not end in a restart
          have hrun : a.run 1 fullReconnect
              = (a.before.map EngineEvent.participantUpdate, some .failed) := by
            unfold Attempt.run
            exact if_pos hclosed
          unfold reconnectFrom at h
          rw [hrun] at h
          cases h
      exact announced_of_full hclosed hfull

/-! ## The participants after a restart -/

/-- The room when the last join response of the events comes, which is followed by `Restarted`. -/
def roomBefore (start : State) (events : List EngineEvent) : State :=
  (start.onEngineEvents (events.take (events.length - 2))).1

/-- A cycle that ends in a restart leaves the room with the participants of the join response if and
only if that names everybody whom the room still has when it comes; and its join responses are
announced if and only if the first attempt is a full reconnect. -/
theorem restarted_iff {start : State} {fullReconnect : Bool} {attempts : List Attempt}
    {joinResponse : JoinResponse} (hkeyed : start.Keyed)
    (hend : (reconnectTask fullReconnect attempts).2 = .restarted joinResponse)
    (hagree : start.EventsAgree (reconnectTask fullReconnect attempts).1)
    (honce : ((roomBefore start (reconnectTask fullReconnect attempts).1).updateLocal
      joinResponse.participant).NamesOnce joinResponse.otherParticipants) :
    (State.Restarted start joinResponse
        (start.onEngineEvents (reconnectTask fullReconnect attempts).1).2
        (start.onEngineEvents (reconnectTask fullReconnect attempts).1).1 ↔
      (roomBefore start (reconnectTask fullReconnect attempts).1).AllNamed joinResponse) ∧
    (Announced (reconnectTask fullReconnect attempts).1 ↔
      StartsFull fullReconnect (attempts.take reconnectAttempts)) := by
  refine ⟨?_, announced_iff hend⟩
  obtain ⟨before, hbefore⟩ := reconnectFrom_restarted hend
  have hevents : (reconnectTask fullReconnect attempts).1
      = before ++ [.signalRestarted joinResponse, .restarted] := hbefore
  have hroom : roomBefore start (reconnectTask fullReconnect attempts).1
      = (start.onEngineEvents before).1 := by
    unfold roomBefore
    rw [hevents]
    simp
  have htells := State.tells_events hkeyed hagree
  rw [hroom] at honce ⊢
  rw [hevents] at htells hagree ⊢
  obtain ⟨hleft, hright⟩ := hagree.append
  have hkeyed' := (State.tells_events hkeyed hleft).keyed
  have hexact := State.exact_iff hkeyed' hright.1 honce
  have hfinal : (start.onEngineEvents (before ++ [.signalRestarted joinResponse, .restarted])).1
      = ((start.onEngineEvents before).1.handleSignalRestarted joinResponse).1 := by
    rw [State.onEngineEvents_append]
    rfl
  constructor
  · intro h
    have hset := h.exact
    rw [hfinal] at hset
    exact hexact.mp hset
  · intro hnamed
    refine ⟨?_, ?_⟩
    · rw [hfinal]
      exact hexact.mpr hnamed
    · intro identity hthere hgone
      have hpresent := htells.present identity
      rw [hgone, Option.isSome_iff_ne_none.mpr hthere] at hpresent
      have hcount := State.count_of_presence hpresent
      simpa using hcount

/-- The participants of two examples. -/
def sampleInfo (n : Char) (identity : String) : ParticipantInfo :=
  ⟨⟨String.ofList ['P', 'A', '_', n], by simp⟩, identity, 2, "", ""⟩

/-- A room in which Alice is. -/
def sampleRoom : State :=
  ((⟨⟨(sampleInfo '0' "me").sid, "me"⟩, ∅⟩ : State).createParticipant (sampleInfo '1' "alice")).1

/-- The join response that names Bob. -/
def sampleJoin : JoinResponse := ⟨sampleInfo '3' "me", [(0, sampleInfo '2' "bob")]⟩

/-- A full reconnect removes Alice, who has left. -/
theorem restarted_full :
    (State.Restarted sampleRoom sampleJoin
        (sampleRoom.onEngineEvents
          (reconnectTask true [⟨false, false, [], [], .failed, .connected sampleJoin⟩]).1).2
        (sampleRoom.onEngineEvents
          (reconnectTask true [⟨false, false, [], [], .failed, .connected sampleJoin⟩]).1).1 ↔
      (roomBefore sampleRoom
        (reconnectTask true [⟨false, false, [], [], .failed, .connected sampleJoin⟩]).1).AllNamed
        sampleJoin) ∧
    (Announced (reconnectTask true [⟨false, false, [], [], .failed, .connected sampleJoin⟩]).1 ↔
      StartsFull true ([⟨false, false, [], [], .failed, .connected sampleJoin⟩].take
        reconnectAttempts)) := by
  apply restarted_iff
  · unfold State.Keyed
    decide
  · rfl
  · refine ⟨trivial, ?_, trivial, trivial⟩
    unfold State.EventAgrees State.UpdateAgrees
    decide
  · refine ⟨?_, ?_⟩ <;> decide

/-- After a resume that fails, a restart leaves Alice in the room, who has left. -/
theorem participant_survives :
    ¬ State.Restarted sampleRoom sampleJoin
        (sampleRoom.onEngineEvents
          (reconnectTask false [⟨false, false, [], [], .failed, .failed⟩,
            ⟨false, false, [], [], .failed, .connected sampleJoin⟩]).1).2
        (sampleRoom.onEngineEvents
          (reconnectTask false [⟨false, false, [], [], .failed, .failed⟩,
            ⟨false, false, [], [], .failed, .connected sampleJoin⟩]).1).1 ∧
      ¬ Announced (reconnectTask false [⟨false, false, [], [], .failed, .failed⟩,
            ⟨false, false, [], [], .failed, .connected sampleJoin⟩]).1 := by
  constructor
  · intro h
    obtain ⟨update, hupdate, hidentity, -⟩ :=
      (h.exact "alice" (sampleInfo '1' "alice").sid).mp ⟨_, rfl, rfl⟩
    revert update
    decide
  · intro h
    have hmem := h [.resuming] sampleJoin [.restarted] rfl
    simp at hmem

end LiveKit.RtcEngine
