import LiveKit.Ffi.Steps

/-!
# The handles of publications

`publish_track` gives the client a handle and does not put it into `local_publication_lookup`, so
what is in there are only the handles that the room task makes when a track is republished.
`HandleInv` keeps the two apart, and `keepsHandles_iff` says what is left of the promise.
-/

namespace LiveKit.Ffi

open State TransitionSystem
open Publications (TrackSid)

/-! ## What is promised -/

/-- The client has been given the handle for the track. -/
def Given (records : List Message) (handle : FfiHandleId) (track : ℕ) : Prop :=
  ∃ asyncId p, Message.callback asyncId (.publishTrack (.ok (handle, p))) ∈ records ∧
    p.track = track

/-- The client has been told that the track is republished, under the handle. -/
def Retold (records : List Message) (handle : FfiHandleId) (track : ℕ) : Prop :=
  ∃ previousSid p, Message.localTrackRepublished handle previousSid p ∈ records ∧ p.track = track

/-- All events of the SDK have been processed. -/
def State.AllProcessed (s : State) : Prop := s.events = [] ∧ ∀ p, s.roomTask ≠ .waiting p

/-- The publication is one of the local participant. -/
def State.Live (s : State) (p : LocalTrackPublication) : Prop :=
  AList.lookup p.sid s.trackPublications = some p

/-- The handle that was given for a track is the handle of its current publication. -/
structure KeepsHandles (records : List Message) (s : State) : Prop where
  current : s.AllProcessed → ∀ handle p, s.Live p → Given records handle p.track →
    AList.lookup handle s.handles = some p ∧
      AList.lookup p.sid s.localPublicationLookup = some handle
  retold : ∀ handle handle' track, Given records handle track → Retold records handle' track →
    handle' = handle

/-- No track for which a handle was given stays, and none is republished. -/
structure NoneToKeep (records : List Message) (s : State) : Prop where
  current : s.AllProcessed → ∀ handle p, s.Live p → ¬ Given records handle p.track
  retold : ∀ handle handle' track, Given records handle track → ¬ Retold records handle' track

/-! ## The handles are apart -/

/-- The handle in the callback of a request to publish. -/
def Message.givenHandle : Message → Option ℕ
  | .callback _ (.publishTrack (.ok (handle, _))) => some handle
  | _ => none

/-- The handle in the message about a republished track. -/
def Message.retoldHandle : Message → Option ℕ
  | .localTrackRepublished handle _ _ => some handle
  | _ => none

/-- The handles that were given, those in the lookup and those told of later are apart. -/
structure HandleInv (records : List Message) (s : State) : Prop where
  given : ∀ m ∈ records, ∀ handle : ℕ, m.givenHandle = some handle → handle < s.nextId
  lookup : ∀ sid (handle : ℕ), AList.lookup sid s.localPublicationLookup = some handle →
    handle < s.nextId ∧ ∀ m ∈ records, m.givenHandle ≠ some handle
  retold : ∀ m ∈ records, ∀ handle : ℕ, m.retoldHandle = some handle →
    handle < s.nextId ∧ ∀ m' ∈ records, m'.givenHandle ≠ some handle

theorem handleInv_new : HandleInv [] State.new where
  given := fun _ hmem => by cases hmem
  lookup := fun _ _ hlookup => by cases hlookup
  retold := fun _ hmem => by cases hmem

variable {new records : List Message} {s s' : State}

/-- A step that gives no handle, and whose handles are those that it finds or new ones. -/
theorem HandleInv.next (h : HandleInv records s) (hnext : s.nextId ≤ s'.nextId)
    (hgiven : ∀ m ∈ new, m.givenHandle = none)
    (hlookup : ∀ sid (handle : ℕ), AList.lookup sid s'.localPublicationLookup = some handle →
      (∃ sid', AList.lookup sid' s.localPublicationLookup = some handle) ∨
        s.nextId ≤ handle ∧ handle < s'.nextId)
    (hretold : ∀ m ∈ new, ∀ handle : ℕ, m.retoldHandle = some handle →
      (∃ sid', AList.lookup sid' s.localPublicationLookup = some handle) ∨
        s.nextId ≤ handle ∧ handle < s'.nextId) : HandleInv (records ++ new) s' := by
  have hold : ∀ m ∈ records ++ new, ∀ handle, m.givenHandle = some handle →
      m ∈ records ∧ handle < s.nextId := by
    intro m hmem handle hhandle
    rcases List.mem_append.mp hmem with hmem | hmem
    · exact ⟨hmem, h.given m hmem handle hhandle⟩
    · rw [hgiven m hmem] at hhandle
      cases hhandle
  -- what is found or new has not been given
  have hapart : ∀ handle : ℕ, (∃ sid', AList.lookup sid' s.localPublicationLookup = some handle) ∨
      s.nextId ≤ handle ∧ handle < s'.nextId →
      handle < s'.nextId ∧ ∀ m ∈ records ++ new, m.givenHandle ≠ some handle := by
    rintro handle (⟨sid, hsid⟩ | ⟨hle, hlt⟩)
    · obtain ⟨hlt, hnot⟩ := h.lookup sid handle hsid
      refine ⟨by omega, fun m hmem hhandle => ?_⟩
      exact hnot m (hold m hmem handle hhandle).1 hhandle
    · refine ⟨hlt, fun m hmem hhandle => ?_⟩
      have := (hold m hmem handle hhandle).2
      omega
  refine ⟨?_, ?_, ?_⟩
  · intro m hmem handle hhandle
    have := (hold m hmem handle hhandle).2
    omega
  · exact fun sid handle hsid => hapart handle (hlookup sid handle hsid)
  · intro m hmem handle hhandle
    rcases List.mem_append.mp hmem with hmem | hmem
    · obtain ⟨hlt, hnot⟩ := h.retold m hmem handle hhandle
      refine ⟨by omega, fun m' hmem' hgiven' => ?_⟩
      exact hnot m' (hold m' hmem' handle hgiven').1 hgiven'
    · exact hapart handle (hretold m hmem handle hhandle)

/-- A step that leaves the lookup alone, with messages that have no handles. -/
theorem HandleInv.quiet (h : HandleInv records s) (hnext : s.nextId ≤ s'.nextId)
    (hlookup : s'.localPublicationLookup = s.localPublicationLookup)
    (hgiven : ∀ m ∈ new, m.givenHandle = none) (hretold : ∀ m ∈ new, m.retoldHandle = none) :
    HandleInv (records ++ new) s' := by
  refine h.next hnext hgiven (fun sid handle hsid => .inl ⟨sid, hlookup ▸ hsid⟩) ?_
  intro m hmem handle hhandle
  rw [hretold m hmem] at hhandle
  cases hhandle

/-- The callback of a request to publish gives a new handle. -/
theorem HandleInv.give (h : HandleInv records s) (hnext : s'.nextId = s.nextId + 1)
    (hlookup : s'.localPublicationLookup = s.localPublicationLookup) (asyncId : ℕ)
    (p : LocalTrackPublication) :
    HandleInv (records ++ [.callback asyncId (.publishTrack (.ok (s.nextId, p)))]) s' := by
  have hnew : ∀ handle, handle < s.nextId → (∀ m ∈ records, m.givenHandle ≠ some handle) →
      ∀ m ∈ records ++ [Message.callback asyncId (.publishTrack (.ok (s.nextId, p)))],
        m.givenHandle ≠ some handle := by
    intro handle hlt hnot m hmem hhandle
    rcases List.mem_append.mp hmem with hmem | hmem
    · exact hnot m hmem hhandle
    · rw [List.mem_singleton.mp hmem] at hhandle
      have := Option.some.inj hhandle
      omega
  refine ⟨?_, ?_, ?_⟩
  · intro m hmem handle hhandle
    rcases List.mem_append.mp hmem with hmem | hmem
    · have := h.given m hmem handle hhandle
      omega
    · rw [List.mem_singleton.mp hmem] at hhandle
      have := Option.some.inj hhandle
      omega
  · intro sid handle hsid
    rw [hlookup] at hsid
    obtain ⟨hlt, hnot⟩ := h.lookup sid handle hsid
    exact ⟨by omega, hnew handle hlt hnot⟩
  · intro m hmem handle hhandle
    rcases List.mem_append.mp hmem with hmem | hmem
    · obtain ⟨hlt, hnot⟩ := h.retold m hmem handle hhandle
      exact ⟨by omega, hnew handle hlt hnot⟩
    · rw [List.mem_singleton.mp hmem] at hhandle
      cases hhandle

theorem nil_quiet {α : Type} (f : Message → Option α) : ∀ m ∈ ([] : List Message), f m = none :=
  fun _ hmem => by cases hmem

theorem single_quiet {α : Type} {f : Message → Option α} {m : Message} (h : f m = none) :
    ∀ m' ∈ [m], f m' = none := by
  intro m' hmem
  rw [List.mem_singleton.mp hmem]
  exact h

/-- The room task forwards an event. -/
theorem HandleInv.forward (h : HandleInv records s) (event : RoomEvent) :
    HandleInv (records ++ (s.forwardEvent event).2) (s.forwardEvent event).1 := by
  cases event with
  | localTrackPublished p =>
    unfold State.forwardEvent
    dsimp only
    split
    · exact h.quiet (le_refl _) rfl (nil_quiet _) (nil_quiet _)
    · exact h.quiet (le_refl _) rfl (nil_quiet _) (nil_quiet _)
  | localTrackUnpublished p =>
    unfold State.forwardEvent
    dsimp only
    split
    · exact h.quiet (le_refl _) rfl (nil_quiet _) (nil_quiet _)
    · refine h.next (le_refl _) (single_quiet rfl) (fun sid handle hsid => .inl ⟨sid, ?_⟩) ?_
      · exact (AssocMap.of_lookup_erase hsid).2
      · intro m hmem handle hhandle
        rw [List.mem_singleton.mp hmem] at hhandle
        cases hhandle
  | localTrackRepublished previousSid p =>
    unfold State.forwardEvent
    dsimp only
    cases hprevious : AList.lookup previousSid s.localPublicationLookup with
    | none =>
      have hfresh : s.nextId ≤ s.nextId ∧ s.nextId < s.nextId + 1 := by omega
      refine h.next (Nat.le_succ _) (single_quiet rfl) (fun sid handle hsid => ?_) ?_
      · rcases AssocMap.of_lookup_insert hsid with ⟨-, rfl⟩ | ⟨-, hsid⟩
        · exact .inr hfresh
        · exact .inl ⟨sid, hsid⟩
      · intro m hmem handle hhandle
        rw [List.mem_singleton.mp hmem] at hhandle
        rw [← Option.some.inj hhandle]
        exact .inr hfresh
    | some found =>
      refine h.next (le_refl _) (single_quiet rfl) (fun sid handle hsid => ?_) ?_
      · rcases AssocMap.of_lookup_insert hsid with ⟨-, rfl⟩ | ⟨-, hsid⟩
        · exact .inl ⟨previousSid, hprevious⟩
        · exact .inl ⟨sid, (AssocMap.of_lookup_erase hsid).2⟩
      · intro m hmem handle hhandle
        rw [List.mem_singleton.mp hmem] at hhandle
        rw [← Option.some.inj hhandle]
        exact .inl ⟨previousSid, hprevious⟩
  | reconnecting | reconnected =>
    exact h.quiet (le_refl _) rfl (single_quiet rfl) (single_quiet rfl)
  | other => exact h.quiet (le_refl _) rfl (nil_quiet _) (nil_quiet _)

theorem sdkUnpublish_same (s : State) (sid : TrackSid) (error : Option String) :
    (s.sdkUnpublish sid error).1.nextId = s.nextId ∧
      (s.sdkUnpublish sid error).1.localPublicationLookup = s.localPublicationLookup := by
  obtain ⟨trackPublications, events, heq, -, -⟩ := sdkUnpublish_eq s sid error
  rw [heq]
  exact ⟨rfl, rfl⟩

/-- Every step keeps the handles apart. -/
theorem HandleInv.step {a : Action} (h : HandleInv records s) (hturn : Turn s a s' new) :
    HandleInv (records ++ new) s' := by
  cases hturn with
  | begun _ _ _ hnext | refused _ _ _ hnext | queued _ _ _ hnext =>
    exact h.quiet hnext rfl (single_quiet rfl) (single_quiet rfl)
  | @sendPublishCallback i job p hjob hpoint =>
    apply h.give _ _ job.asyncId p
    · rfl
    · rfl
  | @forward event events hroom hevents =>
    have hbefore : HandleInv records { s with events } := ⟨h.given, h.lookup, h.retold⟩
    exact hbefore.forward event
  | @closeUnpublish sid error =>
    obtain ⟨hnext, hlookup⟩ := sdkUnpublish_same s sid error
    exact h.quiet (le_of_eq hnext.symm) hlookup (nil_quiet _) (nil_quiet _)
  | @republishUnpublish k error p hrepublish =>
    obtain ⟨hnext, hlookup⟩ := sdkUnpublish_same s p.sid error
    exact h.quiet (le_of_eq hnext.symm) hlookup (nil_quiet _) (nil_quiet _)
  | _ =>
    refine h.quiet (le_refl _) rfl ?_ ?_ <;> first
      | exact nil_quiet _
      | exact single_quiet rfl

/-! ## Every run -/

theorem HandleInv.keepsHandles_iff_state (h : HandleInv records s) :
    KeepsHandles records s ↔ NoneToKeep records s := by
  constructor
  · intro hkeeps
    constructor
    · intro hall handle p hlive hgiven
      have hlookup := (hkeeps.current hall handle p hlive hgiven).2
      obtain ⟨asyncId, q, hmem, -⟩ := hgiven
      exact (h.lookup p.sid handle hlookup).2 _ hmem rfl
    · intro handle handle' track hgiven hretold
      have hsame := hkeeps.retold handle handle' track hgiven hretold
      obtain ⟨asyncId, q, hmem, -⟩ := hgiven
      obtain ⟨previousSid, p, hmem', -⟩ := hretold
      exact (h.retold _ hmem' handle' rfl).2 _ hmem (congrArg some hsame.symm)
  · intro hnone
    constructor
    · intro hall handle p hlive hgiven
      exact absurd hgiven (hnone.current hall handle p hlive)
    · intro handle handle' track hgiven hretold
      exact absurd hretold (hnone.retold handle handle' track hgiven)

/-- The handles are kept in all states of the runs in which there is none to keep, and in no
others. -/
theorem keepsHandles_iff (run : List Action) :
    Always State.step messages KeepsHandles State.new run ↔
      Always State.step messages NoneToKeep State.new run := by
  have heach : EachStepOn State.step messages (fun _ => fun _ _ _ => True) [] State.new run := by
    rw [eachStepOn_iff_eachStep]
    exact eachStep_of_invariant (I := fun _ => True) (fun _ _ _ _ _ _ => ⟨trivial, trivial⟩) trivial
  refine always_congr (I := HandleInv) (fun _ _ h => h.keepsHandles_iff_state) ?_ handleInv_new
    heach
  intro records s a s' hinv hstep _
  exact hinv.step (step_cases hstep)

/-- After one full reconnect the client has two handles for a track, and the one it has got from
`publish_track` is that of the publication before. -/
theorem republished_under_another_handle :
    ∃ run s, exec State.step State.new run = some s ∧ s.events = [] ∧
      (∃ p, AList.lookup 2 s.handles = some p ∧ p.sid.value = "TR_a") ∧
      (∃ p, AList.lookup 3 s.handles = some p ∧ p.sid.value = "TR_b") ∧
      s.trackPublications.keys.map TrackSid.value = ["TR_b"] ∧
      s.localPublicationLookup.keys.map TrackSid.value = ["TR_b"] ∧
      ¬ Always State.step messages KeepsHandles State.new run := by
  refine ⟨[.request .publishTrack none, .publish 0 ⟨"TR_a", by decide⟩, .sendPublishCallback 0,
    .insertPending 0, .forward, .finishForward, .dispatch .reconnecting, .forward,
    .startRepublish ⟨"TR_a", by decide⟩, .republishUnpublish 0 none, .forward,
    .republishPublish 0 ⟨"TR_b", by decide⟩, .forward, .republishEvent 0, .forward,
    .dispatch .reconnected, .forward], _, rfl, rfl, ⟨_, rfl, rfl⟩, ⟨_, rfl, rfl⟩, rfl, rfl, ?_⟩
  intro halways
  have hkeeps := halways _ [] _ (List.append_nil _).symm rfl
  have hsame := hkeeps.retold 2 3 0 ⟨1, _, .tail _ (.head _), rfl⟩
    ⟨⟨"TR_a", by decide⟩, _, .tail _ (.tail _ (.tail _ (.tail _ (.head _)))), rfl⟩
  cases hsame

end LiveKit.Ffi
