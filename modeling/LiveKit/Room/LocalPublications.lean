import LiveKit.Lib.Switch
import LiveKit.Room.Publications

/-!
# The publications of the local participant

`publish_track` and `unpublish_track` of `room/participant/local_participant.rs`, with the tasks in
which `handle_restarted` of `room/mod.rs` publishes all tracks again. Tracks and publications are
shared objects and have numbers here. What comes between two awaits of a task is one step; whether
the engine can remove a track is up to the peer connection.
-/

namespace LiveKit.LocalPublications

open LiveKit.Publications (TrackSid)
open TransitionSystem

/-! ## The participant -/

structure LocalTrackPublication where
  sid : TrackSid
  /-- The number of the track. -/
  track : Option ℕ
  /-- The handlers of the participant are registered. -/
  registered : Bool

inductive Event where
  | localTrackPublished (publication : ℕ) (sid : TrackSid)
  | localTrackUnpublished (publication : ℕ) (sid : TrackSid)
  | localTrackRepublished (previousSid : TrackSid) (publication : ℕ) (track : ℕ)

/-- Where a task is. -/
inductive Point where
  /-- A task of `handle_restarted`, before `unpublish_track`. -/
  | republishing (publication : ℕ) (track : ℕ)
  /-- In `add_track` of the engine. -/
  | requested (track : ℕ) (previousSid : Option TrackSid)
  /-- In `create_sender` of the engine, with the new publication. -/
  | added (publication : ℕ) (track : ℕ) (previousSid : Option TrackSid)
  | done
  | panicked

structure State where
  /-- All publications that have been made. -/
  publications : List LocalTrackPublication
  /-- The transceivers of the tracks. -/
  transceiver : ℕ → Option ℕ
  trackPublications : AssocMap TrackSid ℕ
  tasks : List Point
  /-- The publications that tasks of `handle_restarted` have found. -/
  restarted : List (List ℕ)

inductive Action where
  | publishTrack (track : ℕ)
  /-- What `add_track` returns. -/
  | addTrack (i : ℕ) (info : Option TrackSid)
  /-- What `create_sender` returns. -/
  | createSender (i : ℕ) (transceiver : Option ℕ)
  /-- The application or `close` unpublishes; whether `remove_track` returns `Ok`. -/
  | unpublishTrack (sid : TrackSid) (removed : Bool)
  | handleRestarted
  | spawnTasks (j : ℕ)
  | republish (i : ℕ) (removed : Bool)

inductive Result where
  | ok (publication : ℕ)
  | err
  | panicked

namespace State

def new : State := ⟨[], fun _ => none, ∅, [], []⟩

/-- `remove_publication` -/
def removePublication (s : State) (sid : TrackSid) : State × Option ℕ :=
  match AList.lookup sid s.trackPublications with
  | none => (s, none)
  | some n =>
    ({ s with
      trackPublications := AList.erase sid s.trackPublications
      publications := s.publications.modify n fun p => { p with registered := false } }, some n)

/-- `add_publication` -/
def addPublication (s : State) (n : ℕ) (sid : TrackSid) : State :=
  { s with
    trackPublications := AList.insert sid n s.trackPublications
    publications := s.publications.modify n fun p => { p with registered := true } }

/-- The sid of the publication, and its track if that has a transceiver; both are unwrapped. -/
def sender (s : State) (n : ℕ) : Option (TrackSid × ℕ) :=
  (s.publications[n]?).bind fun p =>
    p.track.bind fun track => (s.transceiver track).map fun _ => (p.sid, track)

/-- `unpublish_track`, where `remove_track` of the engine returns `Ok` or an error. -/
def unpublishTrack (s : State) (sid : TrackSid) (removed : Bool) : State × Result × List Event :=
  match s.removePublication sid with
  | (s', none) => (s', .err, [])
  | (s', some n) =>
    match s'.sender n with
    | none => (s', .panicked, [])
    | some (sid', track) =>
      if removed then
        ({ s' with
          transceiver := Function.update s'.transceiver track none
          publications := s'.publications.modify n fun p => { p with track := none } },
          .ok n, [.localTrackUnpublished n sid'])
      else (s', .err, [])

/-- The end of `publish_track`. -/
def published (s : State) (n : ℕ) (sid : TrackSid) (track : ℕ) (previousSid : Option TrackSid)
    (transceiver : ℕ) : State × List Event :=
  ({ s with transceiver := Function.update s.transceiver track (some transceiver) }.addPublication
    n sid,
    .localTrackPublished n sid ::
      (previousSid.map fun previous => .localTrackRepublished previous n track).toList)

def goto (s : State) (i : ℕ) (point : Point) : State := { s with tasks := s.tasks.set i point }

/-- The tasks for the publications up to the first without a track, where the panic comes. -/
def republishTasks (s : State) : List ℕ → List Point
  | [] => []
  | n :: found =>
    match (s.publications[n]?).bind fun p => p.track with
    | some track => .republishing n track :: s.republishTasks found
    | none => []

/-- A step, and the events of it. -/
def turn (s : State) : Action → Option (State × List Event)
  | .publishTrack track => some ({ s with tasks := s.tasks ++ [.requested track none] }, [])
  | .addTrack i info =>
    match s.tasks[i]?, info with
    | some (.requested _ _), none => some (s.goto i .done, [])
    | some (.requested track previousSid), some sid =>
      let s' := { s with
        publications := s.publications ++ [LocalTrackPublication.mk sid (some track) false] }
      some (s'.goto i (.added s.publications.length track previousSid), [])
    | _, _ => none
  | .createSender i transceiver =>
    match s.tasks[i]?, transceiver with
    | some (.added _ _ _), none => some (s.goto i .done, [])
    | some (.added n track previousSid), some transceiver =>
      (s.publications[n]?).map fun p =>
        let (s', events) := s.published n p.sid track previousSid transceiver
        (s'.goto i .done, events)
    | _, _ => none
  | .unpublishTrack sid removed =>
    let (s', _, events) := s.unpublishTrack sid removed
    some (s', events)
  | .handleRestarted =>
    some ({ s with
      restarted := s.restarted ++ [s.trackPublications.entries.map fun entry => entry.2] }, [])
  | .spawnTasks j =>
    (s.restarted[j]?).map fun found =>
      ({ s with tasks := s.tasks ++ s.republishTasks found, restarted := s.restarted.eraseIdx j },
        [])
  | .republish i removed =>
    match s.tasks[i]? with
    | some (.republishing n track) =>
      (s.publications[n]?).map fun p =>
        match s.unpublishTrack p.sid removed with
        | (s', .panicked, events) => (s'.goto i .panicked, events)
        -- the result is ignored
        | (s', _, events) => (s'.goto i (.requested track (some p.sid)), events)
    | _ => none

def step (s : State) (a : Action) : Option State := (s.turn a).map Prod.fst

end State

def record (s : State) (a : Action) : List Event := (s.turn a).elim [] Prod.snd

/-! ## What is promised -/

/-- What an event says about whether the track is published. -/
def Event.published (sid : TrackSid) : Event → Option Bool
  | .localTrackPublished _ sid' => if sid' = sid then some true else none
  | .localTrackUnpublished _ sid' => if sid' = sid then some false else none
  | .localTrackRepublished _ _ _ => none

/-- A call of `unpublish_track` either does nothing or unpublishes. -/
structure Atomic (s : State) (sid : TrackSid) (s' : State) (result : Result)
    (events : List Event) : Prop where
  err : result = .err → s'.trackPublications = s.trackPublications ∧
    s'.transceiver = s.transceiver ∧
    s'.publications.map LocalTrackPublication.track =
      s.publications.map LocalTrackPublication.track ∧ events = []
  ok : ∀ n, result = .ok n → AList.lookup sid s'.trackPublications = none ∧
    ∃ sid', events = [.localTrackUnpublished n sid']

/-- The calls of `unpublish_track` in a step are atomic. -/
def AtomicStep (s : State) : Action → Prop
  | .unpublishTrack sid removed =>
    Atomic s sid (s.unpublishTrack sid removed).1 (s.unpublishTrack sid removed).2.1
      (s.unpublishTrack sid removed).2.2
  | .republish i removed =>
    ∀ n track p, s.tasks[i]? = some (.republishing n track) → s.publications[n]? = some p →
      Atomic s p.sid (s.unpublishTrack p.sid removed).1 (s.unpublishTrack p.sid removed).2.1
        (s.unpublishTrack p.sid removed).2.2
  | _ => True

/-- The events of each sid alternate, and the last one says whether its publication is there. -/
def Told (h : List Event) (s : State) : Prop :=
  ∀ sid, Switches false (h.filterMap (Event.published sid))
    (AList.lookup sid s.trackPublications).isSome

/-- If there is a publication, its track has a transceiver and the engine removes it. -/
def Removes (s : State) (sid : TrackSid) (removed : Bool) : Prop :=
  ∀ n ∈ AList.lookup sid s.trackPublications, (s.sender n).isSome ∧ removed = true

instance (s : State) (sid : TrackSid) (removed : Bool) : Decidable (Removes s sid removed) := by
  unfold Removes
  infer_instance

/-- Whatever is unpublished is removed by the engine, and what is published has a new sid. -/
def Good (s : State) : Action → Prop
  | .unpublishTrack sid removed => Removes s sid removed
  | .republish i removed =>
    ∀ n track p, s.tasks[i]? = some (.republishing n track) → s.publications[n]? = some p →
      Removes s p.sid removed
  | .createSender i (some _) =>
    ∀ n track previousSid p, s.tasks[i]? = some (.added n track previousSid) →
      s.publications[n]? = some p → AList.lookup p.sid s.trackPublications = none
  | _ => True

end LiveKit.LocalPublications
