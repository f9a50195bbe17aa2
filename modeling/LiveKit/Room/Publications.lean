import LiveKit.Lib.AssocMap
import LiveKit.Lib.Components
import LiveKit.Lib.TransitionSystem

/-!
# The publications of a remote participant

`update_info`, `unpublish_track` and `add_subscribed_media_track` of
`room/participant/remote_participant.rs`, for one participant. A publication is an object that the
map, an update and the tasks that attach media tracks may all have at the same time, so the
publications are numbered and the map has their numbers. One update is processed at a time; between
any two accesses of the map the tasks may come.
-/

namespace LiveKit.Publications

structure TrackSid where
  value : String
  hasPrefix : "TR_".toList <+: value.toList
deriving DecidableEq

/-- `TrackSid::try_from`, where the string of a failure is not used. -/
def TrackSid.tryFrom (value : String) : Option TrackSid :=
  if h : "TR_".toList <+: value.toList then some ⟨value, h⟩ else none

/-- `proto::TrackType` -/
inductive TrackType where
  | audio
  | video
  | data

inductive TrackKind where
  | audio
  | video
deriving DecidableEq

def TrackKind.tryFrom : TrackType → Option TrackKind
  | .audio => some .audio
  | .video => some .video
  | .data => none

/-- `proto::TrackInfo` -/
structure TrackInfo where
  sid : String
  name : String
  type : TrackType
  muted : Bool

/-- The track that is made of a media track. -/
structure RemoteTrack where
  sid : TrackSid
  name : String
  kind : TrackKind

structure RemoteTrackPublication where
  sid : TrackSid
  name : String
  kind : TrackKind
  muted : Bool
  track : Option RemoteTrack
  /-- The handlers of the participant are registered. -/
  registered : Bool

/-- The events that the room is told. -/
inductive Event where
  | trackPublished (publication : RemoteTrackPublication)
  | trackUnpublished (publication : RemoteTrackPublication)
  | trackSubscribed (publication : RemoteTrackPublication) (track : RemoteTrack)
  | trackUnsubscribed (publication : RemoteTrackPublication) (track : RemoteTrack)
  | trackMuted (publication : RemoteTrackPublication)
  | trackUnmuted (publication : RemoteTrackPublication)
  | trackSubscriptionFailed (sid : TrackSid)

/-- Where `update_info` is. -/
inductive Point where
  | idle
  /-- Before the next of the tracks of the information. -/
  | tracks (rest : List TrackInfo) (validTracks : List TrackSid)
  /-- There is no publication for the track, a new one will be inserted. -/
  | inserting (publication : RemoteTrackPublication) (rest : List TrackInfo)
      (validTracks : List TrackSid)
  /-- The new publication has been inserted, the event will be dispatched. -/
  | publishing (h : ℕ) (sid : TrackSid) (rest : List TrackInfo) (validTracks : List TrackSid)
  /-- Before the next of the keys of the copy of the map. -/
  | keys (rest : List TrackSid) (validTracks : List TrackSid)
  /-- In `unpublish_track`, which has the publication. -/
  | unpublishing (h : ℕ) (sid : TrackSid) (rest : List TrackSid) (validTracks : List TrackSid)
  /-- The track has been removed from the publication. -/
  | removing (h : ℕ) (sid : TrackSid) (rest : List TrackSid) (validTracks : List TrackSid)
  /-- The publication has been removed, the event will be dispatched. -/
  | removed (h : ℕ) (sid : TrackSid) (rest : List TrackSid) (validTracks : List TrackSid)
  | panicked

/-- Where `add_subscribed_media_track` is. -/
inductive AttachPoint where
  | waiting
  | found (h : ℕ)
  | inserted (h : ℕ) (track : RemoteTrack)
  | done
  | panicked

structure Attach where
  sid : TrackSid
  mediaTrack : TrackKind
  point : AttachPoint

structure State where
  /-- All publications that have been made. -/
  handles : List RemoteTrackPublication
  trackPublications : AssocMap TrackSid ℕ
  update : Point
  tasks : List Attach

def State.new : State := ⟨[], ∅, .idle, []⟩

inductive Action where
  /-- An update of the participant comes in. -/
  | updateInfo (tracks : List TrackInfo)
  | proceed
  /-- The map is copied; the order of its keys can be any. -/
  | copy (keys : List TrackSid)
  /-- A media track for the participant comes in. -/
  | addSubscribedMediaTrack (sid : TrackSid) (mediaTrack : TrackKind)
  | poll (i : ℕ)
  | timeout (i : ℕ)
  | addPublication (i : ℕ)
  | setTrack (i : ℕ)

/-! ## The publications -/

/-- `RemoteTrackPublication::new`, which unwraps the kind. -/
def RemoteTrackPublication.new (sid : TrackSid) (info : TrackInfo) :
    Option RemoteTrackPublication :=
  (TrackKind.tryFrom info.type).map fun kind => ⟨sid, info.name, kind, info.muted, none, false⟩

/-- `update_info` of the publication, which unwraps the kind, and the events of it. -/
def RemoteTrackPublication.updateInfo (p : RemoteTrackPublication) (sid : TrackSid)
    (info : TrackInfo) : Option (RemoteTrackPublication × List Event) :=
  (TrackKind.tryFrom info.type).map fun kind =>
    let p' := { p with sid, kind, name := info.name, muted := info.muted }
    (p', if p.registered ∧ p.muted ≠ info.muted then
      [if info.muted then .trackMuted p' else .trackUnmuted p'] else [])

/-- `set_track` of the publication, and the events of it. -/
def RemoteTrackPublication.setTrack (p : RemoteTrackPublication) (track : Option RemoteTrack) :
    RemoteTrackPublication × List Event :=
  let sid := (track.map RemoteTrack.sid).getD p.sid
  let p' := { p with track, sid }
  (p', if p.registered then
    (p.track.map (.trackUnsubscribed p)).toList ++ (track.map (.trackSubscribed p')).toList else [])

/-! ## The steps -/

namespace State

/-- The publication under the number is as given now. -/
def put (s : State) (h : ℕ) (p : RemoteTrackPublication) : State :=
  { s with handles := s.handles.set h p }

/-- `add_publication`, for a publication that has been made before. -/
def addPublication (s : State) (h : ℕ) (p : RemoteTrackPublication) : State :=
  { s.put h { p with registered := true } with
    trackPublications := AList.insert p.sid h s.trackPublications }

/-- `remove_publication` -/
def removePublication (s : State) (sid : TrackSid) : State :=
  let s' :=
    match AList.lookup sid s.trackPublications with
    | some h => { s with handles := s.handles.modify h fun p => { p with registered := false } }
    | none => s
  { s' with trackPublications := AList.erase sid s.trackPublications }

/-- The turn for one track of the information. -/
def trackTurn (s : State) (info : TrackInfo) (rest : List TrackInfo)
    (validTracks : List TrackSid) : State × List Event :=
  match TrackSid.tryFrom info.sid with
  | none => ({ s with update := .panicked }, [])
  | some sid =>
    match AList.lookup sid s.trackPublications with
    | some h =>
      match s.handles[h]?.bind (·.updateInfo sid info) with
      | some (p, events) => ({ s.put h p with update := .tracks rest (sid :: validTracks) }, events)
      | none => ({ s with update := .panicked }, [])
    | none =>
      match RemoteTrackPublication.new sid info with
      | some p => ({ s with update := .inserting p rest validTracks }, [])
      | none => ({ s with update := .panicked }, [])

/-- The turn for one key of the copy of the map. -/
def keyTurn (s : State) (sid : TrackSid) (rest : List TrackSid) (validTracks : List TrackSid) :
    State :=
  if sid ∈ validTracks then { s with update := .keys rest validTracks }
  else
    match AList.lookup sid s.trackPublications with
    | some h => { s with update := .unpublishing h sid rest validTracks }
    | none => { s with update := .keys rest validTracks }

/-- `update_info` goes on, to its next access of the map. -/
def proceed (s : State) : Option (State × List Event) :=
  match s.update with
  | .tracks (info :: rest) validTracks => some (s.trackTurn info rest validTracks)
  | .inserting p rest validTracks =>
    let s' := { s with handles := s.handles ++ [p] }
    some ({ s'.addPublication s.handles.length p with
      update := .publishing s.handles.length p.sid rest validTracks }, [])
  | .publishing h sid rest validTracks =>
    some ({ s with update := .tracks rest (sid :: validTracks) },
      (s.handles[h]?.map .trackPublished).toList)
  | .keys (sid :: rest) validTracks => some (s.keyTurn sid rest validTracks, [])
  | .keys [] _ => some ({ s with update := .idle }, [])
  | .unpublishing h sid rest validTracks =>
    match s.handles[h]? with
    | some p =>
      let (p', events) := if p.track.isSome then p.setTrack none else (p, [])
      some ({ s.put h p' with update := .removing h sid rest validTracks }, events)
    | none => none
  | .removing h sid rest validTracks =>
    some ({ s.removePublication sid with update := .removed h sid rest validTracks }, [])
  | .removed h _ rest validTracks =>
    some ({ s with update := .keys rest validTracks },
      (s.handles[h]?.map .trackUnpublished).toList)
  | _ => none

def goto (s : State) (i : ℕ) (task : Attach) (point : AttachPoint) : State :=
  { s with tasks := s.tasks.set i { task with point } }

/-- A task looks for its publication. -/
def poll (s : State) (i : ℕ) (task : Attach) : Option (State × List Event) :=
  match task.point with
  | .waiting =>
    (AList.lookup task.sid s.trackPublications).map fun h => (s.goto i task (.found h), [])
  | _ => none

def timeout (s : State) (i : ℕ) (task : Attach) : Option (State × List Event) :=
  match task.point with
  | .waiting => some (s.goto i task .done, [.trackSubscriptionFailed task.sid])
  | _ => none

/-- A task makes a track of the media track, and adds the publication that it has found. -/
def addFound (s : State) (i : ℕ) (task : Attach) : Option (State × List Event) :=
  match task.point with
  | .found h =>
    s.handles[h]?.map fun p =>
      if p.kind = task.mediaTrack then
        ((s.addPublication h p).goto i task (.inserted h ⟨p.sid, p.name, p.kind⟩), [])
      -- the media track is of the other kind
      else (s.goto i task .panicked, [])
  | _ => none

def attach (s : State) (i : ℕ) (task : Attach) : Option (State × List Event) :=
  match task.point with
  | .inserted h track =>
    s.handles[h]?.map fun p =>
      ((s.put h (p.setTrack (some track)).1).goto i task .done, (p.setTrack (some track)).2)
  | _ => none

/-- A step, and the events of it. -/
def turn (s : State) : Action → Option (State × List Event)
  | .updateInfo tracks =>
    match s.update with
    | .idle => some ({ s with update := .tracks tracks [] }, [])
    | _ => none
  | .proceed => s.proceed
  | .copy keys =>
    match s.update with
    | .tracks [] validTracks =>
      if keys.isPerm s.trackPublications.keys then
        some ({ s with update := .keys keys validTracks }, [])
      else none
    | _ => none
  | .addSubscribedMediaTrack sid mediaTrack =>
    some ({ s with tasks := s.tasks ++ [⟨sid, mediaTrack, .waiting⟩] }, [])
  | .poll i => s.tasks[i]?.bind (s.poll i)
  | .timeout i => s.tasks[i]?.bind (s.timeout i)
  | .addPublication i => s.tasks[i]?.bind (s.addFound i)
  | .setTrack i => s.tasks[i]?.bind (s.attach i)

def step (s : State) (a : Action) : Option State := (s.turn a).map Prod.fst

end State

/-! ## What is recorded -/

inductive Record where
  /-- An update has come in. -/
  | info (tracks : List TrackInfo)
  | event (event : Event)

/-- What is recorded of a step. -/
def record (s : State) (a : Action) : List Record :=
  let events := ((s.turn a).elim [] Prod.snd).map .event
  match a with
  | .updateInfo tracks => .info tracks :: events
  | _ => events

/-- The tracks of the last update. -/
def lastTracks (records : List Record) : List TrackInfo :=
  records.foldl (fun last record =>
    match record with
    | .info tracks => tracks
    | .event _ => last) []

/-- What an event says about whether the track is published. -/
def Event.published (sid : TrackSid) : Event → Option Bool
  | .trackPublished publication => if publication.sid = sid then some true else none
  | .trackUnpublished publication => if publication.sid = sid then some false else none
  | _ => none

def Record.published (sid : TrackSid) : Record → Option Bool
  | .info _ => none
  | .event e => e.published sid

end LiveKit.Publications
