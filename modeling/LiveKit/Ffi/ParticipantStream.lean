import LiveKit.Room.Publications

/-!
# Media streams of a participant

`track_changed_trigger` of `server/utils.rs` in `livekit-ffi` and the tasks
`participant_audio_stream_task` and `participant_video_stream_task`, with the watcher of each track.
The trigger looks for tracks of the source and hands them over one by one, the task plays one after
the other, and the watcher of a track ends its native stream.
-/

namespace LiveKit.ParticipantStream

open Option
open Publications (TrackSid TrackKind)

abbrev ParticipantIdentity := String

inductive TrackSource where
  | unknown
  | camera
  | microphone
  | screenshare
  | screenshareAudio
deriving DecidableEq

/-- A remote track; its publication has the same source. -/
structure RemoteTrack where
  participant : ParticipantIdentity
  sid : TrackSid
  source : TrackSource
  kind : TrackKind

/-- What a stream is made from; the kind tells the two tasks apart. -/
structure Request where
  participant : ParticipantIdentity
  trackSource : TrackSource
  kind : TrackKind

/-- The events of the room; tracks are given by their numbers. -/
inductive RoomEvent where
  | trackSubscribed (n : ℕ)
  | trackUnsubscribed (n : ℕ)
  | participantDisconnected (identity : ParticipantIdentity)
  | disconnected
  | other

/-! ## The state -/

/-- Where `track_changed_trigger` is. -/
inductive Trigger where
  | starting
  | scanning (rest : List TrackSid)
  /-- `track_tx.send` of a track that the scan has found. -/
  | found (n : ℕ) (rest : List TrackSid)
  | listening
  /-- `track_tx.send` of a track that is subscribed. -/
  | sending (n : ℕ)
  | ended
deriving DecidableEq

/-- The task that waits for the end of a track. -/
inductive Watcher where
  /-- What `track_finished_rx` has got, of which it keeps only the last. -/
  | waiting (inbox : List ℕ)
  /-- It has sent to `handle_dropped_tx`. -/
  | told
  /-- It has returned otherwise, and `handle_dropped_tx` is dropped. -/
  | gone
deriving DecidableEq

/-- Where the task of the stream is. -/
inductive Task where
  | receiving
  | playing (n : ℕ) (watcher : Watcher)
  | ended
deriving DecidableEq

structure State where
  /-- The remote tracks there have been, for the publications of all participants. -/
  tracks : List RemoteTrack
  /-- The publications of the participant. -/
  publications : List TrackSid
  /-- The tracks that their publications have. -/
  attached : List ℕ
  /-- The tracks for which `TrackSubscribed` has been dispatched. -/
  subscribed : List ℕ
  /-- The tracks for which `TrackUnsubscribed` has been dispatched. -/
  unsubscribed : List ℕ
  trigger : Trigger
  /-- What `room_event_rx` has got. -/
  events : List RoomEvent
  /-- What is in the channel of `track_tx`. -/
  queue : List ℕ
  task : Task
  /-- The tracks for which there has been a native stream. -/
  handed : List ℕ
  /-- The handle of the stream is dropped. -/
  dropped : Bool

def State.new : State where
  tracks := []
  publications := []
  attached := []
  subscribed := []
  unsubscribed := []
  trigger := .starting
  events := []
  queue := []
  task := .receiving
  handed := []
  dropped := false

/-! ## Actions -/

inductive Action where
  /-- `add_publication` and `remove_publication` -/
  | publish (sid : TrackSid)
  | unpublish (sid : TrackSid)
  /-- `set_track` gives the publication a track, -/
  | attach (track : RemoteTrack)
  /-- tells that it is subscribed, -/
  | subscribedTrack (n : ℕ)
  /-- tells that it is unsubscribed, -/
  | unsubscribedTrack (n : ℕ)
  /-- and takes it away. -/
  | detach (n : ℕ)
  | dispatch (event : RoomEvent)
  | dropHandle
  /-- The trigger starts with the publications that there are. -/
  | startScan (sids : List TrackSid)
  | look
  | sendFound
  /-- `room.subscribe()` -/
  | subscribe
  | listen
  | send
  | take
  /-- The channel of the tracks is closed. -/
  | finish
  | seeDropped
  /-- The native stream ends, because `handle_dropped_rx` is done. -/
  | endStream
  | watch

/-! ## The SDK -/

/-- The track is one of the participant and the source. -/
def Request.Fits (r : Request) (track : RemoteTrack) : Prop :=
  track.participant = r.participant ∧ track.source = r.trackSource

instance (r : Request) (track : RemoteTrack) : Decidable (r.Fits track) :=
  inferInstanceAs (Decidable (_ ∧ _))

namespace State

/-- What `room_event_rx` has after `Dispatcher::dispatch`. -/
def dispatched (s : State) (event : RoomEvent) : List RoomEvent :=
  match s.trigger with
  | .listening | .sending _ => s.events ++ [event]
  | _ => s.events

/-- `set_track`, where the publication has no track, or one that is replaced. -/
def attach (r : Request) (s : State) (track : RemoteTrack) : State :=
  let others := s.attached.filter fun n => s.tracks[n]?.map RemoteTrack.sid ≠ some track.sid
  { s with
    tracks := s.tracks ++ [track]
    publications :=
      if track.participant = r.participant then s.publications.insert track.sid else s.publications
    attached := s.tracks.length :: others }

def subscribedTrack (s : State) (n : ℕ) : Option State :=
  if n < s.tracks.length then
    some { s with subscribed := n :: s.subscribed, events := s.dispatched (.trackSubscribed n) }
  else none

def unsubscribedTrack (s : State) (n : ℕ) : Option State :=
  if n < s.tracks.length then
    some { s with
      unsubscribed := n :: s.unsubscribed
      events := s.dispatched (.trackUnsubscribed n) }
  else none

/-! ## `track_changed_trigger` -/

def startScan (s : State) (sids : List TrackSid) : Option State :=
  match s.trigger with
  | .starting =>
    if sids.isPerm s.publications then some { s with trigger := .scanning sids } else none
  | _ => none

/-- `track_pub.track()`, for a publication of the participant -/
def publicationTrack (r : Request) (s : State) (sid : TrackSid) : Option ℕ :=
  s.attached.find? fun n =>
    s.tracks[n]?.any fun track => track.participant = r.participant ∧ track.sid = sid

def look (r : Request) (s : State) : Option State :=
  match s.trigger with
  | .scanning (sid :: rest) =>
    match s.publicationTrack r sid with
    | some n =>
      if s.tracks[n]?.any fun track => r.Fits track then some { s with trigger := .found n rest }
      else some { s with trigger := .scanning rest }
    | none => some { s with trigger := .scanning rest }
  | _ => none

/-- `track_tx.send`: there is room for one track, and a track that nobody will receive is lost. -/
def sendTrack (s : State) (n : ℕ) (next : Trigger) : Option State :=
  if s.task = .ended then some { s with trigger := next }
  else if s.queue = [] then some { s with trigger := next, queue := [n] }
  else none

def sendFound (s : State) : Option State :=
  match s.trigger with
  | .found n rest => s.sendTrack n (.scanning rest)
  | _ => none

def subscribe (s : State) : Option State :=
  match s.trigger with
  | .scanning [] => some { s with trigger := .listening }
  | _ => none

/-- `track_finished_tx.send` -/
def sendFinished (s : State) (n : ℕ) : State :=
  match s.task with
  | .playing m (.waiting inbox) => { s with task := .playing m (.waiting (inbox ++ [n])) }
  | _ => s

def handle (r : Request) (s : State) : RoomEvent → State
  | .trackSubscribed n =>
    if s.tracks[n]?.any fun track => r.Fits track then { s with trigger := .sending n } else s
  | .trackUnsubscribed n =>
    if s.tracks[n]?.any fun track => r.Fits track then s.sendFinished n else s
  | .participantDisconnected identity =>
    if identity = r.participant then { s with trigger := .ended } else s
  | .disconnected => { s with trigger := .ended }
  | .other => s

def listen (r : Request) (s : State) : Option State :=
  match s.trigger, s.events with
  | .listening, event :: events => some ({ s with events }.handle r event)
  | _, _ => none

def send (s : State) : Option State :=
  match s.trigger with
  | .sending n => s.sendTrack n .listening
  | _ => none

/-! ## The task of the stream -/

def take (r : Request) (s : State) : Option State :=
  match s.task, s.queue with
  | .receiving, n :: queue =>
    if s.tracks[n]?.map RemoteTrack.kind = some r.kind then
      some { s with queue, task := .playing n (.waiting []), handed := n :: s.handed }
    else some { s with queue }
  | _, _ => none

def finish (s : State) : Option State :=
  match s.task, s.queue, s.trigger with
  | .receiving, [], .ended => some { s with task := .ended }
  | _, _, _ => none

/-- The task for audio also looks at `self_dropped_rx` while it waits for a track. -/
def seeDropped (r : Request) (s : State) : Option State :=
  if s.dropped then
    match s.task with
    | .receiving => if r.kind = .audio then some { s with task := .ended } else none
    | .playing _ _ => some { s with task := .ended }
    | .ended => none
  else none

def endStream (s : State) : Option State :=
  match s.task with
  | .playing _ .told | .playing _ .gone => some { s with task := .receiving }
  | _ => none

/-- The watcher takes what it has got; it cannot if something is lost. -/
def watch (s : State) : Option State :=
  match s.task with
  | .playing n (.waiting [m]) =>
    if s.tracks[m]?.map RemoteTrack.sid = s.tracks[n]?.map RemoteTrack.sid then
      some { s with task := .playing n .told }
    else some { s with task := .playing n .gone }
  | .playing n (.waiting (_ :: _ :: _)) => some { s with task := .playing n .gone }
  | _ => none

/-! ## The steps -/

def step (r : Request) (s : State) : Action → Option State
  | .publish sid => some { s with publications := s.publications.insert sid }
  | .unpublish sid => some { s with publications := s.publications.erase sid }
  | .attach track => some (s.attach r track)
  | .subscribedTrack n => s.subscribedTrack n
  | .unsubscribedTrack n => s.unsubscribedTrack n
  | .detach n => some { s with attached := s.attached.erase n }
  | .dispatch event =>
    match event with
    | .participantDisconnected _ | .disconnected | .other =>
      some { s with events := s.dispatched event }
    | _ => none
  | .dropHandle => some { s with dropped := true }
  | .startScan sids => s.startScan sids
  | .look => s.look r
  | .sendFound => s.sendFound
  | .subscribe => s.subscribe
  | .listen => s.listen r
  | .send => s.send
  | .take => s.take r
  | .finish => s.finish
  | .seeDropped => s.seeDropped r
  | .endStream => s.endStream
  | .watch => s.watch

end State

/-! ## What a step does -/

/-- The track is one of the participant and the source. -/
def Request.FitsAt (r : Request) (tracks : List RemoteTrack) (n : ℕ) : Prop :=
  ∃ track, tracks[n]? = some track ∧ r.Fits track

theorem fitsAt_iff (r : Request) (tracks : List RemoteTrack) (n : ℕ) :
    (tracks[n]?.any fun track => r.Fits track) = true ↔ r.FitsAt tracks n := by
  rw [any_eq_true]
  unfold Request.FitsAt
  simp only [decide_eq_true_eq]

open State

inductive Turn (r : Request) (s : State) : Action → State → Prop
  | publish {sid : TrackSid} :
      Turn r s (.publish sid) { s with publications := s.publications.insert sid }
  | unpublish {sid : TrackSid} :
      Turn r s (.unpublish sid) { s with publications := s.publications.erase sid }
  | attach {track : RemoteTrack} : Turn r s (.attach track) (s.attach r track)
  | subscribedTrack {n : ℕ} (hlt : n < s.tracks.length) :
      Turn r s (.subscribedTrack n)
        { s with subscribed := n :: s.subscribed, events := s.dispatched (.trackSubscribed n) }
  | unsubscribedTrack {n : ℕ} (hlt : n < s.tracks.length) :
      Turn r s (.unsubscribedTrack n)
        { s with
          unsubscribed := n :: s.unsubscribed
          events := s.dispatched (.trackUnsubscribed n) }
  | detach {n : ℕ} : Turn r s (.detach n) { s with attached := s.attached.erase n }
  | dispatch {event : RoomEvent} :
    Turn r s (.dispatch event) { s with events := s.dispatched event }
  | dropHandle : Turn r s .dropHandle { s with dropped := true }
  | startScan {sids : List TrackSid} (htrigger : s.trigger = .starting)
      (hperm : sids.Perm s.publications) :
      Turn r s (.startScan sids) { s with trigger := .scanning sids }
  | found {sid : TrackSid} {rest : List TrackSid} {n : ℕ}
      (htrigger : s.trigger = .scanning (sid :: rest)) (hfits : r.FitsAt s.tracks n) :
      Turn r s .look { s with trigger := .found n rest }
  | notFound {sid : TrackSid} {rest : List TrackSid}
      (htrigger : s.trigger = .scanning (sid :: rest)) :
      Turn r s .look { s with trigger := .scanning rest }
  | sendFound {n : ℕ} {rest : List TrackSid} (htrigger : s.trigger = .found n rest)
      (htask : s.task ≠ .ended) (hqueue : s.queue = []) :
      Turn r s .sendFound { s with trigger := .scanning rest, queue := [n] }
  | loseFound {n : ℕ} {rest : List TrackSid} (htrigger : s.trigger = .found n rest)
      (htask : s.task = .ended) : Turn r s .sendFound { s with trigger := .scanning rest }
  | subscribe (htrigger : s.trigger = .scanning []) :
      Turn r s .subscribe { s with trigger := .listening }
  | hearSubscribed {n : ℕ} {events : List RoomEvent} (htrigger : s.trigger = .listening)
      (hevents : s.events = .trackSubscribed n :: events) (hfits : r.FitsAt s.tracks n) :
      Turn r s .listen { s with events, trigger := .sending n }
  | hearUnsubscribed {n : ℕ} {events : List RoomEvent} (htrigger : s.trigger = .listening)
      (hevents : s.events = .trackUnsubscribed n :: events) (hfits : r.FitsAt s.tracks n) :
      Turn r s .listen ({ s with events }.sendFinished n)
  | hearEnd {event : RoomEvent} {events : List RoomEvent} (htrigger : s.trigger = .listening)
      (hevents : s.events = event :: events) :
      Turn r s .listen { s with events, trigger := .ended }
  | ignore {event : RoomEvent} {events : List RoomEvent} (htrigger : s.trigger = .listening)
      (hevents : s.events = event :: events)
      (hother : ∀ n, event = .trackSubscribed n ∨ event = .trackUnsubscribed n →
        ¬ r.FitsAt s.tracks n) :
      Turn r s .listen { s with events }
  | send {n : ℕ} (htrigger : s.trigger = .sending n) (htask : s.task ≠ .ended)
      (hqueue : s.queue = []) : Turn r s .send { s with trigger := .listening, queue := [n] }
  | lose {n : ℕ} (htrigger : s.trigger = .sending n) (htask : s.task = .ended) :
      Turn r s .send { s with trigger := .listening }
  | take {n : ℕ} {queue : List ℕ} {track : RemoteTrack} (htask : s.task = .receiving)
      (hqueue : s.queue = n :: queue) (htrack : s.tracks[n]? = some track)
      (hkind : track.kind = r.kind) :
      Turn r s .take { s with queue, task := .playing n (.waiting []), handed := n :: s.handed }
  | skip {n : ℕ} {queue : List ℕ} (htask : s.task = .receiving) (hqueue : s.queue = n :: queue)
      (hkind : ∀ track, s.tracks[n]? = some track → track.kind ≠ r.kind) :
      Turn r s .take { s with queue }
  | finish (htask : s.task = .receiving) (hqueue : s.queue = []) (htrigger : s.trigger = .ended) :
      Turn r s .finish { s with task := .ended }
  | seeDropped (hdropped : s.dropped = true) (htask : s.task ≠ .ended) :
      Turn r s .seeDropped { s with task := .ended }
  | endStream {n : ℕ} {watcher : Watcher} (htask : s.task = .playing n watcher)
      (hwatcher : watcher = .told ∨ watcher = .gone) :
      Turn r s .endStream { s with task := .receiving }
  | watch {n : ℕ} {inbox : List ℕ} {watcher : Watcher}
      (htask : s.task = .playing n (.waiting inbox)) (hinbox : inbox ≠ [])
      (hwatcher : watcher = .told ∨ watcher = .gone) :
      Turn r s .watch { s with task := .playing n watcher }

variable {r : Request} {s s' : State}

theorem turn_of_look (h : s.look r = some s') : Turn r s .look s' := by
  unfold State.look at h
  split at h
  · next sid rest htrigger =>
    split at h
    · next n hn =>
      rw [← apply_ite some, some.injEq] at h
      split at h
      · next hfits =>
        rw [← h]
        exact .found htrigger ((fitsAt_iff r s.tracks n).mp hfits)
      · rw [← h]
        exact .notFound htrigger
    · rw [← some.inj h]
      exact .notFound htrigger
  · cases h

theorem turn_of_listen (h : s.listen r = some s') : Turn r s .listen s' := by
  unfold State.listen at h
  split at h
  · next event events htrigger hevents =>
    rw [← some.inj h]
    have hignore : (∀ n, event = .trackSubscribed n ∨ event = .trackUnsubscribed n →
        ¬ r.FitsAt s.tracks n) → Turn r s .listen { s with events } := .ignore htrigger hevents
    cases event with
    | trackSubscribed n =>
      unfold State.handle
      dsimp only
      split
      · next hfits => exact .hearSubscribed htrigger hevents ((fitsAt_iff r s.tracks n).mp hfits)
      · next hfits =>
        apply hignore
        rintro m (hm | hm) hbad
        · cases hm
          exact hfits ((fitsAt_iff r s.tracks n).mpr hbad)
        · cases hm
    | trackUnsubscribed n =>
      unfold State.handle
      dsimp only
      split
      · next hfits => exact .hearUnsubscribed htrigger hevents ((fitsAt_iff r s.tracks n).mp hfits)
      · next hfits =>
        apply hignore
        rintro m (hm | hm) hbad
        · cases hm
        · cases hm
          exact hfits ((fitsAt_iff r s.tracks n).mpr hbad)
    | participantDisconnected identity =>
      unfold State.handle
      dsimp only
      split
      · exact .hearEnd htrigger hevents
      · apply hignore
        rintro m (hm | hm) -
        · cases hm
        · cases hm
    | disconnected => exact .hearEnd htrigger hevents
    | other =>
      apply hignore
      rintro m (hm | hm) -
      · cases hm
      · cases hm
  · cases h

theorem sendTrack_cases {n : ℕ} {next : Trigger} (h : s.sendTrack n next = some s') :
    s.task ≠ .ended ∧ s.queue = [] ∧ s' = { s with trigger := next, queue := [n] } ∨
      s.task = .ended ∧ s' = { s with trigger := next } := by
  unfold State.sendTrack at h
  split at h
  · next htask => exact .inr ⟨htask, (some.inj h).symm⟩
  · next htask =>
    rw [ite_none_right_eq_some, some.injEq] at h
    exact .inl ⟨htask, h.1, h.2.symm⟩

theorem turn_of_take (h : s.take r = some s') : Turn r s .take s' := by
  unfold State.take at h
  split at h
  · next n queue htask hqueue =>
    rw [← apply_ite some, some.injEq] at h
    split at h
    · next hkind =>
      obtain ⟨track, htrack, hkind⟩ := map_eq_some_iff.mp hkind
      rw [← h]
      exact .take htask hqueue htrack hkind
    · next hkind =>
      rw [← h]
      refine .skip htask hqueue fun track htrack hbad => hkind ?_
      rw [htrack, map_some, hbad]
  · cases h

theorem turn_of_seeDropped (h : s.seeDropped r = some s') : Turn r s .seeDropped s' := by
  unfold State.seeDropped at h
  rw [ite_none_right_eq_some] at h
  obtain ⟨hdropped, h⟩ := h
  split at h
  · next htask =>
    rw [ite_none_right_eq_some, some.injEq] at h
    rw [← h.2]
    exact .seeDropped hdropped (by rw [htask]; exact nofun)
  · next n watcher htask =>
    rw [← some.inj h]
    exact .seeDropped hdropped (by rw [htask]; exact nofun)
  · cases h

theorem turn_of_watch (h : s.watch = some s') : Turn r s .watch s' := by
  unfold State.watch at h
  split at h
  · next n m htask =>
    rw [← apply_ite some, some.injEq] at h
    split at h
    · rw [← h]
      exact .watch htask (List.cons_ne_nil _ _) (.inl rfl)
    · rw [← h]
      exact .watch htask (List.cons_ne_nil _ _) (.inr rfl)
  · next n m m' rest htask =>
    rw [← some.inj h]
    exact .watch htask (List.cons_ne_nil _ _) (.inr rfl)
  · cases h

theorem step_cases {a : Action} (h : s.step r a = some s') : Turn r s a s' := by
  cases a with
  | publish sid =>
    rw [← some.inj h]
    exact .publish
  | unpublish sid =>
    rw [← some.inj h]
    exact .unpublish
  | attach track =>
    rw [← some.inj h]
    exact .attach
  | subscribedTrack n =>
    obtain ⟨hlt, heq⟩ := ite_none_right_eq_some.mp h
    rw [← some.inj heq]
    exact .subscribedTrack hlt
  | unsubscribedTrack n =>
    obtain ⟨hlt, heq⟩ := ite_none_right_eq_some.mp h
    rw [← some.inj heq]
    exact .unsubscribedTrack hlt
  | detach n =>
    rw [← some.inj h]
    exact .detach
  | dispatch event =>
    cases event with
    | participantDisconnected | disconnected | other =>
      rw [← some.inj h]
      exact .dispatch
    | _ => cases h
  | dropHandle =>
    rw [← some.inj h]
    exact .dropHandle
  | startScan sids =>
    have h : s.startScan sids = some s' := h
    unfold State.startScan at h
    split at h
    · next htrigger =>
      rw [ite_none_right_eq_some, some.injEq] at h
      rw [← h.2]
      exact .startScan htrigger (List.isPerm_iff.mp h.1)
    · cases h
  | look => exact turn_of_look h
  | sendFound =>
    have h : s.sendFound = some s' := h
    unfold State.sendFound at h
    split at h
    · next n rest htrigger =>
      rcases sendTrack_cases h with ⟨htask, hqueue, rfl⟩ | ⟨htask, rfl⟩
      · exact .sendFound htrigger htask hqueue
      · exact .loseFound htrigger htask
    · cases h
  | subscribe =>
    have h : s.subscribe = some s' := h
    unfold State.subscribe at h
    split at h
    · next htrigger =>
      rw [← some.inj h]
      exact .subscribe htrigger
    · cases h
  | listen => exact turn_of_listen h
  | send =>
    have h : s.send = some s' := h
    unfold State.send at h
    split at h
    · next n htrigger =>
      rcases sendTrack_cases h with ⟨htask, hqueue, rfl⟩ | ⟨htask, rfl⟩
      · exact .send htrigger htask hqueue
      · exact .lose htrigger htask
    · cases h
  | take => exact turn_of_take h
  | finish =>
    have h : s.finish = some s' := h
    unfold State.finish at h
    split at h
    · next htask hqueue htrigger =>
      rw [← some.inj h]
      exact .finish htask hqueue htrigger
    · cases h
  | seeDropped => exact turn_of_seeDropped h
  | endStream =>
    have h : s.endStream = some s' := h
    unfold State.endStream at h
    split at h
    · next n htask =>
      rw [← some.inj h]
      exact .endStream htask (.inl rfl)
    · next n htask =>
      rw [← some.inj h]
      exact .endStream htask (.inr rfl)
    · cases h
  | watch => exact turn_of_watch h

end LiveKit.ParticipantStream
