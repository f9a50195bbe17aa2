import LiveKit.Ffi.ParticipantStream

/-!
# A stream of a participant follows its tracks

The watcher of a track ends its native stream after the first track that is unsubscribed, whichever
that is, and the trigger hears of nothing before `room.subscribe()`. As long as each step is `Heard`
these do no harm: a native stream ends only after its track was unsubscribed, and a track of the
source comes to one.
-/

namespace LiveKit.ParticipantStream

open List State TransitionSystem
open Publications (TrackSid TrackKind)

variable {r : Request} {s s' : State}

/-! ## What is promised -/

/-- The track is one that a native stream of the request can play. -/
def Request.Wants (r : Request) (track : RemoteTrack) : Prop :=
  r.Fits track ∧ track.kind = r.kind

/-- The steps of the tasks; the others are up to the SDK and the client. -/
def Action.Internal : Action → Prop
  | .publish _ | .unpublish _ | .attach _ | .subscribedTrack _ | .unsubscribedTrack _ | .detach _
  | .dispatch _ | .dropHandle => False
  | _ => True

/-- No task can take a step. -/
def State.Quiescent (r : Request) (s : State) : Prop :=
  ∀ a : Action, a.Internal → s.step r a = none

/-- The track is one that a native stream can play, and has not been unsubscribed. -/
def State.Live (r : Request) (s : State) (n : ℕ) : Prop :=
  (∃ track, s.tracks[n]? = some track ∧ r.Wants track) ∧ n ∉ s.unsubscribed

/-- A native stream that ends by itself is that of a track that was unsubscribed. -/
def EndsWithTrack (s : State) (a : Action) (_ : State) : Prop :=
  a = .endStream → ∀ n watcher, s.task = .playing n watcher → n ∈ s.unsubscribed

/-- Where no task can take a step, what is subscribed has come to a native stream, as long as the
handle of the stream is there and the trigger goes on. -/
def Hands (r : Request) (s : State) : Prop :=
  s.Quiescent r → s.dropped = false → s.trigger ≠ .ended →
    ∀ n ∈ s.subscribed, s.Live r n → n ∈ s.handed

/-- The tasks take only so many steps before they wait for the SDK or the client. -/
def ComesToRest (r : Request) (s : State) : Prop :=
  ∃ bound, ∀ as t, (∀ a ∈ as, a.Internal) → exec (State.step r) s as = some t → as.length ≤ bound

/-! ## The condition -/

/-- The trigger comes to its events, if it is there. -/
def State.Hears (s : State) : Prop :=
  s.trigger = .ended ∨ s.trigger = .listening ∨ ∃ n, s.trigger = .sending n ∧ s.queue = []

/-- A native stream plays the track, and its watcher has heard of nothing. -/
def State.Plays (s : State) (m : ℕ) : Prop := s.task = .playing m (.waiting [])

/-- The trigger takes the event: a track that plays is not ended by another one, and the trigger
does not wait for it to end when it has still to tell its end. -/
def State.Follows (r : Request) (s : State) (m : ℕ) : RoomEvent → Prop
  | .trackUnsubscribed n => r.FitsAt s.tracks n → m ∈ s.unsubscribed
  | .trackSubscribed n => r.FitsAt s.tracks n → m ∈ s.unsubscribed → s.queue = []
  | _ => True

/-- The step does not let what happens to a track go unheard, or be heard by the wrong watcher. -/
def Heard (r : Request) (s : State) (a : Action) (_ : State) : Prop :=
  match a with
  | .subscribe => ∀ n ∈ s.subscribed, s.Live r n → n ∈ s.handed ∨ n ∈ s.queue
  | .listen => ∀ m, s.Plays m → ∀ event ∈ s.events.head?, s.Follows r m event
  | .take => ∀ n ∈ s.queue.head?, n ∈ s.unsubscribed →
      s.trigger = .ended ∨ .trackUnsubscribed n ∈ s.events
  | .unsubscribedTrack m => s.Plays m → s.Hears
  | _ => True

/-- Where no task can take a step, there is one track of the source at most. -/
def OneAtRest (r : Request) (s : State) : Prop :=
  s.Quiescent r → ∀ n n', s.Live r n → s.Live r n' → n = n'

/-! ## The invariant -/

/-- The trigger has subscribed to the events of the room, and goes on. -/
def Trigger.Registered : Trigger → Prop
  | .listening | .sending _ => True
  | _ => False

/-- The trigger has the track in its hand. -/
def Trigger.Holds (n : ℕ) : Trigger → Prop
  | .found m _ | .sending m => m = n
  | _ => False

/-- The watcher of what plays will hear of the end of a track. -/
def State.Told (r : Request) (s : State) : Prop :=
  s.trigger = .ended ∨
    (∃ k, r.FitsAt s.tracks k ∧ RoomEvent.trackUnsubscribed k ∈ s.events) ∧ s.Hears

/-- The track has come to a native stream, or is on its way to one. -/
def State.OnWay (s : State) (n : ℕ) : Prop :=
  n ∈ s.handed ∨ n ∈ s.queue ∨ s.trigger = .sending n ∨ RoomEvent.trackSubscribed n ∈ s.events

/-- Where the tracks are. -/
structure Places (r : Request) (s : State) : Prop where
  queue : s.queue.length ≤ 1
  events : ¬ s.trigger.Registered → s.trigger ≠ .ended → s.events = []
  subscribed : ∀ n ∈ s.subscribed, n < s.tracks.length
  queued : ∀ n ∈ s.queue, r.FitsAt s.tracks n
  held : ∀ n, s.trigger.Holds n → r.FitsAt s.tracks n
  playing : ∀ n watcher, s.task = .playing n watcher →
    (∃ track, s.tracks[n]? = some track ∧ r.Wants track) ∧ n ∈ s.handed
  ended : s.task = .ended → s.dropped = true ∨ s.trigger = .ended

structure Inv (r : Request) (s : State) : Prop where
  places : Places r s
  settled : ∀ n watcher, s.task = .playing n watcher → watcher ≠ .waiting [] → n ∈ s.unsubscribed
  told : ∀ n, s.Plays n → n ∈ s.unsubscribed → s.Told r
  onWay : s.dropped = false → s.trigger.Registered → ∀ n ∈ s.subscribed, s.Live r n → s.OnWay n

/-! ## The steps of the SDK and the client -/

variable {n : ℕ}

theorem getElem?_concat_of_some {tracks : List RemoteTrack} {track : RemoteTrack}
    (h : tracks[n]? = some track) (track' : RemoteTrack) :
    (tracks ++ [track'])[n]? = some track := by
  rw [Components.getElem?_concat, if_neg (Components.ne_length h)]
  exact h

theorem events_subset_dispatched (s : State) (event : RoomEvent) :
    s.events ⊆ s.dispatched event := by
  unfold dispatched
  split
  · exact subset_append_left _ _
  · exact subset_append_left _ _
  · exact List.Subset.refl _

theorem mem_dispatched (h : s.trigger.Registered) (event : RoomEvent) :
    event ∈ s.dispatched event := by
  unfold dispatched
  split
  · exact mem_append_right _ mem_cons_self
  · exact mem_append_right _ mem_cons_self
  · next hlistening hsending =>
    cases htrigger : s.trigger with
    | listening => exact absurd htrigger hlistening
    | sending n => exact absurd htrigger (hsending n)
    | _ =>
      rw [htrigger] at h
      exact h.elim

theorem dispatched_of_not (h : ¬ s.trigger.Registered) (event : RoomEvent) :
    s.dispatched event = s.events := by
  unfold dispatched
  split
  · next htrigger =>
    rw [htrigger] at h
    exact absurd trivial h
  · next n htrigger =>
    rw [htrigger] at h
    exact absurd trivial h
  · rfl

/-- A step of the SDK that adds to what there is, and leaves the tasks alone. -/
theorem Inv.sdk (h : Inv r s) (htrigger : s'.trigger = s.trigger) (hqueue : s'.queue = s.queue)
    (htask : s'.task = s.task) (hhanded : s'.handed = s.handed) (hdropped : s'.dropped = s.dropped)
    (htracks : s'.tracks = s.tracks ∨ ∃ track, s'.tracks = s.tracks ++ [track])
    (hlt : ∀ n ∈ s'.subscribed, n < s.tracks.length) (hevents : s.events ⊆ s'.events)
    (hquiet : ¬ s.trigger.Registered → s'.events = s.events)
    (hover : s.unsubscribed ⊆ s'.unsubscribed)
    (htold : ∀ n, s.Plays n → n ∈ s'.unsubscribed → n ∉ s.unsubscribed → s'.Told r)
    (honWay : s.trigger.Registered → ∀ n ∈ s'.subscribed, n ∈ s.subscribed ∨ s'.OnWay n) :
    Inv r s' := by
  -- tracks are only added
  have hgrow : ∀ (n : ℕ) track, s.tracks[n]? = some track → s'.tracks[n]? = some track := by
    intro n track htrack
    rcases htracks with heq | ⟨track', heq⟩
    · rw [heq]
      exact htrack
    · rw [heq]
      exact getElem?_concat_of_some htrack track'
  have hback : ∀ n, n < s.tracks.length → ∀ track, s'.tracks[n]? = some track →
      s.tracks[n]? = some track := by
    intro n hn track htrack
    have hsome := getElem?_eq_getElem hn
    have hsame := (hgrow n _ hsome).symm.trans htrack
    rw [hsome]
    exact hsame
  have hlength : s.tracks.length ≤ s'.tracks.length := by
    rcases htracks with heq | ⟨track, heq⟩
    · rw [heq]
    · rw [heq, length_append]
      omega
  have hfits : ∀ n, r.FitsAt s.tracks n → r.FitsAt s'.tracks n := by
    rintro n ⟨track, htrack, hfit⟩
    exact ⟨track, hgrow n track htrack, hfit⟩
  have hhears : s.Hears → s'.Hears := by
    unfold State.Hears
    rw [htrigger, hqueue]
    exact id
  refine ⟨⟨?_, ?_, ?_, ?_, ?_, ?_, ?_⟩, ?_, ?_, ?_⟩
  · rw [hqueue]
    exact h.places.queue
  · rw [htrigger]
    intro hnot hended
    rw [hquiet hnot]
    exact h.places.events hnot hended
  · intro n hn
    exact Nat.lt_of_lt_of_le (hlt n hn) hlength
  · rw [hqueue]
    exact fun n hn => hfits n (h.places.queued n hn)
  · rw [htrigger]
    exact fun n hn => hfits n (h.places.held n hn)
  · rw [htask, hhanded]
    intro n watcher hplaying
    obtain ⟨⟨track, htrack, hwants⟩, hmem⟩ := h.places.playing n watcher hplaying
    exact ⟨⟨track, hgrow n track htrack, hwants⟩, hmem⟩
  · rw [htask, hdropped, htrigger]
    exact h.places.ended
  · rw [htask]
    exact fun n watcher hplaying hwatcher => hover (h.settled n watcher hplaying hwatcher)
  · intro n hplays hmem
    unfold State.Plays at hplays
    rw [htask] at hplays
    -- an end told before stays told; a new one is what `htold` is about
    by_cases hbefore : n ∈ s.unsubscribed
    · unfold State.Told
      rw [htrigger]
      rcases h.told n hplays hbefore with hended | ⟨⟨k, hk, hevent⟩, hhear⟩
      · exact .inl hended
      · exact .inr ⟨⟨k, hfits k hk, hevents hevent⟩, hhears hhear⟩
    · exact htold n hplays hmem hbefore
  · rw [hdropped, htrigger]
    intro hdrop hregistered n hn hlive
    rcases honWay hregistered n hn with hmem | honWay
    · obtain ⟨⟨track, htrack, hwants⟩, hnot⟩ := hlive
      have hlive' : s.Live r n :=
        ⟨⟨track, hback n (hlt n hn) track htrack, hwants⟩, fun hbad => hnot (hover hbad)⟩
      unfold State.OnWay
      rw [hhanded, hqueue, htrigger]
      rcases h.onWay hdrop hregistered n hmem hlive' with hw | hw | hw | hw
      · exact .inl hw
      · exact .inr (.inl hw)
      · exact .inr (.inr (.inl hw))
      · exact .inr (.inr (.inr (hevents hw)))
    · exact honWay

/-- Nobody is told before the trigger has subscribed. -/
theorem told_registered (h : s.Told r) : s.trigger.Registered ∨ s.trigger = .ended := by
  rcases h with hended | ⟨-, hended | hlistening | ⟨n, hsending, -⟩⟩
  · exact .inr hended
  · exact .inr hended
  · rw [hlistening]
    exact .inl trivial
  · rw [hsending]
    exact .inl trivial

/-! ## The steps of the trigger -/

variable {queue : List ℕ}

/-- The task has ended before the trigger, so the source is dropped. -/
theorem Places.dropped (h : Places r s) (hgoes : s.trigger ≠ .ended) (htask : s.task = .ended) :
    s.dropped = true :=
  (h.ended htask).resolve_right hgoes

/-- A step before the trigger has subscribed. -/
theorem Inv.scan (h : Inv r s) {next : Trigger} (hbefore : ¬ s.trigger.Registered)
    (hgoes : s.trigger ≠ .ended) (hafter : ¬ next.Registered)
    (hheld : ∀ n, next.Holds n → r.FitsAt s.tracks n) (hqueue : queue.length ≤ 1)
    (hqueued : ∀ n ∈ queue, r.FitsAt s.tracks n) :
    Inv r { s with trigger := next, queue } where
  places :=
    { queue := hqueue
      events := fun _ _ => h.places.events hbefore hgoes
      subscribed := h.places.subscribed
      queued := hqueued
      held := hheld
      playing := h.places.playing
      ended := fun htask => .inl (h.places.dropped hgoes htask) }
  settled := h.settled
  told := by
    intro n hplays hmem
    rcases told_registered (h.told n hplays hmem) with hbad | hbad
    · exact absurd hbad hbefore
    · exact absurd hbad hgoes
  onWay := fun _ hbad => absurd hbad hafter

/-- `room.subscribe()` -/
theorem Inv.subscribe (h : Inv r s) (htrigger : s.trigger = .scanning [])
    (hheard : Heard r s .subscribe s') : Inv r { s with trigger := .listening } where
  places :=
    { queue := h.places.queue
      events := fun hbad => absurd trivial hbad
      subscribed := h.places.subscribed
      queued := h.places.queued
      held := fun _ hbad => hbad.elim
      playing := h.places.playing
      ended := fun htask => .inl (h.places.dropped (htrigger.trans_ne (by simp)) htask) }
  settled := h.settled
  told := by
    intro n hplays hmem
    rcases told_registered (h.told n hplays hmem) with hbad | hbad
    · rw [htrigger] at hbad
      exact hbad.elim
    · rw [htrigger] at hbad
      cases hbad
  onWay := by
    intro _ _ n hn hlive
    rcases hheard n hn hlive with hmem | hmem
    · exact .inl hmem
    · exact .inr (.inl hmem)

/-- The trigger has taken an event. -/
theorem Inv.taken (h : Inv r s) {event : RoomEvent} {events : List RoomEvent} {next : Trigger}
    (htrigger : s.trigger = .listening) (hevents : s.events = event :: events)
    (hregistered : next.Registered) (hheld : ∀ n, next.Holds n → r.FitsAt s.tracks n)
    (htold : ∀ n, s.Plays n → n ∈ s.unsubscribed →
      (∀ k, event = .trackUnsubscribed k → ¬ r.FitsAt s.tracks k) ∧
        State.Hears { s with events, trigger := next })
    (honWay : ∀ n, event = .trackSubscribed n → r.FitsAt s.tracks n → next = .sending n) :
    Inv r { s with events, trigger := next } where
  places :=
    { queue := h.places.queue
      events := fun hbad => absurd hregistered hbad
      subscribed := h.places.subscribed
      queued := h.places.queued
      held := hheld
      playing := h.places.playing
      ended := fun htask => .inl (h.places.dropped (htrigger.trans_ne (by simp)) htask) }
  settled := h.settled
  told := by
    intro n hplays hmem
    obtain ⟨hother, hhears⟩ := htold n hplays hmem
    rcases h.told n hplays hmem with hended | ⟨⟨k, hk, hevent⟩, -⟩
    · rw [htrigger] at hended
      cases hended
    · rw [hevents, mem_cons] at hevent
      rcases hevent with heq | hevent
      · exact absurd hk (hother k heq.symm)
      · exact .inr ⟨⟨k, hk, hevent⟩, hhears⟩
  onWay := by
    intro hdropped _ n hn hlive
    have hregistered' : s.trigger.Registered := by
      rw [htrigger]
      trivial
    rcases h.onWay hdropped hregistered' n hn hlive with hw | hw | hw | hw
    · exact .inl hw
    · exact .inr (.inl hw)
    · rw [htrigger] at hw
      cases hw
    · rw [hevents, mem_cons] at hw
      rcases hw with heq | hw
      · obtain ⟨⟨track, htrack, hwants⟩, -⟩ := hlive
        exact .inr (.inr (.inl (honWay n heq.symm ⟨track, htrack, hwants.1⟩)))
      · exact .inr (.inr (.inr hw))

/-- The watcher is told of a track, which is not unsubscribed alone. -/
theorem Inv.hearUnsubscribed (h : Inv r s) {events : List RoomEvent}
    (htrigger : s.trigger = .listening) (hevents : s.events = .trackUnsubscribed n :: events)
    (hfits : r.FitsAt s.tracks n) (hheard : Heard r s .listen s') :
    Inv r ({ s with events }.sendFinished n) := by
  have hfollows : ∀ m, s.Plays m → m ∈ s.unsubscribed :=
    fun m hplays => hheard m hplays (.trackUnsubscribed n) (by rw [hevents]; rfl) hfits
  have hregistered : s.trigger.Registered := by
    rw [htrigger]
    trivial
  have honWay : s.dropped = false → ∀ m ∈ s.subscribed, s.Live r m →
      State.OnWay { s with events } m := by
    intro hdropped m hm hlive
    rcases h.onWay hdropped hregistered m hm hlive with hw | hw | hw | hw
    · exact .inl hw
    · exact .inr (.inl hw)
    · exact .inr (.inr (.inl hw))
    · rw [hevents, mem_cons] at hw
      rcases hw with hbad | hw
      · cases hbad
      · exact .inr (.inr (.inr hw))
  have hquiet : ∀ {α : Prop}, ¬ s.trigger.Registered → α := fun hbad => absurd hregistered hbad
  unfold sendFinished
  dsimp only
  split
  · next m inbox htask =>
    have hmem : m ∈ s.unsubscribed := by
      by_cases hinbox : inbox = []
      · rw [hinbox] at htask
        exact hfollows m htask
      · refine h.settled m _ htask fun hbad => hinbox ?_
        exact Watcher.waiting.inj hbad
    refine ⟨⟨h.places.queue, fun hbad => hquiet hbad, h.places.subscribed, h.places.queued,
      h.places.held, ?_, nofun⟩, ?_, ?_, fun hdropped _ => honWay hdropped⟩
    · intro m' watcher hplaying
      cases hplaying
      exact h.places.playing m _ htask
    · intro m' watcher hplaying _
      cases hplaying
      exact hmem
    · intro m' hplays
      have hinbox := Watcher.waiting.inj (Task.playing.inj hplays).2
      exact absurd hinbox (append_ne_nil_of_right_ne_nil _ (cons_ne_nil _ _))
  · next hnot =>
    refine ⟨⟨h.places.queue, fun hbad => hquiet hbad, h.places.subscribed, h.places.queued,
      h.places.held, h.places.playing, h.places.ended⟩, h.settled, ?_,
      fun hdropped _ => honWay hdropped⟩
    intro m hplays
    exact absurd hplays (hnot m [])

/-- The trigger ends. -/
theorem Inv.hearEnd (h : Inv r s) (events : List RoomEvent) :
    Inv r { s with events, trigger := .ended } where
  places :=
    { queue := h.places.queue
      events := fun _ hbad => absurd rfl hbad
      subscribed := h.places.subscribed
      queued := h.places.queued
      held := fun _ hbad => hbad.elim
      playing := h.places.playing
      ended := fun _ => .inr rfl }
  settled := h.settled
  told := fun _ _ _ => .inl rfl
  onWay := fun _ hbad => hbad.elim

/-- A track that is subscribed goes to the queue. -/
theorem Inv.send (h : Inv r s) (htrigger : s.trigger = .sending n) (hqueue : s.queue = []) :
    Inv r { s with trigger := .listening, queue := [n] } where
  places :=
    { queue := le_refl 1
      events := fun hbad => absurd trivial hbad
      subscribed := h.places.subscribed
      queued := by
        intro m hm
        rw [mem_singleton.mp hm]
        apply h.places.held
        rw [htrigger]
        rfl
      held := fun _ hbad => hbad.elim
      playing := h.places.playing
      ended := fun htask => .inl (h.places.dropped (htrigger.trans_ne (by simp)) htask) }
  settled := h.settled
  told := by
    intro m hplays hmem
    rcases h.told m hplays hmem with hended | ⟨hevent, -⟩
    · rw [htrigger] at hended
      cases hended
    · exact .inr ⟨hevent, .inr (.inl rfl)⟩
  onWay := by
    intro hdropped _ m hm hlive
    have hregistered : s.trigger.Registered := by
      rw [htrigger]
      trivial
    rcases h.onWay hdropped hregistered m hm hlive with hw | hw | hw | hw
    · exact .inl hw
    · rw [hqueue] at hw
      cases hw
    · rw [htrigger] at hw
      rw [← Trigger.sending.inj hw]
      exact .inr (.inl mem_cons_self)
    · exact .inr (.inr (.inr hw))

/-- A track is lost when the task has ended, which is only when nothing is promised. -/
theorem Inv.lose (h : Inv r s) (htrigger : s.trigger = .sending n) (htask : s.task = .ended) :
    Inv r { s with trigger := .listening } := by
  have hdropped := h.places.dropped (htrigger.trans_ne (by simp)) htask
  refine ⟨⟨h.places.queue, fun hbad => absurd trivial hbad, h.places.subscribed, h.places.queued,
    fun _ hbad => hbad.elim, h.places.playing, fun _ => .inl hdropped⟩, h.settled, ?_, ?_⟩
  · intro m hplays
    have hbad : s.task = .playing m (.waiting []) := hplays
    rw [htask] at hbad
    cases hbad
  · intro hbad
    have hbad : s.dropped = false := hbad
    rw [hdropped] at hbad
    cases hbad

/-! ## The steps of the task and the watcher -/

/-- There is no more than the first in the queue. -/
theorem Places.queue_cons (h : Places r s) (hqueue : s.queue = n :: queue) : queue = [] := by
  have hlen := h.queue
  rw [hqueue, length_cons] at hlen
  exact eq_nil_of_length_eq_zero (by omega)

/-- A native stream begins. -/
theorem Inv.take (h : Inv r s) {track : RemoteTrack} (hqueue : s.queue = n :: queue)
    (htrack : s.tracks[n]? = some track) (hkind : track.kind = r.kind)
    (hheard : Heard r s .take s') :
    Inv r { s with queue, task := .playing n (.waiting []), handed := n :: s.handed } := by
  obtain rfl := h.places.queue_cons hqueue
  have hmem : n ∈ s.queue := by
    rw [hqueue]
    exact mem_cons_self
  have hfits := h.places.queued n hmem
  refine ⟨⟨Nat.zero_le 1, h.places.events, h.places.subscribed, nofun,
    h.places.held, ?_, nofun⟩, ?_, ?_, ?_⟩
  · intro m watcher hplaying
    cases hplaying
    obtain ⟨track', htrack', hfit⟩ := hfits
    rw [htrack, Option.some.injEq] at htrack'
    subst htrack'
    exact ⟨⟨track, htrack, hfit, hkind⟩, mem_cons_self⟩
  · intro m watcher hplaying hwatcher
    cases hplaying
    exact absurd rfl hwatcher
  · intro m hplays hunsubscribed
    cases hplays
    rcases hheard n (by rw [hqueue]; rfl) hunsubscribed with hended | hevent
    · exact .inl hended
    · refine .inr ⟨⟨n, hfits, hevent⟩, ?_⟩
      cases htrigger : s.trigger with
      | ended => exact .inl rfl
      | listening => exact .inr (.inl rfl)
      | sending k => exact .inr (.inr ⟨k, rfl, rfl⟩)
      | _ =>
        -- nothing has been heard of yet
        have hempty := h.places.events (by rw [htrigger]; exact id) (by rw [htrigger]; exact nofun)
        rw [hempty] at hevent
        cases hevent
  · intro hdropped hregistered m hm hlive
    rcases h.onWay hdropped hregistered m hm hlive with hw | hw | hw | hw
    · exact .inl (mem_cons_of_mem _ hw)
    · rw [hqueue, mem_singleton] at hw
      rw [hw]
      exact .inl mem_cons_self
    · exact .inr (.inr (.inl hw))
    · exact .inr (.inr (.inr hw))

/-- A track of the other kind is left out. -/
theorem Inv.skip (h : Inv r s) (htask : s.task = .receiving) (hqueue : s.queue = n :: queue)
    (hkind : ∀ track, s.tracks[n]? = some track → track.kind ≠ r.kind) :
    Inv r { s with queue } := by
  obtain rfl := h.places.queue_cons hqueue
  have hplaying : ∀ {m : ℕ} {watcher : Watcher} {α : Prop}, s.task = .playing m watcher → α := by
    intro m watcher α hbad
    rw [htask] at hbad
    cases hbad
  refine ⟨⟨Nat.zero_le 1, h.places.events, h.places.subscribed, nofun,
    h.places.held, h.places.playing, h.places.ended⟩, h.settled, fun _ hbad => hplaying hbad, ?_⟩
  intro hdropped hregistered m hm hlive
  rcases h.onWay hdropped hregistered m hm hlive with hw | hw | hw | hw
  · exact .inl hw
  · obtain ⟨⟨track, htrack, hwants⟩, -⟩ := hlive
    rw [hqueue, mem_singleton] at hw
    rw [hw] at htrack
    exact absurd hwants.2 (hkind track htrack)
  · exact .inr (.inr (.inl hw))
  · exact .inr (.inr (.inr hw))

/-- The task does not play after the step, and has ended only if it may. -/
theorem Inv.rest (h : Inv r s) {task : Task} (htask : ∀ n watcher, task ≠ .playing n watcher)
    (hended : task = .ended → s.dropped = true ∨ s.trigger = .ended) :
    Inv r { s with task } where
  places :=
    { queue := h.places.queue
      events := h.places.events
      subscribed := h.places.subscribed
      queued := h.places.queued
      held := h.places.held
      playing := fun n watcher hbad => absurd hbad (htask n watcher)
      ended := hended }
  settled := fun n watcher hbad => absurd hbad (htask n watcher)
  told := fun n hbad => absurd hbad (htask n _)
  onWay := h.onWay

/-- The watcher is done. -/
theorem Inv.watch (h : Inv r s) {inbox : List ℕ} {watcher : Watcher}
    (htask : s.task = .playing n (.waiting inbox)) (hinbox : inbox ≠ [])
    (hwatcher : watcher = .told ∨ watcher = .gone) :
    Inv r { s with task := .playing n watcher } := by
  have hmem : n ∈ s.unsubscribed := by
    refine h.settled n _ htask fun hbad => hinbox ?_
    exact Watcher.waiting.inj hbad
  refine ⟨⟨h.places.queue, h.places.events, h.places.subscribed, h.places.queued, h.places.held, ?_,
    fun hbad => by cases hbad⟩, ?_, ?_, h.onWay⟩
  · intro m watcher' hplaying
    cases hplaying
    exact h.places.playing n _ htask
  · intro m watcher' hplaying _
    cases hplaying
    exact hmem
  · intro m hplays
    have hbad := (Task.playing.inj hplays).2
    rcases hwatcher with rfl | rfl
    · cases hbad
    · cases hbad

/-- Every step that is heard keeps the invariant. -/
theorem Inv.step {a : Action} (h : Inv r s) (hturn : Turn r s a s') (hheard : Heard r s a s') :
    Inv r s' := by
  cases hturn with
  | publish | unpublish | detach =>
    exact h.sdk rfl rfl rfl rfl rfl (.inl rfl) h.places.subscribed (List.Subset.refl _)
      (fun _ => rfl) (List.Subset.refl _) (fun _ _ hmem hnot => absurd hmem hnot)
      (fun _ _ hn => .inl hn)
  | @attach track =>
    exact h.sdk rfl rfl rfl rfl rfl (.inr ⟨track, rfl⟩) h.places.subscribed (List.Subset.refl _)
      (fun _ => rfl) (List.Subset.refl _) (fun _ _ hmem hnot => absurd hmem hnot)
      (fun _ _ hn => .inl hn)
  | @subscribedTrack n hlt =>
    refine h.sdk rfl rfl rfl rfl rfl (.inl rfl) ?_ (events_subset_dispatched s _)
      (fun hnot => dispatched_of_not hnot _) (List.Subset.refl _)
      (fun _ _ hmem hnot => absurd hmem hnot) ?_
    · intro m hm
      rcases mem_cons.mp hm with rfl | hm
      · exact hlt
      · exact h.places.subscribed m hm
    · intro hregistered m hm
      rcases mem_cons.mp hm with rfl | hm
      · exact .inr (.inr (.inr (.inr (mem_dispatched hregistered _))))
      · exact .inl hm
  | @unsubscribedTrack n hlt =>
    refine h.sdk rfl rfl rfl rfl rfl (.inl rfl) h.places.subscribed (events_subset_dispatched s _)
      (fun hnot => dispatched_of_not hnot _) (subset_cons_self _ _) ?_ (fun _ _ hn => .inl hn)
    intro m hplays hmem hnot
    rcases mem_cons.mp hmem with rfl | hmem
    · -- the track that plays is over: its end has been heard or still can be
      have hhears := hheard hplays
      obtain ⟨⟨track, htrack, hwants⟩, -⟩ := h.places.playing m _ hplays
      have hevent : s.trigger.Registered →
          RoomEvent.trackUnsubscribed m ∈ s.dispatched (.trackUnsubscribed m) :=
        fun hregistered => mem_dispatched hregistered _
      rcases hhears with hended | hlistening | ⟨k, hsending, hqueue⟩
      · exact .inl hended
      · exact .inr ⟨⟨m, ⟨track, htrack, hwants.1⟩, hevent (by rw [hlistening]; trivial)⟩,
          .inr (.inl hlistening)⟩
      · exact .inr ⟨⟨m, ⟨track, htrack, hwants.1⟩, hevent (by rw [hsending]; trivial)⟩,
          .inr (.inr ⟨k, hsending, hqueue⟩)⟩
    · exact absurd hmem hnot
  | dispatch =>
    exact h.sdk rfl rfl rfl rfl rfl (.inl rfl) h.places.subscribed (events_subset_dispatched s _)
      (fun hnot => dispatched_of_not hnot _) (List.Subset.refl _)
      (fun _ _ hmem hnot => absurd hmem hnot) (fun _ _ hn => .inl hn)
  | dropHandle =>
    exact ⟨⟨h.places.queue, h.places.events, h.places.subscribed, h.places.queued, h.places.held,
      h.places.playing, fun _ => .inl rfl⟩, h.settled, h.told, nofun⟩
  | startScan htrigger | notFound htrigger | loseFound htrigger =>
    exact h.scan (by rw [htrigger]; exact id) (by rw [htrigger]; exact nofun) id
      (fun _ hbad => hbad.elim) h.places.queue h.places.queued
  | @found sid rest n htrigger hfits =>
    refine h.scan (by rw [htrigger]; exact id) (by rw [htrigger]; exact nofun) id ?_ h.places.queue
      h.places.queued
    rintro m rfl
    exact hfits
  | @sendFound n rest htrigger htask hqueue =>
    refine h.scan (by rw [htrigger]; exact id) (by rw [htrigger]; exact nofun) id
      (fun _ hbad => hbad.elim) (le_refl 1) ?_
    intro m hm
    rw [mem_singleton.mp hm]
    apply h.places.held
    rw [htrigger]
    rfl
  | subscribe htrigger => exact h.subscribe htrigger hheard
  | @hearSubscribed n events htrigger hevents hfits =>
    refine h.taken htrigger hevents trivial ?_ ?_ ?_
    · rintro m rfl
      exact hfits
    · intro m hplays hmem
      refine ⟨fun k hbad => (by cases hbad), .inr (.inr ⟨n, rfl, ?_⟩)⟩
      exact hheard m hplays (.trackSubscribed n) (by rw [hevents]; rfl) hfits hmem
    · intro m hm _
      rw [RoomEvent.trackSubscribed.inj hm]
  | hearUnsubscribed htrigger hevents hfits =>
    exact h.hearUnsubscribed htrigger hevents hfits hheard
  | hearEnd htrigger hevents => exact h.hearEnd _
  | @ignore event events htrigger hevents hother =>
    -- the task listens again, so only the events are fewer
    have hsame : ({ s with events } : State) = { s with events, trigger := .listening } := by
      rw [← htrigger]
    rw [hsame]
    refine h.taken htrigger hevents trivial (fun _ hbad => hbad.elim) ?_ ?_
    · intro m hplays hmem
      exact ⟨fun k hk => hother k (.inr hk), .inr (.inl rfl)⟩
    · intro m hm hfits
      exact absurd hfits (hother m (.inl hm))
  | send htrigger htask hqueue => exact h.send htrigger hqueue
  | lose htrigger htask => exact h.lose htrigger htask
  | take htask hqueue htrack hkind => exact h.take hqueue htrack hkind hheard
  | skip htask hqueue hkind => exact h.skip htask hqueue hkind
  | finish htask hqueue htrigger =>
    exact h.rest nofun (fun _ => .inr htrigger)
  | seeDropped hdropped htask =>
    exact h.rest nofun (fun _ => .inl hdropped)
  | endStream htask hwatcher =>
    exact h.rest nofun nofun
  | watch htask hinbox hwatcher => exact h.watch htask hinbox hwatcher

theorem inv_new (r : Request) : Inv r new where
  places :=
    { queue := Nat.zero_le 1
      events := fun _ _ => rfl
      subscribed := fun _ hmem => by cases hmem
      queued := fun _ hmem => by cases hmem
      held := fun _ hbad => hbad.elim
      playing := fun _ _ hbad => by cases hbad
      ended := fun hbad => by cases hbad }
  settled := fun _ _ hbad => by cases hbad
  told := fun _ hbad => by cases hbad
  onWay := fun _ hbad => hbad.elim

/-! ## Where no task can take a step -/

/-- Where no task can take a step, the trigger waits for an event or for the queue. -/
theorem trigger_of_quiescent (hquiet : s.Quiescent r) (htask : s.task ≠ .ended) :
    s.trigger = .ended ∨ s.trigger = .listening ∧ s.events = [] ∨ s.queue ≠ [] := by
  cases htrigger : s.trigger with
  | starting =>
    have hstuck := hquiet (.startScan s.publications) trivial
    simp only [step, startScan, htrigger, isPerm_iff.mpr (List.Perm.refl _),
      if_true] at hstuck
    cases hstuck
  | scanning rest =>
    cases rest with
    | nil =>
      have hstuck := hquiet .subscribe trivial
      simp only [step, subscribe, htrigger] at hstuck
      cases hstuck
    | cons sid rest =>
      have hstuck := hquiet .look trivial
      simp only [step, look, htrigger] at hstuck
      split at hstuck
      · split at hstuck
        · cases hstuck
        · cases hstuck
      · cases hstuck
  | found n rest =>
    right
    right
    intro hqueue
    have hstuck := hquiet .sendFound trivial
    simp only [step, sendFound, htrigger, sendTrack, if_neg htask, if_pos hqueue]
      at hstuck
    cases hstuck
  | listening =>
    cases hevents : s.events with
    | nil => exact .inr (.inl ⟨rfl, rfl⟩)
    | cons event events =>
      have hstuck := hquiet .listen trivial
      simp only [step, State.listen, htrigger, hevents] at hstuck
      cases hstuck
  | sending n =>
    right
    right
    intro hqueue
    have hstuck := hquiet .send trivial
    simp only [step, send, htrigger, sendTrack, if_neg htask, if_pos hqueue]
      at hstuck
    cases hstuck
  | ended => exact .inl rfl

/-- Where no task can take a step and something is queued or plays, a track plays. -/
theorem plays_of_quiescent (hquiet : s.Quiescent r) (htask : s.task ≠ .ended) :
    s.task = .receiving ∧ s.queue = [] ∨ ∃ m, s.Plays m := by
  cases htask' : s.task with
  | receiving =>
    cases hqueue : s.queue with
    | nil => exact .inl ⟨rfl, rfl⟩
    | cons n queue =>
      have hstuck := hquiet .take trivial
      simp only [State.step, State.take, htask', hqueue] at hstuck
      split at hstuck
      · cases hstuck
      · cases hstuck
  | playing m watcher =>
    cases watcher with
    | waiting inbox =>
      cases inbox with
      | nil => exact .inr ⟨m, htask'⟩
      | cons k inbox =>
        have hstuck := hquiet .watch trivial
        cases inbox with
        | nil =>
          simp only [step, watch, htask'] at hstuck
          split at hstuck
          · cases hstuck
          · cases hstuck
        | cons k' inbox =>
          simp only [step, watch, htask'] at hstuck
          cases hstuck
    | told | gone =>
      have hstuck := hquiet .endStream trivial
      simp only [step, endStream, htask'] at hstuck
      cases hstuck
  | ended => exact absurd htask' htask

/-- What plays where no task can take a step has not been unsubscribed. -/
theorem Inv.live_of_plays (h : Inv r s) (hquiet : s.Quiescent r) (hgoes : s.trigger ≠ .ended)
    {m : ℕ} (hplays : s.Plays m) : s.Live r m := by
  have htask : s.task ≠ .ended := by
    rw [show s.task = _ from hplays]
    exact nofun
  refine ⟨(h.places.playing m _ hplays).1, fun hmem => ?_⟩
  rcases h.told m hplays hmem with
    hended | ⟨⟨k, -, hevent⟩, hended | hlistening | ⟨n, hsending, hqueue⟩⟩
  · exact hgoes hended
  · exact hgoes hended
  · have hstuck := hquiet .listen trivial
    cases hevents : s.events with
    | nil =>
      rw [hevents] at hevent
      cases hevent
    | cons event events =>
      simp only [State.step, State.listen, hlistening, hevents] at hstuck
      cases hstuck
  · have hstuck := hquiet .send trivial
    simp only [State.step, State.send, hsending, State.sendTrack, if_neg htask, if_pos hqueue]
      at hstuck
    cases hstuck

theorem Inv.hands (h : Inv r s) (hone : OneAtRest r s) : Hands r s := by
  intro hquiet hdropped hgoes n hn hlive
  have htask : s.task ≠ .ended := by
    intro hended
    rcases h.places.ended hended with hbad | hbad
    · rw [hdropped] at hbad
      cases hbad
    · exact hgoes hbad
  rcases plays_of_quiescent hquiet htask with ⟨-, hqueue⟩ | ⟨m, hplays⟩
  · rcases trigger_of_quiescent hquiet htask with hended | ⟨hlistening, hevents⟩ | hbad
    · exact absurd hended hgoes
    · have hregistered : s.trigger.Registered := by
        rw [hlistening]
        trivial
      rcases h.onWay hdropped hregistered n hn hlive with hw | hw | hw | hw
      · exact hw
      · rw [hqueue] at hw
        cases hw
      · rw [hlistening] at hw
        cases hw
      · rw [hevents] at hw
        cases hw
    · exact absurd hqueue hbad
  · -- the one that plays is the only one
    rw [hone hquiet n m hlive (h.live_of_plays hquiet hgoes hplays)]
    exact (h.places.playing m _ hplays).2

/-! ## The tasks come to rest -/

def Trigger.work (publications : List TrackSid) : Trigger → ℕ
  | .starting => 5 * publications.length + 2
  | .scanning rest => 5 * rest.length + 1
  | .found _ rest => 5 * rest.length + 5
  | .listening => 0
  | .sending _ => 4
  | .ended => 0

def Task.work : Task → ℕ
  | .receiving => 1
  | .playing _ (.waiting _) => 3
  | .playing _ _ => 2
  | .ended => 0

/-- A bound for the steps that the tasks can take by themselves. -/
def State.work (s : State) : ℕ :=
  s.trigger.work s.publications + 5 * s.events.length + 3 * s.queue.length + s.task.work

/-- Every step of a task makes its work less. -/
theorem work_lt {a : Action} (hturn : Turn r s a s') (hinternal : a.Internal) :
    s'.work < s.work := by
  unfold work
  cases hturn with
  | publish | unpublish | attach | subscribedTrack | unsubscribedTrack | detach | dispatch
  | dropHandle => exact hinternal.elim
  | startScan htrigger hperm =>
    rw [htrigger]
    simp only [Trigger.work, hperm.length_eq]
    omega
  | found htrigger | notFound htrigger =>
    rw [htrigger]
    simp only [Trigger.work, length_cons]
    omega
  | sendFound htrigger _ hqueue | send htrigger _ hqueue =>
    rw [htrigger, hqueue]
    simp only [Trigger.work, length_cons, length_nil]
    omega
  | loseFound htrigger | lose htrigger =>
    rw [htrigger]
    simp only [Trigger.work]
    omega
  | subscribe htrigger =>
    rw [htrigger]
    simp only [Trigger.work, length_nil]
    omega
  | hearSubscribed htrigger hevents | hearEnd htrigger hevents | ignore htrigger hevents =>
    rw [htrigger, hevents]
    simp only [Trigger.work, length_cons]
    omega
  | @hearUnsubscribed n events htrigger hevents hfits =>
    unfold sendFinished
    dsimp only
    split
    · next m inbox htask =>
      rw [htrigger, hevents, htask]
      simp only [Trigger.work, Task.work, length_cons]
      omega
    · rw [htrigger, hevents]
      simp only [Trigger.work, length_cons]
      omega
  | take htask hqueue | skip htask hqueue =>
    rw [htask, hqueue]
    simp only [Task.work, length_cons]
    omega
  | finish htask hqueue htrigger =>
    rw [htask]
    simp only [Task.work]
    omega
  | seeDropped hdropped htask =>
    cases htask' : s.task with
    | receiving =>
      simp only [Task.work]
      omega
    | playing n watcher =>
      cases watcher with
      | waiting | told | gone =>
        simp only [Task.work]
        omega
    | ended => exact absurd htask' htask
  | endStream htask hwatcher | watch htask _ hwatcher =>
    rw [htask]
    rcases hwatcher with rfl | rfl
    · simp only [Task.work]
      omega
    · simp only [Task.work]
      omega

theorem comesToRest (r : Request) (s : State) : ComesToRest r s := by
  refine ⟨s.work, fun as t hinternal hexec => ?_⟩
  have hless : ∀ s a s', a.Internal → step r s a = some s' → s'.work < s.work :=
    fun s a s' ha hstep => work_lt (step_cases hstep) ha
  exact exec_length_le work hless hinternal hexec

/-! ## Every run -/

/-- In every run whose steps are all heard, with one track of the source at rest, a native stream
ends only after its track was unsubscribed, and every track that is subscribed and stays so comes to
one when the tasks come to rest, which they do. -/
theorem follows (r : Request) (run : List Action)
    (hheard : EachStep (State.step r) (Heard r) State.new run)
    (hone : Throughout (State.step r) (OneAtRest r) State.new run) :
    EachStep (State.step r) EndsWithTrack State.new run ∧
      Throughout (State.step r) (Hands r) State.new run ∧
      Throughout (State.step r) (ComesToRest r) State.new run := by
  refine ⟨?_, ?_, fun _ _ s _ _ => comesToRest r s⟩
  · refine EachStep.of_invariant (I := Inv r) ?_ (inv_new r) hheard
    intro s a _ s' hinv hstep hheard
    refine ⟨hinv.step (step_cases hstep) hheard, ?_⟩
    rintro rfl n watcher htask
    cases step_cases hstep with
    | endStream htask' hwatcher =>
      rw [htask] at htask'
      cases htask'
      refine hinv.settled n watcher htask fun hbad => ?_
      rcases hwatcher with heq | heq
      · rw [hbad] at heq
        cases heq
      · rw [hbad] at heq
        cases heq
  · intro before after s hrun hexec
    have hbefore : EachStep (step r) (Heard r) new before :=
      (EachStep.append (hrun ▸ hheard) hexec).1
    have hinv : Inv r s := exec_invariant_of_eachStep (Inv r)
      (fun s a s' hinv hstep hheard => hinv.step (step_cases hstep) hheard) (inv_new r) hbefore
      hexec
    exact hinv.hands (hone before after s hrun hexec)

/-- One track that is there when the stream is made, and is unsubscribed later. -/
theorem follows_one_track :
    let r : Request := ⟨"alice", .microphone, .audio⟩
    let run : List Action := [.attach ⟨"alice", ⟨"TR_a", by decide⟩, .microphone, .audio⟩,
      .subscribedTrack 0, .startScan [⟨"TR_a", by decide⟩], .look, .sendFound, .subscribe, .take,
      .unsubscribedTrack 0, .listen, .watch, .endStream]
    EachStep (State.step r) EndsWithTrack State.new run ∧
      Throughout (State.step r) (Hands r) State.new run ∧
      Throughout (State.step r) (ComesToRest r) State.new run := by
  intro r run
  apply follows r run
  · refine .cons rfl trivial <| .cons rfl trivial <| .cons rfl trivial <| .cons rfl trivial <|
      .cons rfl trivial <| .cons rfl ?_ <| .cons rfl ?_ <| .cons rfl ?_ <| .cons rfl ?_ <|
      .cons rfl trivial <| .cons rfl trivial trivial
    · intro n hn _
      exact .inr hn
    · intro n _ hbad
      cases hbad
    · exact fun _ => .inr (.inl rfl)
    · intro m hplays event hevent
      cases hplays
      cases hevent
      exact fun _ => mem_cons_self
  · intro before after s hrun hexec hquiet n n' hn hn'
    have hshort : EachStep (step r) (fun _ _ s => s.tracks.length ≤ 1) new run := by
      decide
    have hbefore := (EachStep.append (hrun ▸ hshort) hexec).1
    have hlength : s.tracks.length ≤ 1 := exec_invariant_of_eachStep (fun s => s.tracks.length ≤ 1)
      (fun _ _ _ _ _ hlength => hlength) (Nat.zero_le 1) hbefore hexec
    have hzero : ∀ n, s.Live r n → n = 0 := by
      rintro n ⟨⟨track, htrack, -⟩, -⟩
      have hlt := (List.getElem?_eq_some_iff.mp htrack).1
      omega
    rw [hzero n hn, hzero n' hn']

/-- The stream of a track ends when another track is unsubscribed; and a track that is subscribed
between the scan and `room.subscribe()` comes to no stream. -/
theorem ended_by_another_track :
    (∃ r run s, exec (State.step r) State.new run = some s ∧ s.unsubscribed = [1] ∧
      s.handed = [0] ∧ ¬ EachStep (State.step r) EndsWithTrack State.new run) ∧
    ∃ r run s, exec (State.step r) State.new run = some s ∧ s.subscribed = [0] ∧
      s.unsubscribed = [] ∧ ¬ Hands r s := by
  constructor
  · refine ⟨⟨"alice", .microphone, .audio⟩, [
      .attach ⟨"alice", ⟨"TR_a", by decide⟩, .microphone, .audio⟩, .subscribedTrack 0,
      .startScan [⟨"TR_a", by decide⟩], .look, .sendFound, .subscribe, .take,
      .attach ⟨"alice", ⟨"TR_b", by decide⟩, .microphone, .audio⟩, .subscribedTrack 1, .listen,
      .send,
      .unsubscribedTrack 1, .listen, .watch] ++ [.endStream], _, rfl, rfl, rfl, ?_⟩
    intro heach
    have hlast := (EachStep.append heach rfl).2 _ rfl
    have hbad := hlast.1 rfl 0 .gone rfl
    exact absurd hbad (by decide)
  · refine ⟨⟨"alice", .microphone, .audio⟩, [.startScan [],
      .attach ⟨"alice", ⟨"TR_a", by decide⟩, .microphone, .audio⟩, .subscribedTrack 0, .subscribe],
      _, rfl, rfl, rfl, ?_⟩
    intro hhands
    refine absurd (hhands ?_ rfl nofun 0 mem_cons_self
      ⟨⟨_, rfl, ⟨rfl, rfl⟩, rfl⟩, not_mem_nil⟩) not_mem_nil
    intro a hinternal
    cases a with
    | publish _ | unpublish _ | attach _ | subscribedTrack _ | unsubscribedTrack _ | detach _
    | dispatch _ | dropHandle => exact hinternal.elim
    | _ => rfl

end LiveKit.ParticipantStream
