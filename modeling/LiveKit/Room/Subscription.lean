import LiveKit.Lib.Switch
import LiveKit.Room.Publications

/-!
# The subscription of a remote publication

`set_track` and `set_subscribed` of `room/publication/remote.rs`. Whether the user wants the track
and whether there is one are two fields, and `subscription_status` is made of both.
`add_subscribed_media_track` sets the track that has come in without a look at what the user wants.
-/

namespace LiveKit.Subscription

open LiveKit.Publications (TrackSid RemoteTrack)
open List TransitionSystem

/-! ## The publication -/

inductive SubscriptionStatus where
  | desired
  | subscribed
  | unsubscribed
deriving DecidableEq

inductive PermissionStatus where
  | allowed
  | notAllowed
deriving DecidableEq

/-- `RemoteInfo`, and what `set_track` changes of `PublicationInfo`. -/
structure RemoteTrackPublication where
  subscribed : Bool
  allowed : Bool
  sid : TrackSid
  track : Option RemoteTrack

/-- What the handlers of the publication are called with. -/
inductive Event where
  | subscribed (track : RemoteTrack)
  | unsubscribed (track : RemoteTrack)
  | subscriptionStatusChanged (old new : SubscriptionStatus)
  | permissionStatusChanged (old new : PermissionStatus)
  | subscriptionUpdateNeeded (subscribed : Bool)

namespace RemoteTrackPublication

def new (sid : TrackSid) (track : Option RemoteTrack) (autoSubscribe : Bool) :
    RemoteTrackPublication :=
  ⟨autoSubscribe, true, sid, track⟩

def isSubscribed (p : RemoteTrackPublication) : Bool := p.track.isSome

def isDesired (p : RemoteTrackPublication) : Bool := p.subscribed

def subscriptionStatus (p : RemoteTrackPublication) : SubscriptionStatus :=
  if !p.subscribed then .unsubscribed
  else if p.track.isNone then .desired
  else .subscribed

def permissionStatus (p : RemoteTrackPublication) : PermissionStatus :=
  if p.allowed then .allowed else .notAllowed

def emitSubscriptionUpdate (p : RemoteTrackPublication) (old : SubscriptionStatus) : List Event :=
  if old ≠ p.subscriptionStatus then [.subscriptionStatusChanged old p.subscriptionStatus] else []

def emitPermissionUpdate (p : RemoteTrackPublication) (old : PermissionStatus) : List Event :=
  if old ≠ p.permissionStatus then [.permissionStatusChanged old p.permissionStatus] else []

def setTrack (p : RemoteTrackPublication) (track : Option RemoteTrack) :
    RemoteTrackPublication × List Event :=
  let sid := (track.map RemoteTrack.sid).getD p.sid
  let p' := { p with track, sid }
  (p', (p.track.map .unsubscribed).toList ++ (track.map .subscribed).toList ++
    p'.emitSubscriptionUpdate p.subscriptionStatus ++ p'.emitPermissionUpdate p.permissionStatus)

def setSubscribed (p : RemoteTrackPublication) (subscribed : Bool) :
    RemoteTrackPublication × List Event :=
  let wanted := { p with subscribed, allowed := subscribed || p.allowed }
  let (p', events) := if subscribed then (wanted, []) else wanted.setTrack none
  (p', events ++ [.subscriptionUpdateNeeded subscribed] ++
    p'.emitSubscriptionUpdate p.subscriptionStatus ++ p'.emitPermissionUpdate p.permissionStatus)

end RemoteTrackPublication

/-! ## Calls -/

inductive Call where
  | setSubscribed (subscribed : Bool)
  /-- `add_subscribed_media_track` gives a track, `unpublish_track` none. -/
  | setTrack (track : Option RemoteTrack)

def call (p : RemoteTrackPublication) : Call → RemoteTrackPublication × List Event
  | .setSubscribed subscribed => p.setSubscribed subscribed
  | .setTrack track => p.setTrack track

def step (p : RemoteTrackPublication) (c : Call) : Option RemoteTrackPublication :=
  some (call p c).1

def record (p : RemoteTrackPublication) (c : Call) : List Event := (call p c).2

/-! ## What is promised -/

def Event.status : Event → Option (SubscriptionStatus × SubscriptionStatus)
  | .subscriptionStatusChanged old new => some (old, new)
  | _ => none

/-- Whether there is a track after the event. -/
def Event.attached : Event → Option Bool
  | .subscribed _ => some true
  | .unsubscribed _ => some false
  | _ => none

/-- What the events say of the publication, which had the status at first and no track. -/
structure Told (first : SubscriptionStatus) (h : List Event) (p : RemoteTrackPublication) :
    Prop where
  path : Leads first (h.filterMap Event.status) p.subscriptionStatus
  alternate : Switches false (h.filterMap Event.attached) p.track.isSome
  count : (h.filterMap Event.attached).count true =
    (h.filterMap Event.attached).count false + if p.track.isSome then 1 else 0

/-- The events tell of the publication, and it has a track only while the user wants it. -/
structure Lawful (first : SubscriptionStatus) (h : List Event) (p : RemoteTrackPublication) :
    Prop where
  told : Told first h p
  desired : p.track.isSome → p.isDesired
  agree : p.isSubscribed ↔ p.subscriptionStatus = .subscribed

/-- A track is set only while the user wants it. -/
def Wanted (p : RemoteTrackPublication) : Call → Prop
  | .setTrack (some _) => p.isDesired
  | _ => True

/-! ## One call -/

namespace RemoteTrackPublication

variable (p : RemoteTrackPublication)

theorem status_emitSubscriptionUpdate (old : SubscriptionStatus) :
    (p.emitSubscriptionUpdate old).filterMap Event.status =
      if old ≠ p.subscriptionStatus then [(old, p.subscriptionStatus)] else [] := by
  unfold emitSubscriptionUpdate
  split <;> rfl

theorem attached_emitSubscriptionUpdate (old : SubscriptionStatus) :
    (p.emitSubscriptionUpdate old).filterMap Event.attached = [] := by
  unfold emitSubscriptionUpdate
  split <;> rfl

theorem status_emitPermissionUpdate (old : PermissionStatus) :
    (p.emitPermissionUpdate old).filterMap Event.status = [] := by
  unfold emitPermissionUpdate
  split <;> rfl

theorem attached_emitPermissionUpdate (old : PermissionStatus) :
    (p.emitPermissionUpdate old).filterMap Event.attached = [] := by
  unfold emitPermissionUpdate
  split <;> rfl

theorem setTrack_path (track : Option RemoteTrack) :
    Leads p.subscriptionStatus ((p.setTrack track).2.filterMap Event.status)
      (p.setTrack track).1.subscriptionStatus := by
  have htracks : ((p.track.map Event.unsubscribed).toList ++
      (track.map Event.subscribed).toList).filterMap Event.status = [] := by
    cases p.track <;> cases track <;> rfl
  unfold setTrack
  rw [filterMap_append, filterMap_append, htracks, status_emitSubscriptionUpdate,
    status_emitPermissionUpdate, nil_append, append_nil]
  exact Leads.single _ _

theorem setTrack_attached (track : Option RemoteTrack) :
    Switches p.track.isSome ((p.setTrack track).2.filterMap Event.attached)
      (p.setTrack track).1.track.isSome := by
  unfold setTrack
  rw [filterMap_append, filterMap_append, attached_emitSubscriptionUpdate,
    attached_emitPermissionUpdate, append_nil, append_nil]
  cases p.track with
  | none =>
    cases track with
    | none => exact Switches.refl false
    | some t =>
      show Switches false [true] true
      exact Switches.single (by decide)
  | some t =>
    cases track with
    | none =>
      show Switches true [false] false
      exact Switches.single (by decide)
    | some t' =>
      show Switches true [false, true] true
      exact ⟨by decide, Switches.single (by decide)⟩

/-- While the user does not want the track, setting one does not change the status. -/
theorem setTrack_undesired {p : RemoteTrackPublication} (h : p.subscribed = false)
    (track : Option RemoteTrack) : (p.setTrack track).2.filterMap Event.status = [] := by
  have hpath := setTrack_path p track
  have hold : p.subscriptionStatus = .unsubscribed := by
    unfold subscriptionStatus
    rw [h]
    rfl
  have hnew : (p.setTrack track).1.subscriptionStatus = .unsubscribed := by
    unfold subscriptionStatus setTrack
    rw [h]
    rfl
  have htracks : ((p.track.map Event.unsubscribed).toList ++
      (track.map Event.subscribed).toList).filterMap Event.status = [] := by
    cases p.track <;> cases track <;> rfl
  unfold setTrack at hnew ⊢
  rw [filterMap_append, filterMap_append, htracks, status_emitSubscriptionUpdate,
    status_emitPermissionUpdate, nil_append, append_nil, hold, hnew]
  rfl

theorem setSubscribed_path (subscribed : Bool) :
    Leads p.subscriptionStatus ((p.setSubscribed subscribed).2.filterMap Event.status)
      (p.setSubscribed subscribed).1.subscriptionStatus := by
  have hinner : ((if subscribed then
      ({ p with subscribed, allowed := subscribed || p.allowed }, [])
      else { p with subscribed, allowed := subscribed || p.allowed }.setTrack none).2).filterMap
        Event.status = [] := by
    cases subscribed with
    | true => rfl
    | false => exact setTrack_undesired rfl none
  unfold setSubscribed
  dsimp only
  rw [filterMap_append, filterMap_append, filterMap_append, hinner,
    status_emitSubscriptionUpdate, status_emitPermissionUpdate, append_nil]
  exact Leads.single _ _

theorem setSubscribed_attached (subscribed : Bool) :
    Switches p.track.isSome ((p.setSubscribed subscribed).2.filterMap Event.attached)
      (p.setSubscribed subscribed).1.track.isSome := by
  unfold setSubscribed
  dsimp only
  rw [filterMap_append, filterMap_append, filterMap_append,
    attached_emitSubscriptionUpdate, attached_emitPermissionUpdate, append_nil,
    append_nil]
  cases subscribed with
  | true => exact Switches.refl _
  | false =>
    have htrack := setTrack_attached { p with subscribed := false, allowed := false || p.allowed }
      none
    rw [show [Event.subscriptionUpdateNeeded false].filterMap Event.attached = [] from rfl,
      append_nil]
    exact htrack

end RemoteTrackPublication

theorem call_path (p : RemoteTrackPublication) (c : Call) :
    Leads p.subscriptionStatus ((call p c).2.filterMap Event.status)
      (call p c).1.subscriptionStatus := by
  cases c with
  | setSubscribed subscribed => exact p.setSubscribed_path subscribed
  | setTrack track => exact p.setTrack_path track

theorem call_attached (p : RemoteTrackPublication) (c : Call) :
    Switches p.track.isSome ((call p c).2.filterMap Event.attached) (call p c).1.track.isSome := by
  cases c with
  | setSubscribed subscribed => exact p.setSubscribed_attached subscribed
  | setTrack track => exact p.setTrack_attached track

variable {p : RemoteTrackPublication}

/-- A history that leads to the publication goes on with the events of a call. -/
theorem Told.call {first : SubscriptionStatus} {h : List Event} (htold : Told first h p)
    (c : Call) :
    Told first (h ++ (Subscription.call p c).2) (Subscription.call p c).1 := by
  have halternate : Switches false ((h ++ (Subscription.call p c).2).filterMap Event.attached)
      (Subscription.call p c).1.track.isSome := by
    rw [filterMap_append]
    exact htold.alternate.append (call_attached p c)
  refine ⟨?_, halternate, ?_⟩
  · rw [filterMap_append]
    exact htold.path.append (call_path p c)
  · have hcount := halternate.count
    rw [Bool.toNat_false, Nat.add_zero] at hcount
    rw [hcount]
    cases (Subscription.call p c).1.track.isSome <;> rfl

/-- Both views of the subscription agree unless there is a track that the user does not want. -/
theorem agree_iff (p : RemoteTrackPublication) :
    (p.isSubscribed ↔ p.subscriptionStatus = .subscribed) ↔ (p.track.isSome → p.isDesired) := by
  unfold RemoteTrackPublication.isSubscribed RemoteTrackPublication.subscriptionStatus
    RemoteTrackPublication.isDesired
  cases p.subscribed <;> cases p.track <;> simp

theorem call_desired {c : Call} (hwanted : Wanted p c) :
    (call p c).1.track.isSome → (call p c).1.isDesired := by
  cases c with
  | setSubscribed subscribed =>
    cases subscribed with
    | true => exact fun _ => rfl
    | false => exact fun hsome => absurd hsome Bool.false_ne_true
  | setTrack track =>
    cases track with
    | none => exact fun hsome => absurd hsome Bool.false_ne_true
    | some track => exact fun _ => hwanted

theorem call_undesired {c : Call} (h : ¬ Wanted p c) :
    ¬ ((call p c).1.track.isSome → (call p c).1.isDesired) := by
  cases c with
  | setSubscribed subscribed => exact absurd trivial h
  | setTrack track =>
    cases track with
    | none => exact absurd trivial h
    | some track => exact fun hdesired => h (hdesired rfl)

/-! ## All calls -/

/-- The events of the subscription and the two views of it agree in every state exactly as long as
no track is set that the user does not want. -/
theorem lawful_iff_wanted (sid : TrackSid) (autoSubscribe : Bool) (run : List Call) :
    Always step record
        (Lawful (RemoteTrackPublication.new sid none autoSubscribe).subscriptionStatus)
        (.new sid none autoSubscribe) run ↔
      EachStep step (fun p c _ => Wanted p c) (.new sid none autoSubscribe) run := by
  refine always_iff_eachStep
    (I := Lawful (RemoteTrackPublication.new sid none autoSubscribe).subscriptionStatus)
    (fun _ _ h => h) ?_ ?_ run
  · intro h p c p' hlawful hstep
    cases hstep
    by_cases hwanted : Wanted p c
    · have hdesired := call_desired hwanted
      exact .inl ⟨hwanted, hlawful.told.call c, hdesired, (agree_iff _).mpr hdesired⟩
    · exact .inr ⟨hwanted, fun hafter => call_undesired hwanted hafter.desired⟩
  · have hdesired : (none : Option RemoteTrack).isSome → autoSubscribe = true :=
      fun hsome => absurd hsome (by decide)
    exact ⟨⟨rfl, rfl, rfl⟩, hdesired, (agree_iff _).mpr hdesired⟩

/-- The track that comes in after the user has unsubscribed is attached. -/
theorem late_track_attached :
    ¬ ∀ sid autoSubscribe run,
      Always step record
        (Lawful (RemoteTrackPublication.new sid none autoSubscribe).subscriptionStatus)
        (.new sid none autoSubscribe) run := by
  intro h
  let sid : TrackSid := ⟨"TR_1", by decide⟩
  have hall := (h sid true [.setSubscribed false, .setTrack (some ⟨sid, "", .audio⟩)]) _ [] _
    (append_nil _).symm rfl
  exact absurd (hall.desired rfl) (by decide)

end LiveKit.Subscription
