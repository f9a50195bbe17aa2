import LiveKit.DataTrack.Packet.Deserialize
import LiveKit.DataTrack.Remote.Pipeline

/-!
# Manager of remote data tracks

`remote/events.rs` and the event handlers of `remote/manager.rs`, with the request data of
`remote/mod.rs`. A handler is a function of the manager's own state and of the event; what it
does to the channels it holds is a list of `Effect`s, in the order in which it does it.

The ends of channels and tasks are named by numbers: the two ends of the oneshot channel of a
subscribe request by a `RequestId`, the watch channel of a publication by a `PublicationId`,
and a track task, with its packet and its frame channel, by a `TaskId`.

A pass over a hash map takes the entries in the order that the caller chooses (`Orders`).
-/

namespace LiveKit.DataTrack.Remote

open AList

abbrev RequestId := ℕ

abbrev PublicationId := ℕ

abbrev TaskId := ℕ

/-- The order of the `n`-th pass over a hash map that one call makes. -/
abbrev Orders := ℕ → List ℕ

/-! ## Events -/

inductive DataTrackSubscribeError where
  | unpublished
  | timeout
  | disconnected
  | internal (message : String)
deriving DecidableEq

/-- Options for subscribing to a data track; the buffer size is never zero. -/
structure DataTrackSubscribeOptions where
  bufferSize : ℕ
  ne_zero : bufferSize ≠ 0
deriving DecidableEq

def DataTrackSubscribeOptions.new : DataTrackSubscribeOptions := ⟨16, by decide⟩

/-- Client requested to subscribe to a data track. -/
structure SubscribeRequest where
  sid : DataTrackSid
  options : DataTrackSubscribeOptions
  resultTx : RequestId
deriving DecidableEq

/-- Client requested to unsubscribe from a data track. -/
structure UnsubscribeRequest where
  sid : DataTrackSid
deriving DecidableEq

/-- SFU notification that track publications have changed. -/
structure SfuPublicationUpdates where
  updates : Entries String (List DataTrackInfo)
deriving DecidableEq

/-- SFU notification that handles have been assigned for requested subscriptions. -/
structure SfuSubscriberHandles where
  mapping : Entries Handle DataTrackSid
deriving DecidableEq

/-- An external event handled by the manager. -/
inductive InputEvent where
  | subscribeRequest (event : SubscribeRequest)
  | unsubscribeRequest (event : UnsubscribeRequest)
  | sfuPublicationUpdates (event : SfuPublicationUpdates)
  | sfuSubscriberHandles (event : SfuSubscriberHandles)
  | packetReceived (bytes : Bytes)
  | resendSubscriptionUpdates
  | shutdown
deriving DecidableEq

/-- A remote track as it is handed to the user. -/
structure RemoteDataTrack where
  info : DataTrackInfo
  publisherIdentity : String
  published : PublicationId

/-- An event produced by the manager requiring external action. -/
inductive OutputEvent where
  | sfuUpdateSubscription (sid : DataTrackSid) (subscribe : Bool)
  | trackPublished (track : RemoteDataTrack)
  | trackUnpublished (sid : DataTrackSid)

/-! ## State -/

/-- Task for an individual data track with an active subscription, as it is spawned. -/
structure TrackTask where
  info : DataTrackInfo
  pipeline : Pipeline
  published : PublicationId
  /-- Capacity of the frame channel. -/
  bufferSize : ℕ

inductive SubscriptionState where
  /-- Track is not subscribed to. -/
  | none
  /-- Track is being subscribed to, waiting for subscriber handle. -/
  | pending (resultTxs : List RequestId) (bufferSize : ℕ)
  /-- Track has an active subscription: the task holds the other ends of its channels. -/
  | active (subHandle : Handle) (task : TaskId)
deriving DecidableEq

/-- The handle of an active subscription. -/
def SubscriptionState.activeHandle : SubscriptionState → Option Handle
  | .active subHandle _ => some subHandle
  | _ => Option.none

/-- Information and state for a remote data track. -/
structure Descriptor where
  info : DataTrackInfo
  publisherIdentity : String
  published : PublicationId
  subscription : SubscriptionState
deriving DecidableEq

structure Manager where
  decryptionProvider : Option DecryptionProvider
  /-- Mapping between track SID and descriptor. -/
  descriptors : AssocMap DataTrackSid Descriptor
  /-- Mapping between subscriber handle and track SID. -/
  subHandles : AssocMap Handle DataTrackSid
  nextPublication : PublicationId
  nextTask : TaskId

/-- What a handler does besides changing the manager's own state. -/
inductive Effect where
  /-- `event_out_tx.send` -/
  | emit (event : OutputEvent)
  /-- `result_tx.send`; a success carries a new receiver of the task's frame channel. -/
  | resolve (request : RequestId) (result : Except DataTrackSubscribeError TaskId)
  /-- `livekit_runtime::spawn(track_task.run())` -/
  | spawn (task : TaskId) (trackTask : TrackTask)
  /-- `packet_tx.try_send` -/
  | sendPacket (task : TaskId) (packet : Packet)
  /-- `published_tx.send(false)` -/
  | sendUnpublished (published : PublicationId)

namespace Manager

def new (decryptionProvider : Option DecryptionProvider) : Manager :=
  ⟨decryptionProvider, ∅, ∅, 0, 0⟩

/-- `descriptor.subscription = ..` for the descriptor of `sid`. -/
def setSubscription (m : Manager) (sid : DataTrackSid) (descriptor : Descriptor)
    (subscription : SubscriptionState) : Manager :=
  { m with descriptors := AList.insert sid { descriptor with subscription } m.descriptors }

/-- Perform a call for each element in turn. -/
def forEach {A : Type} (f : Manager → A → Manager × List Effect) :
    Manager → List A → Manager × List Effect
  | m, [] => (m, [])
  | m, a :: as =>
    let (m, effects) := f m a
    let (m, rest) := forEach f m as
    (m, effects ++ rest)

/-! ## Handlers -/

def onSubscribeRequest (m : Manager) (event : SubscribeRequest) : Manager × List Effect :=
  match AList.lookup event.sid m.descriptors with
  | none =>
    (m, [.resolve event.resultTx (.error (.internal "Cannot subscribe to unknown track"))])
  | some descriptor =>
    match descriptor.subscription with
    | .none =>
      (m.setSubscription event.sid descriptor
          (.pending [event.resultTx] event.options.bufferSize),
        [.emit (.sfuUpdateSubscription event.sid true)])
    | .pending resultTxs bufferSize =>
      (m.setSubscription event.sid descriptor
          (.pending (resultTxs ++ [event.resultTx]) bufferSize), [])
    | .active _ task => (m, [.resolve event.resultTx (.ok task)])

def onUnsubscribeRequest (m : Manager) (event : UnsubscribeRequest) : Manager × List Effect :=
  match AList.lookup event.sid m.descriptors with
  | none => (m, [])
  | some descriptor =>
    match descriptor.subscription with
    | .active subHandle _ =>
      let m := m.setSubscription event.sid descriptor .none
      ({ m with subHandles := AList.erase subHandle m.subHandles },
        [.emit (.sfuUpdateSubscription event.sid false)])
    | _ => (m, [])

def handleTrackPublished (m : Manager) (publisherIdentity : String) (info : DataTrackInfo) :
    Manager × List Effect :=
  match AList.lookup info.sid m.descriptors with
  | some _ => (m, [])
  | none =>
    let published := m.nextPublication
    let descriptor : Descriptor := ⟨info, publisherIdentity, published, .none⟩
    ({ m with
        descriptors := AList.insert info.sid descriptor m.descriptors
        nextPublication := published + 1 },
      [.emit (.trackPublished ⟨info, publisherIdentity, published⟩)])

def handleTrackUnpublished (m : Manager) (sid : DataTrackSid) : Manager × List Effect :=
  match AList.lookup sid m.descriptors with
  | none => (m, [])
  | some descriptor =>
    let m := { m with descriptors := AList.erase sid m.descriptors }
    let m :=
      match descriptor.subscription with
      | .active subHandle _ => { m with subHandles := AList.erase subHandle m.subHandles }
      | _ => m
    (m, [.sendUnpublished descriptor.published, .emit (.trackUnpublished sid)])

/-- Detect published tracks: those of the participant that have no descriptor yet. -/
def detectPublished (m : Manager) (update : String × List DataTrackInfo) :
    Manager × List Effect :=
  m.forEach (fun m info =>
    if info.sid ∈ m.descriptors then (m, []) else m.handleTrackPublished update.1 info) update.2

/-- Detect unpublished tracks of one participant: those with a descriptor that the update does
not list. -/
def detectUnpublished (orders : Orders) (m : Manager)
    (participant : (String × List DataTrackSid) × ℕ) : Manager × List Effect :=
  let ((publisherIdentity, sidsInUpdate), pass) := participant
  let unpublishedSids :=
    ((AssocMap.inOrder m.descriptors (orders pass)).filter fun entry =>
      entry.2.publisherIdentity = publisherIdentity ∧ entry.1 ∉ sidsInUpdate).map Prod.fst
  m.forEach handleTrackUnpublished unpublishedSids

def onSfuPublicationUpdates (m : Manager) (orders : Orders) (event : SfuPublicationUpdates) :
    Manager × List Effect :=
  if event.updates.toList.isEmpty then (m, [])
  else
    -- the identities of the update are distinct, so there is one entry for each
    let participantToSids := event.updates.toList.map fun update =>
      (update.1, update.2.map (·.sid))
    let (m, published) := m.forEach detectPublished event.updates.toList
    let (m, unpublished) :=
      m.forEach (detectUnpublished orders)
        ((AssocMap.reorder (orders 0) participantToSids).zipIdx 1)
    (m, published ++ unpublished)

/-- The pipeline of a new subscription: the provider is used for tracks with E2EE only. -/
def pipelineFor (m : Manager) (descriptor : Descriptor) : Pipeline :=
  let decryptionProvider := if descriptor.info.usesE2ee then m.decryptionProvider else none
  Pipeline.new descriptor.publisherIdentity decryptionProvider

def registerSubscriberHandle (m : Manager) (entry : Handle × DataTrackSid) :
    Manager × List Effect :=
  let (assignedHandle, sid) := entry
  match AList.lookup sid m.descriptors with
  | none => (m, [])
  | some descriptor =>
    match descriptor.subscription with
    | .none => (m, [])
    | .active subHandle task =>
      let m := { m with subHandles := AList.erase subHandle m.subHandles }
      let m := m.setSubscription sid descriptor (.active assignedHandle task)
      ({ m with subHandles := AList.insert assignedHandle sid m.subHandles }, [])
    | .pending resultTxs bufferSize =>
      let task := m.nextTask
      let trackTask : TrackTask :=
        ⟨descriptor.info, m.pipelineFor descriptor, descriptor.published, bufferSize⟩
      let m := m.setSubscription sid descriptor (.active assignedHandle task)
      ({ m with
          subHandles := AList.insert assignedHandle sid m.subHandles
          nextTask := task + 1 },
        .spawn task trackTask :: resultTxs.map fun resultTx => .resolve resultTx (.ok task))

def onSfuSubscriberHandles (m : Manager) (event : SfuSubscriberHandles) :
    Manager × List Effect :=
  m.forEach registerSubscriberHandle event.mapping.toList

def onPacketReceived (m : Manager) (bytes : Bytes) : Manager × List Effect :=
  match Packet.deserialize bytes with
  | .error _ => (m, [])
  | .ok packet =>
    match AList.lookup packet.header.trackHandle m.subHandles with
    | none => (m, [])
    | some sid =>
      match AList.lookup sid m.descriptors with
      | none => (m, [])
      | some descriptor =>
        match descriptor.subscription with
        | .active _ task => (m, [.sendPacket task packet])
        | _ => (m, [])

def onResendSubscriptionUpdates (m : Manager) (orders : Orders) : Manager × List Effect :=
  (m, (AssocMap.inOrder m.descriptors (orders 0)).filterMap fun entry =>
    match entry.2.subscription with
    | .none => none
    | .pending _ _ | .active _ _ => some (.emit (.sfuUpdateSubscription entry.1 true)))

/-- One turn of the run loop; `none` when the event ends the loop. -/
def handle (m : Manager) (orders : Orders) : InputEvent → Option (Manager × List Effect)
  | .subscribeRequest event => some (m.onSubscribeRequest event)
  | .unsubscribeRequest event => some (m.onUnsubscribeRequest event)
  | .sfuPublicationUpdates event => some (m.onSfuPublicationUpdates orders event)
  | .sfuSubscriberHandles event => some (m.onSfuSubscriberHandles event)
  | .packetReceived bytes => some (m.onPacketReceived bytes)
  | .resendSubscriptionUpdates => some (m.onResendSubscriptionUpdates orders)
  | .shutdown => none

/-! ## Rules for the handlers -/

variable {A : Type}

theorem forEach_nil (f : Manager → A → Manager × List Effect) (m : Manager) :
    m.forEach f [] = (m, []) := rfl

theorem forEach_cons (f : Manager → A → Manager × List Effect) (m : Manager) (a : A) (as : List A) :
    m.forEach f (a :: as)
      = (((f m a).1.forEach f as).1, (f m a).2 ++ ((f m a).1.forEach f as).2) := rfl

variable {m : Manager}

variable {f : Manager → A → Manager × List Effect} {h : Handle} {d : Descriptor}

/-- What each call keeps, the loop keeps. -/
theorem forEach_invariant (I : Manager → Prop) {as : List A} (hf : ∀ m, ∀ a ∈ as, I m → I (f m a).1)
    (hm : I m) : I (m.forEach f as).1 := by
  induction as generalizing m with
  | nil => exact hm
  | cons a as ih =>
    rw [forEach_cons]
    apply ih
    · intro m' b hb
      exact hf m' b (List.mem_cons_of_mem a hb)
    · exact hf m a List.mem_cons_self hm

/-- What is true of the effects of each call is true of those of the loop. -/
theorem forEach_effects {P : Effect → Prop} (hf : ∀ m a, ∀ e ∈ (f m a).2, P e) (m : Manager)
    (as : List A) :
    ∀ e ∈ (m.forEach f as).2, P e := by
  induction as generalizing m with
  | nil => simp [forEach_nil]
  | cons a as ih =>
    intro e he
    rw [forEach_cons] at he
    rcases List.mem_append.mp he with hfirst | hrest
    · exact hf m a e hfirst
    · exact ih (f m a).1 e hrest

@[simp] theorem lookup_setSubscription (m : Manager) (sid sid' : DataTrackSid)
    (descriptor : Descriptor) (subscription : SubscriptionState) :
    lookup sid' (m.setSubscription sid descriptor subscription).descriptors
      = if sid' = sid then some { descriptor with subscription }
        else lookup sid' m.descriptors :=
  AssocMap.lookup_insert_ite _ _ _ _

/-- The handle of the active subscription of a track. -/
def activeHandle (m : Manager) (sid : DataTrackSid) : Option Handle :=
  (AList.lookup sid m.descriptors).bind fun descriptor => descriptor.subscription.activeHandle

variable {sid : DataTrackSid}

theorem activeHandle_of_lookup {descriptor : Descriptor}
    (h : lookup sid m.descriptors = some descriptor) :
    m.activeHandle sid = descriptor.subscription.activeHandle := by
  rw [activeHandle, h, Option.bind_some]

/-! ## All that a handler can do -/

theorem onSubscribeRequest_cases (m : Manager) (event : SubscribeRequest) :
    (lookup event.sid m.descriptors = none ∧
      m.onSubscribeRequest event
        = (m, [.resolve event.resultTx (.error (.internal "Cannot subscribe to unknown track"))])) ∨
    (∃ d, lookup event.sid m.descriptors = some d ∧ d.subscription = .none ∧
      m.onSubscribeRequest event
        = (m.setSubscription event.sid d (.pending [event.resultTx] event.options.bufferSize),
            [.emit (.sfuUpdateSubscription event.sid true)])) ∨
    (∃ d resultTxs bufferSize, lookup event.sid m.descriptors = some d ∧
      d.subscription = .pending resultTxs bufferSize ∧
      m.onSubscribeRequest event
        = (m.setSubscription event.sid d (.pending (resultTxs ++ [event.resultTx]) bufferSize),
            [])) ∨
    (∃ d subHandle task, lookup event.sid m.descriptors = some d ∧
      d.subscription = .active subHandle task ∧
      m.onSubscribeRequest event = (m, [.resolve event.resultTx (.ok task)])) := by
  unfold onSubscribeRequest
  cases hd : lookup event.sid m.descriptors with
  | none => exact .inl ⟨rfl, rfl⟩
  | some d =>
    simp only
    cases hs : d.subscription with
    | none => exact .inr (.inl ⟨d, rfl, hs, rfl⟩)
    | pending resultTxs bufferSize =>
      exact .inr (.inr (.inl ⟨d, resultTxs, bufferSize, rfl, hs, rfl⟩))
    | active subHandle task =>
      exact .inr (.inr (.inr ⟨d, subHandle, task, rfl, hs, rfl⟩))

theorem onUnsubscribeRequest_cases (m : Manager) (event : UnsubscribeRequest) :
    (m.activeHandle event.sid = none ∧ m.onUnsubscribeRequest event = (m, [])) ∨
    (∃ d subHandle task, lookup event.sid m.descriptors = some d ∧
      d.subscription = .active subHandle task ∧
      m.onUnsubscribeRequest event
        = ({ m.setSubscription event.sid d .none with
              subHandles := erase subHandle m.subHandles },
            [.emit (.sfuUpdateSubscription event.sid false)])) := by
  unfold onUnsubscribeRequest
  cases hd : lookup event.sid m.descriptors with
  | none => exact .inl ⟨by rw [activeHandle, hd]; rfl, rfl⟩
  | some d =>
    have hactive := activeHandle_of_lookup hd
    simp only
    cases hs : d.subscription with
    | none | pending => exact .inl ⟨by rw [hactive, hs]; rfl, rfl⟩
    | active subHandle task => exact .inr ⟨d, subHandle, task, rfl, hs, rfl⟩

theorem handleTrackPublished_cases (m : Manager) (publisherIdentity : String)
    (info : DataTrackInfo) :
    m.handleTrackPublished publisherIdentity info = (m, []) ∨
    lookup info.sid m.descriptors = none ∧
      m.handleTrackPublished publisherIdentity info
        = ({ m with
              descriptors := insert info.sid
                ⟨info, publisherIdentity, m.nextPublication, .none⟩ m.descriptors
              nextPublication := m.nextPublication + 1 },
            [.emit (.trackPublished ⟨info, publisherIdentity, m.nextPublication⟩)]) := by
  unfold handleTrackPublished
  cases lookup info.sid m.descriptors with
  | some d => exact .inl rfl
  | none => exact .inr ⟨rfl, rfl⟩

theorem handleTrackUnpublished_cases (m : Manager) (sid : DataTrackSid) :
    (lookup sid m.descriptors = none ∧ m.handleTrackUnpublished sid = (m, [])) ∨
    (∃ d subHandles, lookup sid m.descriptors = some d ∧
      (∀ h, lookup h subHandles
        = if d.subscription.activeHandle = some h then none else lookup h m.subHandles) ∧
      m.handleTrackUnpublished sid
        = ({ m with descriptors := erase sid m.descriptors, subHandles },
            [.sendUnpublished d.published, .emit (.trackUnpublished sid)])) := by
  unfold handleTrackUnpublished
  cases hd : lookup sid m.descriptors with
  | none => exact .inl ⟨rfl, rfl⟩
  | some d =>
    simp only
    cases hs : d.subscription with
    | active subHandle task =>
      refine .inr ⟨d, erase subHandle m.subHandles, rfl, ?_, rfl⟩
      intro h
      rw [AssocMap.lookup_erase_ite, hs]
      simp [SubscriptionState.activeHandle, eq_comm]
    | none | pending =>
      exact .inr ⟨d, m.subHandles, rfl, by simp [hs, SubscriptionState.activeHandle], rfl⟩

theorem registerSubscriberHandle_cases (m : Manager) (h : Handle) (sid : DataTrackSid) :
    ((∀ d, lookup sid m.descriptors = some d → d.subscription = .none) ∧
      m.registerSubscriberHandle (h, sid) = (m, [])) ∨
    (∃ d subHandle task, lookup sid m.descriptors = some d ∧
      d.subscription = .active subHandle task ∧
      m.registerSubscriberHandle (h, sid)
        = ({ m.setSubscription sid d (.active h task) with
              subHandles := insert h sid (erase subHandle m.subHandles) }, [])) ∨
    (∃ d resultTxs bufferSize, lookup sid m.descriptors = some d ∧
      d.subscription = .pending resultTxs bufferSize ∧
      m.registerSubscriberHandle (h, sid)
        = ({ m.setSubscription sid d (.active h m.nextTask) with
              subHandles := insert h sid m.subHandles
              nextTask := m.nextTask + 1 },
            .spawn m.nextTask ⟨d.info, m.pipelineFor d, d.published, bufferSize⟩
              :: resultTxs.map fun resultTx => .resolve resultTx (.ok m.nextTask))) := by
  unfold registerSubscriberHandle
  cases hd : lookup sid m.descriptors with
  | none => exact .inl ⟨by simp, by simp only [hd]⟩
  | some d =>
    simp only [hd]
    cases hs : d.subscription with
    | none => exact .inl ⟨by simp [hs], rfl⟩
    | active subHandle task => exact .inr (.inl ⟨d, subHandle, task, rfl, hs, rfl⟩)
    | pending resultTxs bufferSize =>
      exact .inr (.inr ⟨d, resultTxs, bufferSize, rfl, hs, rfl⟩)

theorem onPacketReceived_cases (m : Manager) (bytes : Bytes) :
    m.onPacketReceived bytes = (m, []) ∨
    ∃ task packet, m.onPacketReceived bytes = (m, [.sendPacket task packet]) := by
  unfold onPacketReceived
  cases Packet.deserialize bytes with
  | error err => exact .inl rfl
  | ok packet =>
    simp only
    cases lookup packet.header.trackHandle m.subHandles with
    | none => exact .inl rfl
    | some sid =>
      simp only
      cases lookup sid m.descriptors with
      | none => exact .inl rfl
      | some d =>
        simp only
        cases d.subscription with
        | active subHandle task => exact .inr ⟨task, packet, rfl⟩
        | none | pending => exact .inl rfl

/-- What becomes of a descriptor when a handle is registered: it stays as it is, unless the
handle is for its track and there is a subscription, which is active then. -/
theorem registerSubscriberHandle_lookup (m : Manager) (h : Handle) (sid sid' : DataTrackSid) :
    (lookup sid' (m.registerSubscriberHandle (h, sid)).1.descriptors
        = lookup sid' m.descriptors ∧
      (sid' = sid → ∀ d, lookup sid m.descriptors = some d → d.subscription = .none)) ∨
    sid' = sid ∧ ∃ d task, lookup sid m.descriptors = some d ∧ d.subscription ≠ .none ∧
      (∀ g task', d.subscription = .active g task' → task' = task) ∧
      lookup sid' (m.registerSubscriberHandle (h, sid)).1.descriptors
        = some { d with subscription := .active h task } := by
  rcases m.registerSubscriberHandle_cases h sid with
    ⟨hnone, he⟩ | ⟨d, subHandle, task, hd, hs, he⟩ | ⟨d, _, _, hd, hs, he⟩
  · exact .inl ⟨by rw [he], fun _ => hnone⟩
  · rw [he]
    by_cases hsid : sid' = sid
    · refine .inr ⟨hsid, d, task, hd, by simp [hs], ?_, ?_⟩
      · intro g task' hg
        rw [hs] at hg
        cases hg
        rfl
      · exact (lookup_setSubscription m sid sid' d _).trans (if_pos hsid)
    · exact .inl ⟨(lookup_setSubscription m sid sid' d _).trans (if_neg hsid),
        fun heq => absurd heq hsid⟩
  · rw [he]
    by_cases hsid : sid' = sid
    · refine .inr ⟨hsid, d, m.nextTask, hd, by simp [hs], ?_, ?_⟩
      · intro g task' hg
        rw [hs] at hg
        cases hg
      · exact (lookup_setSubscription m sid sid' d _).trans (if_pos hsid)
    · exact .inl ⟨(lookup_setSubscription m sid sid' d _).trans (if_neg hsid),
        fun heq => absurd heq hsid⟩

/-- A subscription that is still pending has not been touched. -/
theorem registerSubscriberHandle_pending {sid' : DataTrackSid} {resultTxs : List RequestId}
    {bufferSize : ℕ} (hd : lookup sid' (m.registerSubscriberHandle (h, sid)).1.descriptors = some d)
    (hs : d.subscription = .pending resultTxs bufferSize) :
    lookup sid' m.descriptors = some d := by
  rcases m.registerSubscriberHandle_lookup h sid sid' with ⟨heq, -⟩ | ⟨-, d', _, -, -, -, hlookup⟩
  · rwa [heq] at hd
  · cases hlookup.symm.trans hd
    cases hs

/-- A subscription that gets a handle is active after the event. -/
theorem onSfuSubscriberHandles_active {event : SfuSubscriberHandles}
    (hmem : (h, sid) ∈ event.mapping.toList) (hd : lookup sid m.descriptors = some d)
    (hs : d.subscription ≠ .none) :
    ∃ d' g task, lookup sid (m.onSfuSubscriberHandles event).1.descriptors = some d' ∧
      d'.info = d.info ∧ d'.subscription = .active g task := by
  let Kept (m : Manager) := ∃ d', lookup sid m.descriptors = some d' ∧
    d'.info = d.info ∧ d'.subscription ≠ .none
  let Active (m : Manager) := ∃ d' g task, lookup sid m.descriptors = some d' ∧
    d'.info = d.info ∧ d'.subscription = .active g task
  have hactive : ∀ m entry, Active m → Active (m.registerSubscriberHandle entry).1 := by
    rintro m ⟨g, t⟩ ⟨d', g', task', hd', hinfo, hs'⟩
    rcases m.registerSubscriberHandle_lookup g t sid with
      ⟨heq, -⟩ | ⟨rfl, d'', task, hd'', -, -, hlookup⟩
    · exact ⟨d', g', task', heq.trans hd', hinfo, hs'⟩
    · rw [hd', Option.some.injEq] at hd''
      exact ⟨_, g, task, hlookup, hd'' ▸ hinfo, rfl⟩
  have hkept : ∀ m entry, Kept m → Kept (m.registerSubscriberHandle entry).1 ∧
      (entry.2 = sid → Active (m.registerSubscriberHandle entry).1) := by
    rintro m ⟨g, t⟩ ⟨d', hd', hinfo, hs'⟩
    rcases m.registerSubscriberHandle_lookup g t sid with
      ⟨heq, hnone⟩ | ⟨rfl, d'', task, hd'', -, -, hlookup⟩
    · refine ⟨⟨d', heq.trans hd', hinfo, hs'⟩, ?_⟩
      rintro rfl
      exact absurd (hnone rfl d' hd') hs'
    · rw [hd', Option.some.injEq] at hd''
      exact ⟨⟨_, hlookup, hd'' ▸ hinfo, by simp⟩, fun _ => ⟨_, g, task, hlookup, hd'' ▸ hinfo, rfl⟩⟩
  have hloop : ∀ entries m, Kept m → (h, sid) ∈ entries →
      Active (m.forEach registerSubscriberHandle entries).1 := by
    intro entries
    induction entries with
    | nil =>
      intro m _ hmem
      cases hmem
    | cons entry rest ih =>
      intro m hm hmem
      rw [forEach_cons]
      rcases List.mem_cons.mp hmem with rfl | hrest
      · refine forEach_invariant Active ?_ ((hkept m _ hm).2 rfl)
        intro m' entry' _ hm'
        exact hactive m' entry' hm'
      · exact ih _ (hkept m entry hm).1 hrest
  exact hloop event.mapping.toList m ⟨d, hd, rfl, hs⟩ hmem

/-- The SFU is told to unsubscribe from a track only when the subscription has just ended. -/
theorem handle_unsubscribes {orders : Orders} {event : InputEvent} {result : Manager × List Effect}
    (h : m.handle orders event = some result)
    (hmem : .emit (.sfuUpdateSubscription sid false) ∈ result.2) :
    ∃ d, lookup sid result.1.descriptors = some d ∧ d.subscription = .none := by
  cases event with
  | subscribeRequest event =>
    cases h
    rcases m.onSubscribeRequest_cases event with
      ⟨-, he⟩ | ⟨_, -, -, he⟩ | ⟨_, _, _, -, -, he⟩ | ⟨_, _, _, -, -, he⟩
    all_goals simp [he] at hmem
  | unsubscribeRequest event =>
    cases h
    rcases m.onUnsubscribeRequest_cases event with ⟨-, he⟩ | ⟨d, _, _, hd, -, he⟩
    · simp [he] at hmem
    · rw [he] at hmem ⊢
      have hsid : sid = event.sid := by simpa using hmem
      refine ⟨{ d with subscription := .none }, ?_, rfl⟩
      exact (lookup_setSubscription m event.sid sid d .none).trans (if_pos hsid)
  | sfuPublicationUpdates event =>
    cases h
    exfalso
    have hpublished : ∀ m (update : String × List DataTrackInfo), ∀ e ∈
        (detectPublished m update).2, e ≠ .emit (.sfuUpdateSubscription sid false) := by
      intro m update
      apply forEach_effects
      intro m info e he
      split at he
      · cases he
      · rcases m.handleTrackPublished_cases update.1 info with hm | ⟨-, hm⟩
        · rw [hm] at he
          cases he
        · rw [hm, List.mem_singleton] at he
          simp [he]
    have hunpublished : ∀ m participant, ∀ e ∈ (detectUnpublished orders m participant).2,
        e ≠ .emit (.sfuUpdateSubscription sid false) := by
      intro m participant
      apply forEach_effects
      intro m sid' e he
      rcases m.handleTrackUnpublished_cases sid' with ⟨-, hm⟩ | ⟨d, _, -, -, hm⟩
      all_goals
        rw [hm] at he
        simp only [List.mem_cons, List.not_mem_nil, or_false] at he
      · rcases he with rfl | rfl
        all_goals simp
    unfold onSfuPublicationUpdates at hmem
    split at hmem
    · cases hmem
    · rcases List.mem_append.mp hmem with hfirst | hsecond
      · exact forEach_effects hpublished _ _ _ hfirst rfl
      · exact forEach_effects hunpublished _ _ _ hsecond rfl
  | sfuSubscriberHandles event =>
    cases h
    exfalso
    refine forEach_effects (P := fun e => e ≠ .emit (.sfuUpdateSubscription sid false)) ?_ _ _ _
      hmem rfl
    intro m entry e he
    obtain ⟨g, t⟩ := entry
    rcases m.registerSubscriberHandle_cases g t with
      ⟨-, hm⟩ | ⟨_, _, _, -, -, hm⟩ | ⟨_, _, _, -, -, hm⟩
    · simp [hm] at he
    · simp [hm] at he
    · rw [hm] at he
      rcases List.mem_cons.mp he with rfl | hresolve
      · simp
      · obtain ⟨_, -, rfl⟩ := List.mem_map.mp hresolve
        simp
  | packetReceived bytes =>
    cases h
    rcases m.onPacketReceived_cases bytes with he | ⟨_, _, he⟩
    all_goals simp [he] at hmem
  | resendSubscriptionUpdates =>
    cases h
    obtain ⟨entry, -, hentry⟩ := List.mem_filterMap.mp hmem
    split at hentry <;> simp at hentry
  | shutdown => cases h

end Manager

end LiveKit.DataTrack.Remote
