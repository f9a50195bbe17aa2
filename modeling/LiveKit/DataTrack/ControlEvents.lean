import LiveKit.DataTrack.Local.SystemTheorems
import LiveKit.DataTrack.Remote.SystemTheorems
import LiveKit.Lib.Mailbox

/-!
# Control events and the queues of the managers

Either manager has one bounded queue for everything that it is told. Packets of the transport and
what the application asks for may be refused when there is no place left. The control events, which
the room and the track tasks send, say what happened, and nobody sends them again.
-/

namespace LiveKit.DataTrack

open TransitionSystem

/-! ## The remote manager -/

namespace Remote

def InputEvent.isControl : InputEvent → Bool
  | .sfuPublicationUpdates _ | .sfuSubscriberHandles _
  | .resendSubscriptionUpdates | .shutdown => true
  | .subscribeRequest _ | .unsubscribeRequest _ | .packetReceived _ => false

namespace State

/-- The control events in the queue. -/
def control (s : State) : List InputEvent := s.queue.filter InputEvent.isControl

/-- The control event that the room offers while the task of the manager runs. -/
def offered (s : State) : Action → List InputEvent
  | .sendInput event => if s.mode = .ended then [] else [event].filter InputEvent.isControl
  | _ => []

/-- The control event that the manager takes from its queue to process it. -/
def taken (s : State) : Action → List InputEvent
  | .manager _ =>
    match s.mode, s.queue with
    | .running, event :: _ => [event].filter InputEvent.isControl
    | _, _ => []
  | _ => []

/-- Each control event that was offered is in the queue or has been taken, at every time. -/
def ControlKept (provider : Option DecryptionProvider) (run : List Action) : Prop :=
  NeverLost State.step offered taken control (init provider) run

/-- A control event that is offered finds a place, and none is left when the queue is dropped. -/
structure FindsPlace (s : State) (a : Action) : Prop where
  place : ∀ event, a = .sendInput event → event.isControl = true → s.mode ≠ .ended →
    s.queue.length < EVENT_BUFFER_COUNT
  left : ∀ orders, a = .manager orders → s.mode = .stopping [] →
    ∀ event ∈ s.queue, event.isControl = false

/-- What a step means for the control events. -/
abbrev ControlStep (s : State) (a : Action) (s' : State) : Prop → Prop :=
  QueueStep InputEvent.isControl EVENT_BUFFER_COUNT s.queue s'.queue (s.offered a) (s.taken a)

theorem managerStep_control {s s' : State} {orders : Orders}
    (hstep : s.managerStep orders = some s') :
    ∃ P, (s.FindsPlace (.manager orders) ↔ P) ∧ s.ControlStep (.manager orders) s' P := by
  have hkept : s.mode ≠ .stopping [] → (s.FindsPlace (.manager orders) ↔ True) := by
    intro hmode
    refine iff_true_intro ⟨by simp, ?_⟩
    exact fun _ _ hstopping => absurd hstopping hmode
  have htaken : s.mode ≠ .running → s.taken (.manager orders) = [] := by
    intro hmode
    show (match s.mode, s.queue with
      | .running, event :: _ => [event].filter InputEvent.isControl
      | _, _ => []) = []
    split
    · next hrunning _ => exact absurd hrunning hmode
    · rfl
  have hhead : ∀ event, s.mode = .running → s.queue = event :: s'.queue →
      ∃ P, (s.FindsPlace (.manager orders) ↔ P) ∧ s.ControlStep (.manager orders) s' P := by
    intro event hmode hqueue
    have hevent : s.taken (.manager orders) = [event].filter InputEvent.isControl := by
      unfold taken
      simp only [hmode, hqueue]
    refine ⟨True, hkept (by simp [hmode]), ?_⟩
    unfold ControlStep
    rw [hevent]
    exact .take event hqueue
  have hrest : s.mode ≠ .running → s.mode ≠ .stopping [] → s'.queue = s.queue →
      ∃ P, (s.FindsPlace (.manager orders) ↔ P) ∧ s.ControlStep (.manager orders) s' P := by
    intro hmode hstopping hqueue
    refine ⟨True, hkept hstopping, ?_⟩
    unfold ControlStep
    rw [htaken hmode, hqueue]
    exact .same rfl
  rcases managerTurn hstep with ⟨event, rest, result, hmode, hqueue, hresult⟩ |
    ⟨event, rest, hmode, hqueue, hresult⟩ | hmode | ⟨d, todo, hmode, -⟩ |
    ⟨d, todo, resultTxs, _, hmode, -⟩ | ⟨d, todo, _, _, hmode, -⟩ | ⟨task, todo, t, hmode, -, -⟩
  · refine hhead event hmode ?_
    rw [perform_queue, hqueue]
  · exact hhead event hmode hqueue
  · obtain ⟨requests, he⟩ := dropQueue_frame { s with mode := .ended }
    refine ⟨∀ event ∈ s.queue, event.isControl = false, ?_, ?_⟩
    · constructor
      · exact fun hplace => hplace.left orders rfl hmode
      · exact fun hnone => ⟨by simp, fun _ _ _ => hnone⟩
    · unfold ControlStep
      rw [htaken (by simp [hmode]), he]
      exact .drop rfl
  · exact hrest (by simp [hmode]) (by simp [hmode]) rfl
  · obtain ⟨requests, he⟩ := failAll_frame (s.applyEffect (.sendUnpublished d.published)) resultTxs
    refine hrest (by simp [hmode]) (by simp [hmode]) ?_
    rw [he]
    rfl
  · exact hrest (by simp [hmode]) (by simp [hmode]) rfl
  · exact hrest (by simp [hmode]) (by simp [hmode]) rfl

theorem sendInput_control {s s' : State} {event : InputEvent}
    (hstep : s.sendInput event = some s') :
    ∃ P, (s.FindsPlace (.sendInput event) ↔ P) ∧ s.ControlStep (.sendInput event) s' P := by
  have hs' : s'.queue = if ¬ s.mode = .ended ∧ s.queue.length < EVENT_BUFFER_COUNT then
      s.queue ++ [event] else s.queue := by
    unfold sendInput at hstep
    cases event with
    | subscribeRequest | unsubscribeRequest => cases hstep
    | _ =>
      simp only at hstep
      split at hstep
      · next hplace => rw [if_pos hplace, ← Option.some.inj hstep]
      · next hplace => rw [if_neg hplace, ← Option.some.inj hstep]
  obtain ⟨P, hP, hoffer⟩ := QueueStep.offer (p := InputEvent.isControl) event hs'
  refine ⟨P, ?_, hoffer⟩
  rw [hP]
  constructor
  · exact fun hplace => hplace.place event rfl
  · intro hroom
    refine ⟨?_, by simp⟩
    intro event' ha
    cases ha
    exact hroom

/-- The application and the track tasks bring no control event and take none. -/
theorem step_control {s s' : State} {a : Action} (hstep : s.step a = some s') :
    ∃ P, (s.FindsPlace a ↔ P) ∧ s.ControlStep a s' P := by
  have hsame : (∀ event, a ≠ .sendInput event) → (∀ orders, a ≠ .manager orders) →
      s.offered a = [] → s.taken a = [] →
      s'.queue.filter InputEvent.isControl = s.queue.filter InputEvent.isControl →
      ∃ P, (s.FindsPlace a ↔ P) ∧ s.ControlStep a s' P := by
    intro hinput hmanager hoffered htaken hqueue
    refine ⟨True, iff_true_intro ⟨fun event ha => absurd ha (hinput event),
      fun orders ha => absurd ha (hmanager orders)⟩, ?_⟩
    unfold ControlStep
    rw [hoffered, htaken]
    exact .same hqueue
  cases a with
  | manager orders => exact managerStep_control hstep
  | sendInput event => exact sendInput_control hstep
  | subscribe sid options =>
    refine hsame (by simp) (by simp) rfl rfl ?_
    rcases subscribe_cases hstep with ⟨-, rfl⟩ | rfl
    · rfl
    · rw [List.filter_append]
      exact List.append_nil _
  | abandon request =>
    refine hsame (by simp) (by simp) rfl rfl ?_
    rw [abandon_cases hstep]
  | task task st =>
    refine hsame (by simp) (by simp) rfl rfl ?_
    obtain ⟨t, -, hcases⟩ := taskStep_cases hstep
    rcases hcases with ⟨-, -, rfl⟩ | ⟨-, -, -, rfl⟩ | ⟨packet, rest, -, -, rfl⟩ | ⟨-, -, rfl⟩ |
      ⟨-, rfl⟩
    · rfl
    · rfl
    · obtain ⟨deliveries, he, -⟩ := s.receive_eq task t st packet rest
      rw [he]
    · rfl
    · rw [List.filter_append]
      exact List.append_nil _

theorem findsPlace_iff (provider : Option DecryptionProvider) (run : List Action) :
    ControlKept provider run ↔
      EachStep State.step (fun s a _ => s.FindsPlace a) (init provider) run := by
  refine neverLost_iff ?_ rfl run
  intro s a s' hstep
  obtain ⟨P, hP, hcontrol⟩ := step_control hstep
  rw [hP]
  exact hcontrol.balance

end State

end Remote

/-! ## The local manager -/

namespace Local

def InputEvent.isControl : InputEvent → Bool
  | .sfuPublishResponse _ | .sfuUnpublishResponse _ | .republishTracks | .unpublishRequest _
  | .shutdown => true
  | .publishRequest _ | .publishCancelled _ | .queryPublished _ => false

namespace State

/-- The control events in the queue. -/
def control (s : State) : List InputEvent := s.queue.filter InputEvent.isControl

/-- The control event that the room or a track task offers while the task of the manager runs. A
track task waits for a place in the queue. -/
def offered (s : State) : Action → List InputEvent
  | .sendInput event => if s.mode = .ended then [] else [event].filter InputEvent.isControl
  | .task track .unpublish =>
    match AList.lookup track s.tracks with
    | some t => if s.mode = .ended then [] else [.unpublishRequest ⟨t.info.pubHandle⟩]
    | none => []
  | _ => []

/-- The control event that the manager takes from its queue to process it. -/
def taken (s : State) : Action → List InputEvent
  | .manager _ =>
    match s.mode, s.queue with
    | .running, event :: _ => [event].filter InputEvent.isControl
    | _, _ => []
  | _ => []

/-- Each control event that was offered is in the queue or has been taken, at every time. -/
def ControlKept (provider : Option EncryptionProvider) (run : List Action) : Prop :=
  NeverLost State.step offered taken control (new provider) run

/-- A control event that is offered finds a place, and none is left when the queue is dropped. -/
structure FindsPlace (s : State) (a : Action) : Prop where
  place : ∀ event, a = .sendInput event → event.isControl = true → s.mode ≠ .ended →
    s.queue.length < EVENT_BUFFER_COUNT
  left : ∀ turn, a = .manager turn → s.mode = .stopping [] →
    ∀ event ∈ s.queue, event.isControl = false

/-- What a step means for the control events. -/
abbrev ControlStep (s : State) (a : Action) (s' : State) : Prop → Prop :=
  QueueStep InputEvent.isControl EVENT_BUFFER_COUNT s.queue s'.queue (s.offered a) (s.taken a)

theorem managerStep_control {s s' : State} {turn : Turn} (hstep : s.managerStep turn = some s') :
    ∃ P, (s.FindsPlace (.manager turn) ↔ P) ∧ s.ControlStep (.manager turn) s' P := by
  have hkept : s.mode ≠ .stopping [] → (s.FindsPlace (.manager turn) ↔ True) := by
    intro hmode
    refine iff_true_intro ⟨by simp, ?_⟩
    exact fun _ _ hstopping => absurd hstopping hmode
  have htaken : s.mode ≠ .running → s.taken (.manager turn) = [] := by
    intro hmode
    show (match s.mode, s.queue with
      | .running, event :: _ => [event].filter InputEvent.isControl
      | _, _ => []) = []
    split
    · next hrunning _ => exact absurd hrunning hmode
    · rfl
  obtain ⟨-, ⟨hmode, event, hqueue⟩ | ⟨hmode, ⟨hstopping, hsame⟩ | ⟨hstopping, -, hnil⟩⟩⟩ :=
    managerTurn_queue (managerTurn hstep)
  · have hevent : s.taken (.manager turn) = [event].filter InputEvent.isControl := by
      unfold taken
      simp only [hmode, hqueue]
    refine ⟨True, hkept (by simp [hmode]), ?_⟩
    unfold ControlStep
    rw [hevent]
    exact .take event hqueue
  · refine ⟨True, hkept hstopping, ?_⟩
    unfold ControlStep
    rw [htaken hmode, hsame]
    exact .same rfl
  · refine ⟨∀ event ∈ s.queue, event.isControl = false, ?_, ?_⟩
    · constructor
      · exact fun hplace => hplace.left turn rfl hstopping
      · exact fun hnone => ⟨by simp, fun _ _ _ => hnone⟩
    · unfold ControlStep
      rw [htaken hmode, hnil]
      exact .drop rfl

theorem sendInput_control {s s' : State} {event : InputEvent}
    (hstep : s.sendInput event = some s') :
    ∃ P, (s.FindsPlace (.sendInput event) ↔ P) ∧ s.ControlStep (.sendInput event) s' P := by
  have hs' : s'.queue = if ¬ s.mode = .ended ∧ s.queue.length < EVENT_BUFFER_COUNT then
      s.queue ++ [event] else s.queue := by
    have hsent : s' = (s.enqueue event).getD s := by
      unfold sendInput at hstep
      cases event with
      | publishRequest | publishCancelled | queryPublished | unpublishRequest => cases hstep
      | _ => exact (Option.some.inj hstep).symm
    rw [hsent]
    unfold enqueue
    split
    · rfl
    · rfl
  obtain ⟨P, hP, hoffer⟩ := QueueStep.offer (p := InputEvent.isControl) event hs'
  refine ⟨P, ?_, hoffer⟩
  rw [hP]
  constructor
  · exact fun hplace => hplace.place event rfl
  · intro hroom
    refine ⟨?_, by simp⟩
    intro event' ha
    cases ha
    exact hroom

/-- A track task waits until its unpublish request has a place. -/
theorem taskStep_control {s s' : State} {track : TrackId} {move : TaskMove}
    (hstep : s.taskStep track move = some s') : s.ControlStep (.task track move) s' True := by
  have hquiet : s.offered (.task track move) = [] → s'.queue = s.queue →
      s.ControlStep (.task track move) s' True := by
    intro hoffered hqueue
    have htaken : s.taken (.task track move) = [] := rfl
    unfold ControlStep
    rw [hoffered, htaken, hqueue]
    exact .same rfl
  obtain ⟨t, ht, hturn⟩ := taskTurn hstep
  cases hturn with
  | unpublish hphase hmode hroom =>
    have hoffered : s.offered (.task track .unpublish)
        = [.unpublishRequest ⟨t.info.pubHandle⟩] := by
      unfold offered
      simp only [ht, if_neg hmode]
    have htaken : s.taken (.task track .unpublish) = [] := rfl
    have hput : QueueStep InputEvent.isControl EVENT_BUFFER_COUNT s.queue
        (s.queue ++ [.unpublishRequest ⟨t.info.pubHandle⟩])
        ([InputEvent.unpublishRequest ⟨t.info.pubHandle⟩].filter InputEvent.isControl) []
        (_ → s.queue.length < EVENT_BUFFER_COUNT) :=
      .put _ (by rw [if_pos hroom])
    rw [iff_true_intro fun _ => hroom] at hput
    unfold ControlStep
    rw [hoffered, htaken]
    exact hput
  | finish hphase hmode =>
    refine hquiet ?_ rfl
    unfold offered
    simp only [ht, if_pos hmode]
  | _ => exact hquiet rfl rfl

/-- The room, the manager and the track tasks apart, nobody brings a control event or takes one. -/
theorem step_control {s s' : State} {a : Action} (hstep : s.step a = some s') :
    ∃ P, (s.FindsPlace a ↔ P) ∧ s.ControlStep a s' P := by
  have hkept : (∀ event, a ≠ .sendInput event) → (∀ turn, a ≠ .manager turn) →
      (s.FindsPlace a ↔ True) := fun hinput hmanager =>
    iff_true_intro ⟨fun event ha => absurd ha (hinput event),
      fun turn ha => absurd ha (hmanager turn)⟩
  have hsame : (∀ event, a ≠ .sendInput event) → (∀ turn, a ≠ .manager turn) →
      s.offered a = [] → s.taken a = [] →
      s'.queue.filter InputEvent.isControl = s.queue.filter InputEvent.isControl →
      ∃ P, (s.FindsPlace a ↔ P) ∧ s.ControlStep a s' P := by
    intro hinput hmanager hoffered htaken hqueue
    refine ⟨True, hkept hinput hmanager, ?_⟩
    unfold ControlStep
    rw [hoffered, htaken]
    exact .same hqueue
  have hpush : ∀ event : InputEvent, event.isControl = false →
      (s.queue ++ [event]).filter InputEvent.isControl = s.queue.filter InputEvent.isControl := by
    intro event hevent
    rw [List.filter_append, List.filter_cons_of_neg (by simp [hevent]), List.filter_nil,
      List.append_nil]
  cases a with
  | manager turn => exact managerStep_control hstep
  | sendInput event => exact sendInput_control hstep
  | task track move => exact ⟨True, hkept nofun nofun, taskStep_control hstep⟩
  | forward request move =>
    refine hsame nofun nofun rfl rfl ?_
    obtain ⟨forward, hf, hturn⟩ := forwardTurn hstep
    cases hturn with
    | notify hphase => exact hpush _ rfl
    | _ => rfl
  | _ =>
    -- the application
    rcases step_cases hstep with ⟨-, happ⟩ | ⟨_, ha, -⟩ | ⟨_, _, _, ha, -⟩ | ⟨_, _, _, ha, -⟩
    · refine hsame nofun nofun rfl rfl ?_
      cases happ
      all_goals first | rfl | exact hpush _ rfl
    all_goals cases ha

theorem findsPlace_iff (provider : Option EncryptionProvider) (run : List Action) :
    ControlKept provider run ↔
      EachStep State.step (fun s a _ => s.FindsPlace a) (new provider) run := by
  refine neverLost_iff ?_ rfl run
  intro s a s' hstep
  obtain ⟨P, hP, hcontrol⟩ := step_control hstep
  rw [hP]
  exact hcontrol.balance

end State

end Local

/-! ## Both managers -/

/-- **Control events.** In a run of either manager, every control event that is offered while the
manager runs is in its queue or has been taken, at every time, exactly if every one of them finds
a place in the queue and none is left there when the manager, after a `Shutdown`, drops it. -/
theorem controlKept_iff (decryptionProvider : Option DecryptionProvider)
    (remoteRun : List Remote.Action) (encryptionProvider : Option EncryptionProvider)
    (localRun : List Local.Action) :
    (Remote.State.ControlKept decryptionProvider remoteRun ↔
      EachStep Remote.State.step (fun s a _ => s.FindsPlace a)
        (Remote.State.init decryptionProvider) remoteRun) ∧
    (Local.State.ControlKept encryptionProvider localRun ↔
      EachStep Local.State.step (fun s a _ => s.FindsPlace a)
        (Local.State.new encryptionProvider) localRun) :=
  ⟨Remote.State.findsPlace_iff decryptionProvider remoteRun,
    Local.State.findsPlace_iff encryptionProvider localRun⟩

/-- Sixteen packets of the transport, or sixteen publish requests of the application, and the
`Shutdown` has no place: the managers run on. -/
theorem shutdown_without_place :
    (¬ ∀ (provider : Option DecryptionProvider) (run : List Remote.Action),
      Remote.State.ControlKept provider run) ∧
    ¬ ∀ (provider : Option EncryptionProvider) (run : List Local.Action),
      Local.State.ControlKept provider run := by
  constructor
  · intro hkept
    let run : List Remote.Action :=
      List.replicate 16 (.sendInput (.packetReceived [])) ++ [.sendInput .shutdown]
    obtain ⟨s, hs⟩ : ∃ s, exec Remote.State.step (Remote.State.init none) run = some s := ⟨_, rfl⟩
    refine not_neverLost hs ?_ (hkept none run)
    have hs' := Option.some.inj hs
    rw [← hs']
    decide
  · intro hkept
    let run : List Local.Action := List.replicate 16 (.publish ⟨"track"⟩) ++ [.sendInput .shutdown]
    obtain ⟨s, hs⟩ : ∃ s, exec Local.State.step (Local.State.new none) run = some s := ⟨_, rfl⟩
    refine not_neverLost hs ?_ (hkept none run)
    have hs' := Option.some.inj hs
    rw [← hs']
    decide

end LiveKit.DataTrack
