import LiveKit.Lib.LastWrite
import LiveKit.Room.TrackUpdates

/-!
# What the server believes about publications

The tasks of two calls may send their messages in either order, and a message about the settings of
a track leaves out what other calls have set. `carries_iff` says when the last messages have what
the publications have.
-/

namespace LiveKit.TrackUpdates

open Record LastWrite State List TransitionSystem

/-! ## What is promised -/

/-- What a message on record says of the mute state. -/
def Record.muteSent : Record → Option Bool
  | .sent _ _ (.mute request) => some request.muted
  | _ => none

def Record.subscriptionSent : Record → Option Bool
  | .sent _ _ (.subscription update) => some update.subscribe
  | _ => none

def Record.settingSent : Record → Option UpdateTrackSettings
  | .sent _ _ (.trackSetting update) => some update
  | _ => none

/-- The quality that a call asks for; the publication does not keep it. -/
def Record.qualityCalled : Record → Option VideoQuality
  | .called (.setVideoQuality quality) => some quality
  | _ => none

def State.AllDone (s : State) : Prop := ∀ task ∈ s.tasks, task.point = .done

instance (s : State) : Decidable s.AllDone :=
  inferInstanceAs (Decidable (∀ task ∈ s.tasks, task.point = .done))

/-- The settings are those of a publication, and the quality is the one that was asked for last. -/
structure UpdateTrackSettings.Carry (update : UpdateTrackSettings) (p : RemotePublication)
    (asked : Option VideoQuality) : Prop where
  enabled : ∀ enabled, p.track = some enabled → update.disabled = !enabled
  dimension : TrackDimension.mk update.width update.height = p.dimension
  quality : ∀ quality, asked = some quality → update.quality = quality

/-- The last messages have what the publications have. -/
structure LastMessagesCarry (records : List Record) (s : State) : Prop where
  mute : ∀ muted, LastWrite.last (records.map Record.muteSent) = some muted →
    muted = s.localPublication.muted
  subscription : ∀ subscribed,
    LastWrite.last (records.map Record.subscriptionSent) = some subscribed →
    subscribed = s.remotePublication.subscribed
  setting : ∀ update, LastWrite.last (records.map Record.settingSent) = some update →
    update.Carry s.remotePublication (LastWrite.last (records.map Record.qualityCalled))

def Carries (records : List Record) (s : State) : Prop := s.AllDone → LastMessagesCarry records s

/-! ## The condition -/

/-- What a call wants the mute state to be. -/
def Record.muteCalled : Record → Option Bool
  | .called .mute => some true
  | .called .unmute => some false
  | _ => none

def Record.subscriptionCalled : Record → Option Bool
  | .called (.setSubscribed subscribed) => some subscribed
  | _ => none

/-- What the task of a call captured. -/
def Record.muteTask : Record → Option Bool
  | .sent (.muted value) _ _ => some value
  | _ => none

def Record.subscriptionTask : Record → Option Bool
  | .sent (.subscription subscribed) _ _ => some subscribed
  | _ => none

/-- A task for the settings of a track, and what the publication had when it ran. -/
inductive SettingTask where
  | enabled (value : Bool) (seen : RemotePublication)
  | dimension (value : TrackDimension) (seen : RemotePublication)
  | quality (value : VideoQuality) (seen : RemotePublication)

def Record.settingTask : Record → Option SettingTask
  | .sent (.enabled value) seen _ => some (.enabled value seen)
  | .sent (.dimension value) seen _ => some (.dimension value seen)
  | .sent (.quality value) seen _ => some (.quality value seen)
  | _ => none

/-- What the task captured and has seen is still so, and what its message leaves out is at its
default: the quality in the messages of the first two, and all but the quality in those of the
third. -/
def SettingTask.Current (p : RemotePublication) (asked : Option VideoQuality) : SettingTask → Prop
  | .enabled value seen =>
    (∀ enabled, p.track = some enabled → value = enabled) ∧ seen.dimension = p.dimension ∧
      ∀ quality, asked = some quality → quality = .low
  | .dimension value seen =>
    (∀ enabled, p.track = some enabled → seen.isEnabled = enabled) ∧ value = p.dimension ∧
      ∀ quality, asked = some quality → quality = .low
  | .quality value _ =>
    (∀ enabled, p.track = some enabled → enabled = true) ∧ p.dimension = ⟨0, 0⟩ ∧
      ∀ quality, asked = some quality → value = quality

/-- The tasks that were the last to send are tasks of the last calls, or captured the same. -/
structure LastTasksCurrent (records : List Record) (s : State) : Prop where
  mute : ∀ muted called, LastWrite.last (records.map Record.muteTask) = some muted →
    LastWrite.last (records.map Record.muteCalled) = some called → muted = called
  subscription : ∀ subscribed called,
    LastWrite.last (records.map Record.subscriptionTask) = some subscribed →
    LastWrite.last (records.map Record.subscriptionCalled) = some called → subscribed = called
  setting : ∀ task, LastWrite.last (records.map Record.settingTask) = some task →
    task.Current s.remotePublication (LastWrite.last (records.map Record.qualityCalled))

def SendsCurrent (records : List Record) (s : State) : Prop :=
  s.AllDone → LastTasksCurrent records s

/-! ## Calls -/

/-- What the tasks of a call capture. -/
def Call.update : Call → Update
  | .mute => .muted true
  | .unmute => .muted false
  | .setSubscribed subscribed => .subscription subscribed
  | .setEnabled enabled => .enabled enabled
  | .updateVideoDimensions dimension => .dimension dimension
  | .setVideoQuality quality => .quality quality

variable {task : Task} {muted : Bool} {i : ℕ}

/-- A task is an earlier one or the one that was spawned. -/
theorem mem_spawn {s : State} {update : Update} (h : task ∈ (s.spawn update).tasks) :
    task ∈ s.tasks ∨ task.update = update := by
  rcases mem_append.mp h with h | h
  · exact .inl h
  · rw [mem_singleton.mp h]
    exact .inr rfl

theorem setMuted_tasks {s : State} (h : task ∈ (s.setMuted muted).tasks) :
    task ∈ s.tasks ∨ task.update = .muted muted := by
  unfold setMuted at h
  split at h
  · exact mem_spawn h
  · rcases mem_spawn h with h | h
    · exact mem_spawn h
    · exact .inr h

theorem setMuted_muted (s : State) (muted : Bool) :
    (s.setMuted muted).localPublication.muted = muted := by
  unfold setMuted
  split
  · assumption
  · rfl

theorem setMuted_remotePublication (s : State) (muted : Bool) :
    (s.setMuted muted).remotePublication = s.remotePublication := by
  unfold setMuted
  split <;> rfl

/-- The tasks that a call spawns make its update. -/
theorem call_tasks {s : State} {call : Call} (h : task ∈ (s.call call).tasks) :
    task ∈ s.tasks ∨ task.update = call.update := by
  cases call with
  | mute | unmute => exact setMuted_tasks h
  | setSubscribed subscribed => exact mem_spawn h
  | setEnabled enabled =>
    change task ∈ (s.setEnabled enabled).tasks at h
    unfold setEnabled at h
    split at h
    · exact .inl h
    · split at h
      · exact .inl h
      · exact mem_spawn h
  | updateVideoDimensions dimension =>
    change task ∈ (s.updateVideoDimensions dimension).tasks at h
    unfold updateVideoDimensions at h
    split at h
    · exact .inl h
    · exact mem_spawn h
  | setVideoQuality quality =>
    change task ∈ (s.setVideoQuality quality).tasks at h
    unfold setVideoQuality at h
    split at h
    · exact mem_spawn h
    · exact .inl h

/-- A call for the settings neither mutes nor subscribes. -/
theorem setEnabled_frame (s : State) (enabled : Bool) :
    (s.setEnabled enabled).localPublication = s.localPublication ∧
      (s.setEnabled enabled).remotePublication.subscribed = s.remotePublication.subscribed := by
  unfold setEnabled
  split
  · exact ⟨rfl, rfl⟩
  · split <;> exact ⟨rfl, rfl⟩

theorem updateVideoDimensions_frame (s : State) (dimension : TrackDimension) :
    (s.updateVideoDimensions dimension).localPublication = s.localPublication ∧
      (s.updateVideoDimensions dimension).remotePublication.subscribed =
        s.remotePublication.subscribed := by
  unfold updateVideoDimensions
  split <;> exact ⟨rfl, rfl⟩

theorem setVideoQuality_frame (s : State) (quality : VideoQuality) :
    (s.setVideoQuality quality).localPublication = s.localPublication ∧
      (s.setVideoQuality quality).remotePublication.subscribed =
        s.remotePublication.subscribed := by
  unfold setVideoQuality
  split <;> exact ⟨rfl, rfl⟩

/-- A call leaves the mute state as it asks, or as it was. -/
theorem call_muted (s : State) (call : Call) :
    (s.call call).localPublication.muted =
      (called call).muteCalled.getD s.localPublication.muted := by
  cases call with
  | mute => exact setMuted_muted s true
  | unmute => exact setMuted_muted s false
  | setSubscribed subscribed => rfl
  | setEnabled enabled =>
    exact congrArg LocalPublication.muted (setEnabled_frame s enabled).1
  | updateVideoDimensions dimension =>
    exact congrArg LocalPublication.muted (updateVideoDimensions_frame s dimension).1
  | setVideoQuality quality =>
    exact congrArg LocalPublication.muted (setVideoQuality_frame s quality).1

/-- A call leaves the subscription as it asks, or as it was. -/
theorem call_subscribed (s : State) (call : Call) :
    (s.call call).remotePublication.subscribed =
      (called call).subscriptionCalled.getD s.remotePublication.subscribed := by
  cases call with
  | mute => rw [show s.call .mute = s.setMuted true from rfl, setMuted_remotePublication]; rfl
  | unmute => rw [show s.call .unmute = s.setMuted false from rfl, setMuted_remotePublication]; rfl
  | setSubscribed subscribed => rfl
  | setEnabled enabled => exact (setEnabled_frame s enabled).2
  | updateVideoDimensions dimension => exact (updateVideoDimensions_frame s dimension).2
  | setVideoQuality quality => exact (setVideoQuality_frame s quality).2

/-! ## Every step -/

/-- A call has asked for what a task captured. -/
def Update.Called (records : List Record) : Update → Prop
  | .muted _ => LastWrite.last (records.map Record.muteCalled) ≠ none
  | .subscription _ => LastWrite.last (records.map Record.subscriptionCalled) ≠ none
  | _ => True

theorem last_ne_none_append {f : Record → Option Bool} {records : List Record} (new : List Record)
    (h : last (records.map f) ≠ none) :
    last ((records ++ new).map f) ≠ none := by
  obtain ⟨value, hvalue⟩ := Option.ne_none_iff_exists'.mp h
  rw [map_append]
  exact last_ne_none (mem_append_left _ (mem_of_last hvalue))

/-- What was called stays called. -/
theorem Update.Called.append {records : List Record} {update : Update} (h : update.Called records)
    (new : List Record) : update.Called (records ++ new) := by
  cases update with
  | muted | subscription => exact last_ne_none_append new h
  | _ => trivial

/-- A call calls its own update. -/
theorem called_update (records : List Record) (call : Call) :
    call.update.Called (records ++ [called call]) := by
  have hlast : ∀ (f : Record → Option Bool) (value : Bool), f (called call) = some value →
      last ((records ++ [called call]).map f) ≠ none := by
    intro f value h
    rw [map_append, map_singleton, last_concat, h]
    exact Option.some_ne_none value
  cases call with
  | mute => exact hlast muteCalled true rfl
  | unmute => exact hlast muteCalled false rfl
  | setSubscribed subscribed => exact hlast subscriptionCalled subscribed rfl
  | _ => trivial

structure Inv (init : State) (records : List Record) (s : State) : Prop where
  muted : s.localPublication.muted =
    (LastWrite.last (records.map Record.muteCalled)).getD init.localPublication.muted
  subscribed : s.remotePublication.subscribed =
    (LastWrite.last (records.map Record.subscriptionCalled)).getD init.remotePublication.subscribed
  tasks : ∀ task ∈ s.tasks, task.update.Called records
  sent : ∀ update seen message, .sent update seen message ∈ records →
    update.Called records ∧ ∃ sid, message = update.message sid seen

theorem inv_new (localPublication : LocalPublication) (remotePublication : RemotePublication) :
    Inv (new localPublication remotePublication) []
      (new localPublication remotePublication) where
  muted := rfl
  subscribed := rfl
  tasks := fun _ hmem => by cases hmem
  sent := fun _ _ _ hmem => by cases hmem

variable {init s s' : State} {records new : List Record}

theorem Inv.call (h : Inv init records s) (call : Call) :
    Inv init (records ++ [.called call]) (s.call call) := by
  constructor
  · rw [call_muted, h.muted, map_append, map_singleton, last_concat,
      Option.getD_or]
  · rw [call_subscribed, h.subscribed, map_append, map_singleton, last_concat,
      Option.getD_or]
  · intro task hmem
    rcases call_tasks hmem with hmem | heq
    · exact (h.tasks task hmem).append _
    · rw [heq]
      exact called_update records call
  · intro update seen message hmem
    rcases mem_append.mp hmem with hmem | hmem
    · obtain ⟨hcalled, hmessage⟩ := h.sent update seen message hmem
      exact ⟨hcalled.append _, hmessage⟩
    · cases mem_singleton.mp hmem

/-- A step that puts nothing on record. -/
theorem Inv.silent (h : Inv init records s) (hmuted : s'.localPublication = s.localPublication)
    (hsubscribed : s'.remotePublication.subscribed = s.remotePublication.subscribed)
    (htasks : ∀ task ∈ s'.tasks, ∃ before ∈ s.tasks, task.update = before.update) :
    Inv init (records ++ []) s' := by
  rw [append_nil]
  refine ⟨?_, ?_, ?_, h.sent⟩
  · rw [hmuted, h.muted]
  · rw [hsubscribed, h.subscribed]
  · intro task hmem
    obtain ⟨before, hbefore, heq⟩ := htasks task hmem
    rw [heq]
    exact h.tasks before hbefore

/-- The update of a task stays the same. -/
theorem mem_set_update {tasks : List Task} {before : Task} {point : Point}
    (hbefore : tasks[i]? = some before) (h : task ∈ tasks.set i { before with point }) :
    ∃ before ∈ tasks, task.update = before.update := by
  rcases mem_or_eq_of_mem_set h with h | rfl
  · exact ⟨task, h, rfl⟩
  · exact ⟨before, mem_of_getElem? hbefore, rfl⟩

/-- A task makes its message of what it reads. -/
theorem Inv.start (h : Inv init records s) (htask : s.tasks[i]? = some task)
    (hturn : s.start i task = some (s', new)) : Inv init (records ++ new) s' := by
  unfold State.start at hturn
  split at hturn
  · cases hturn
    exact h.silent rfl rfl fun _ hmem => mem_set_update htask hmem
  · cases hturn

/-- A message is sent as it was made. -/
theorem Inv.send (h : Inv init records s) {i : ℕ} {task : Task} (htask : s.tasks[i]? = some task)
    (hturn : s.send i task = some (s', new)) : Inv init (records ++ new) s' := by
  unfold State.send at hturn
  split at hturn
  · next seen _ =>
    cases hturn
    -- a message that is sent is no call
    have hnot : ∀ (f : Record → Option Bool) (record : Record), f record = none →
        last ((records ++ [record]).map f) = last (records.map f) := by
      intro f record hf
      rw [map_append, map_singleton, last_concat, hf]
      rfl
    constructor
    · rw [hnot muteCalled _ rfl]
      exact h.muted
    · rw [hnot subscriptionCalled _ rfl]
      exact h.subscribed
    · intro task' hmem
      obtain ⟨before, hbefore, heq⟩ := mem_set_update htask hmem
      rw [heq]
      exact (h.tasks before hbefore).append _
    · intro update seen' message hmem
      rcases mem_append.mp hmem with hmem | hmem
      · obtain ⟨hcalled, hmessage⟩ := h.sent update seen' message hmem
        exact ⟨hcalled.append _, hmessage⟩
      · cases mem_singleton.mp hmem
        exact ⟨(h.tasks task (mem_of_getElem? htask)).append _, _, rfl⟩
  · cases hturn

/-- The invariant is kept by every step. -/
theorem Inv.step {a : Action} (h : Inv init records s) (hturn : s.turn a = some (s', new)) :
    Inv init (records ++ new) s' := by
  cases a with
  | call call =>
    cases hturn
    exact h.call call
  | attach | detach =>
    cases hturn
    exact h.silent rfl rfl fun task hmem => ⟨task, hmem, rfl⟩
  | start i =>
    obtain ⟨task, htask, hturn⟩ := Option.bind_eq_some_iff.mp hturn
    exact h.start htask hturn
  | send i =>
    obtain ⟨task, htask, hturn⟩ := Option.bind_eq_some_iff.mp hturn
    exact h.send htask hturn

/-! ## Every run -/

/-- The message of a task for the settings. -/
def SettingTask.update : SettingTask → UpdateTrackSettings
  | .enabled value seen => seen.enabledSettings value
  | .dimension value seen => seen.dimensionSettings value
  | .quality value seen => seen.qualitySettings value

section

variable (h : Inv init records s)

include h

/-- What is read of the messages and what is read of the tasks agree, if they do for each update. -/
theorem Inv.map_sent {β : Type} {f g : Record → β}
    (hcalled : ∀ call, f (.called call) = g (.called call))
    (hsent : ∀ (update : Update) seen sid,
      f (.sent update seen (update.message sid seen)) =
        g (.sent update seen (update.message sid seen))) : records.map f = records.map g := by
  apply map_congr_left
  intro record hmem
  cases record with
  | called call => exact hcalled call
  | sent update seen message =>
    obtain ⟨-, sid, rfl⟩ := h.sent update seen message hmem
    exact hsent update seen sid

/-- The mute states sent are those of the tasks, one by one. -/
theorem Inv.muteSent :
    records.map muteSent = records.map muteTask := by
  refine h.map_sent (fun _ => rfl) ?_
  intro update seen sid
  cases update <;> rfl

/-- The subscriptions sent are those of the tasks, one by one. -/
theorem Inv.subscriptionSent :
    records.map subscriptionSent = records.map subscriptionTask := by
  refine h.map_sent (fun _ => rfl) ?_
  intro update seen sid
  cases update <;> rfl

/-- The settings sent are those of the tasks, one by one. -/
theorem Inv.settingSent :
    records.map settingSent =
      (records.map settingTask).map (Option.map SettingTask.update) := by
  rw [map_map]
  refine h.map_sent (fun _ => rfl) ?_
  intro update seen sid
  cases update <;> rfl

/-- What a task captured was asked for by a call. -/
theorem Inv.muteCalled (hlast : last (records.map muteTask) = some muted) :
    last (records.map muteCalled) ≠ none := by
  obtain ⟨record, hmem, hrecord⟩ := mem_map.mp (mem_of_last hlast)
  cases record with
  | called call => cases hrecord
  | sent update seen message =>
    cases update with
    | muted value => exact (h.sent (.muted value) seen message hmem).1
    | _ => cases hrecord

theorem Inv.subscriptionCalled {subscribed : Bool}
    (hlast : last (records.map subscriptionTask) = some subscribed) :
    last (records.map subscriptionCalled) ≠ none := by
  obtain ⟨record, hmem, hrecord⟩ := mem_map.mp (mem_of_last hlast)
  cases record with
  | called call => cases hrecord
  | sent update seen message =>
    cases update with
    | subscription value => exact (h.sent (.subscription value) seen message hmem).1
    | _ => cases hrecord

end

/-- A task's update carries the current state if the task does. -/
theorem carry_update_iff (task : SettingTask) (p : RemotePublication)
    (asked : Option VideoQuality) :
    task.update.Carry p asked ↔ task.Current p asked := by
  -- `disabled` in the message is the negation of the flag
  have hnot : ∀ {value enabled : Bool}, (!value) = (!enabled) ↔ value = enabled :=
    Bool.not_inj_iff
  constructor
  · intro h
    cases task with
    | enabled | dimension =>
      exact ⟨fun enabled htrack => hnot.mp (h.enabled enabled htrack), h.dimension,
        fun quality hasked => (h.quality quality hasked).symm⟩
    | quality value seen =>
      refine ⟨fun enabled htrack => ?_, h.dimension.symm, h.quality⟩
      have hdisabled : false = !enabled := h.enabled enabled htrack
      rw [Bool.not_eq_eq_eq_not.mp hdisabled.symm]
      rfl
  · intro h
    cases task with
    | enabled | dimension =>
      obtain ⟨henabled, hdimension, hquality⟩ := h
      exact ⟨fun enabled htrack => hnot.mpr (henabled enabled htrack), hdimension,
        fun quality hasked => (hquality quality hasked).symm⟩
    | quality value seen =>
      obtain ⟨henabled, hdimension, hquality⟩ := h
      refine ⟨fun enabled htrack => ?_, hdimension.symm, hquality⟩
      rw [henabled enabled htrack]
      rfl

/-- A state that calls set is what the last one set. -/
theorem eq_getD_iff {last : Option Bool} (hlast : last ≠ none) (value init : Bool) :
    value = last.getD init ↔ ∀ called, last = some called → value = called := by
  obtain ⟨called, rfl⟩ := Option.ne_none_iff_exists'.mp hlast
  constructor
  · intro h called' hcalled
    rw [← Option.some.inj hcalled]
    exact h
  · intro h
    exact h called rfl

/-- The messages carry what was called for, if and only if they are sent in its order. -/
theorem Inv.carries_iff_sends (h : Inv init records s) :
    Carries records s ↔ SendsCurrent records s := by
  unfold Carries SendsCurrent
  refine forall_congr' fun _ => ?_
  have hmute : ∀ muted, last (records.map muteTask) = some muted →
      (muted = s.localPublication.muted ↔
        ∀ called, last (records.map Record.muteCalled) = some called →
          muted = called) := by
    intro muted hlast
    rw [h.muted]
    exact eq_getD_iff (h.muteCalled hlast) _ _
  have hsubscription : ∀ subscribed,
      last (records.map subscriptionTask) = some subscribed →
      (subscribed = s.remotePublication.subscribed ↔ ∀ called,
        last (records.map Record.subscriptionCalled) = some called →
          subscribed = called) := by
    intro subscribed hlast
    rw [h.subscribed]
    exact eq_getD_iff (h.subscriptionCalled hlast) _ _
  have hsetting : last (records.map Record.settingSent) =
      (last (records.map settingTask)).map SettingTask.update := by
    rw [h.settingSent, last_map]
  constructor
  · intro hcarry
    refine ⟨?_, ?_, ?_⟩
    · intro muted called hlast hcalled
      exact (hmute muted hlast).mp (hcarry.mute muted (by rw [h.muteSent, hlast])) called hcalled
    · intro subscribed called hlast hcalled
      have hsent := hcarry.subscription subscribed (by rw [h.subscriptionSent, hlast])
      exact (hsubscription subscribed hlast).mp hsent called hcalled
    · intro task hlast
      rw [hlast] at hsetting
      exact (carry_update_iff task _ _).mp (hcarry.setting task.update hsetting)
  · intro hcurrent
    refine ⟨?_, ?_, ?_⟩
    · intro muted hlast
      rw [h.muteSent] at hlast
      exact (hmute muted hlast).mpr fun called => hcurrent.mute muted called hlast
    · intro subscribed hlast
      rw [h.subscriptionSent] at hlast
      exact (hsubscription subscribed hlast).mpr fun called =>
        hcurrent.subscription subscribed called hlast
    · intro update hlast
      rw [hsetting] at hlast
      obtain ⟨task, htask, rfl⟩ := Option.map_eq_some_iff.mp hlast
      exact (carry_update_iff task _ _).mpr (hcurrent.setting task htask)

/-- Wherever all tasks are done, the last messages have what the publications have, exactly when the
tasks that were the last to send are those of the last calls there, or have captured the same. -/
theorem carries_iff (localPublication : LocalPublication) (remotePublication : RemotePublication)
    (run : List Action) :
    Always State.step record Carries (State.new localPublication remotePublication) run ↔
      Always State.step record SendsCurrent (State.new localPublication remotePublication) run := by
  have hsteps : EachStep step (fun _ _ _ => True)
      (new localPublication remotePublication) run :=
    eachStep_of_invariant (I := fun _ => True) (fun _ _ _ _ _ _ => ⟨trivial, trivial⟩) trivial
  have heach : EachStepOn step record (fun _ _ _ _ => True) []
      (new localPublication remotePublication) run :=
    (eachStepOn_iff_eachStep _ _ _).mpr hsteps
  refine always_congr (I := Inv (new localPublication remotePublication))
    (fun _ _ h => h.carries_iff_sends) ?_ (inv_new localPublication remotePublication) heach
  intro records s a s' hinv hstep _
  obtain ⟨⟨t, new⟩, hturn, rfl⟩ := Option.map_eq_some_iff.mp hstep
  have hrecord : record s a = new := by
    unfold record
    rw [hturn]
    rfl
  rw [hrecord]
  exact hinv.step hturn

/-- `mute` and then `unmute`, whose tasks send in the other order. -/
theorem unmuted_track_is_muted_at_the_server :
    let init := State.new ⟨⟨"TR_a", by decide⟩, false⟩
      ⟨⟨"TR_b", by decide⟩, "PA_p", true, true, some true, ⟨640, 480⟩⟩
    ∃ run s, exec State.step init run = some s ∧ s.AllDone ∧ s.localPublication.muted = false ∧
      ¬ Carries (trace State.step record init run) s := by
  refine ⟨[.call .mute, .call .unmute, .start 2, .send 2, .start 3, .send 3, .start 0, .send 0,
    .start 1, .send 1], _, rfl, by decide, rfl, fun hcarries => ?_⟩
  have hbad := (hcarries (by decide)).mute true rfl
  exact absurd hbad (by decide)

end LiveKit.TrackUpdates
