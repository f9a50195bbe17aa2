import LiveKit.Room.ParticipantTheorems

/-!
# A restart, for the participants of the room

What `room/mod.rs` does with the engine's events that concern the remote participants:
`ParticipantUpdate`, `Restarting` and `SignalRestarted`. `Restarting` removes everybody, and
`SignalRestarted` is an update with the participants of the new session.
-/

namespace LiveKit.Room

open AList List
open LiveKit.RtcSession (ParticipantSid ParticipantIdentity)

/-- `proto::JoinResponse`; with every information goes what the iteration of the table comes to
first when it is handled. -/
structure JoinResponse where
  participant : ParticipantInfo
  otherParticipants : List (ℕ × ParticipantInfo)

/-- The events of the engine. -/
inductive EngineEvent where
  | participantUpdate (updates : List (ℕ × ParticipantInfo))
  | resuming
  | signalResumed
  | resumed
  | restarting
  | signalRestarted (joinResponse : JoinResponse)
  | restarted

namespace State

/-- The loop of `handle_restarting`. -/
def disconnectAll (s : State) : List (ParticipantIdentity × RemoteParticipant) →
    State × List RoomEvent
  | [] => (s, [])
  | (_, p) :: participants =>
    let (s, events) := s.handleParticipantDisconnect p
    let (s, events') := s.disconnectAll participants
    (s, events ++ events')

def handleRestarting (s : State) : State × List RoomEvent :=
  s.disconnectAll (AssocMap.toPairs s.remoteParticipants)

/-- The local participant's `sid` may have changed. -/
def updateLocal (s : State) (pi : ParticipantInfo) : State :=
  { s with localParticipant := s.localParticipant.updateInfo pi }

def handleSignalRestarted (s : State) (joinResponse : JoinResponse) : State × List RoomEvent :=
  (s.updateLocal joinResponse.participant).handleParticipantUpdate joinResponse.otherParticipants

/-- `on_engine_event`, for what it does to the participants. -/
def onEngineEvent (s : State) : EngineEvent → State × List RoomEvent
  | .participantUpdate updates => s.handleParticipantUpdate updates
  | .restarting => s.handleRestarting
  | .signalRestarted joinResponse => s.handleSignalRestarted joinResponse
  | .resuming | .signalResumed | .resumed | .restarted => (s, [])

/-- `room_task`: the events one after the other. -/
def onEngineEvents (s : State) : List EngineEvent → State × List RoomEvent
  | [] => (s, [])
  | event :: events =>
    let (s, out) := s.onEngineEvent event
    let (s, out') := s.onEngineEvents events
    (s, out ++ out')

end State

/-- The room and the events after a first and a second part. -/
theorem State.onEngineEvents_append (s : State) (events events' : List EngineEvent) :
    s.onEngineEvents (events ++ events')
      = (((s.onEngineEvents events).1.onEngineEvents events').1,
        (s.onEngineEvents events).2 ++ ((s.onEngineEvents events).1.onEngineEvents events').2) := by
  induction events generalizing s with
  | nil => rfl
  | cons event events ih =>
    show ((((s.onEngineEvent event).1.onEngineEvents (events ++ events')).1,
      (s.onEngineEvent event).2 ++ ((s.onEngineEvent event).1.onEngineEvents (events ++ events')).2)
      : State × List RoomEvent) = _
    rw [ih, ← append_assoc]
    rfl

/-! ## When the lookups agree -/

namespace State

/-- In every turn of the update the two ways to look up a participant agree. -/
def UpdateAgrees (s : State) (updates : List (ℕ × ParticipantInfo)) : Prop :=
  TransitionSystem.EachStep step (fun s turn _ => s.Agrees turn) s
    (updates.map fun update => ⟨update.1, update.2⟩)

/-- In every turn for the event the two ways to look up a participant agree. -/
def EventAgrees (s : State) : EngineEvent → Prop
  | .participantUpdate updates => s.UpdateAgrees updates
  | .signalRestarted joinResponse =>
    (s.updateLocal joinResponse.participant).UpdateAgrees joinResponse.otherParticipants
  | _ => True

def EventsAgree (s : State) : List EngineEvent → Prop
  | [] => True
  | event :: events => s.EventAgrees event ∧ (s.onEngineEvent event).1.EventsAgree events

variable {s : State}

variable {events : List EngineEvent} {p : RemoteParticipant} {identity : ParticipantIdentity}
  {update : ℕ × ParticipantInfo}

theorem EventsAgree.append {events' : List EngineEvent} (h : s.EventsAgree (events ++ events')) :
    s.EventsAgree events ∧ (s.onEngineEvents events).1.EventsAgree events' := by
  induction events generalizing s with
  | nil => exact ⟨trivial, h⟩
  | cons event events ih =>
    obtain ⟨hevent, hrest⟩ := h
    obtain ⟨hleft, hright⟩ := ih hrest
    exact ⟨⟨hevent, hleft⟩, hright⟩

/-! ## Coming and going -/

/-- Who comes and who goes in the events, from the participants of the one state to those of the
other. -/
structure Tells (s : State) (events : List RoomEvent) (s' : State) : Prop where
  keyed : s'.Keyed
  present : ∀ identity, (events.map Record.event).foldl (presenceStep identity)
      (some (AList.lookup identity s.remoteParticipants).isSome)
    = some (AList.lookup identity s'.remoteParticipants).isSome

theorem Tells.refl (h : s.Keyed) : Tells s [] s := ⟨h, fun _ => rfl⟩

theorem Tells.trans {s' s'' : State} {events events' : List RoomEvent} (h : Tells s events s')
    (h' : Tells s' events' s'') : Tells s (events ++ events') s'' where
  keyed := h'.keyed
  present identity := by
    rw [map_append, foldl_append, h.present, h'.present]

/-- The turn of a participant, local or not. -/
theorem tells_turn {turn : Turn} (hkeyed : s.Keyed) (hagrees : s.Agrees turn) :
    Tells s (s.handleParticipantInfo turn.first turn.info).2.1
      (s.handleParticipantInfo turn.first turn.info).1 := by
  have hinv := (FollowInv.start hkeyed).turn hagrees
  refine ⟨hinv.keyed, fun identity => ?_⟩
  have hpresent := hinv.present identity
  rw [presence_record] at hpresent
  exact hpresent

variable {updates : List (ℕ × ParticipantInfo)}

theorem tells_infos (hkeyed : s.Keyed) (h : s.UpdateAgrees updates) :
    Tells s (s.handleParticipantInfos updates).2.1 (s.handleParticipantInfos updates).1 := by
  induction updates generalizing s with
  | nil => exact Tells.refl hkeyed
  | cons update updates ih =>
    obtain ⟨first, pi⟩ := update
    obtain ⟨hturn, hrest⟩ := h _ rfl
    have hfirst := tells_turn hkeyed hturn
    exact hfirst.trans (ih hfirst.keyed hrest)

theorem tells_update (hkeyed : s.Keyed) (h : s.UpdateAgrees updates) :
    Tells s (s.handleParticipantUpdate updates).2 (s.handleParticipantUpdate updates).1 := by
  have hinfos := tells_infos hkeyed h
  refine ⟨hinfos.keyed, fun identity => ?_⟩
  unfold handleParticipantUpdate
  simp only
  rw [map_append, foldl_append, hinfos.present]
  -- nobody comes or goes in `ParticipantsUpdated`
  split <;> rfl

/-- One participant goes. -/
theorem tells_disconnect (hkeyed : s.Keyed) (hp : lookup p.identity s.remoteParticipants = some p) :
    Tells s [.participantDisconnected p] (s.handleParticipantDisconnect p).1 where
  keyed := by
    intro identity q hq
    rw [lookup_disconnect] at hq
    split at hq
    · cases hq
    · exact hkeyed identity q hq
  present := presence_disconnect hp

/-- Everybody on the list goes. -/
theorem tells_disconnectAll {l : List (ParticipantIdentity × RemoteParticipant)} (hkeyed : s.Keyed)
    (hnodup : (l.map Prod.fst).Nodup)
    (hmem : ∀ entry ∈ l, lookup entry.1 s.remoteParticipants = some entry.2) :
    Tells s (s.disconnectAll l).2 (s.disconnectAll l).1 ∧
      ∀ identity, lookup identity (s.disconnectAll l).1.remoteParticipants
        = if identity ∈ l.map Prod.fst then none
          else lookup identity s.remoteParticipants := by
  induction l generalizing s with
  | nil => exact ⟨Tells.refl hkeyed, fun _ => rfl⟩
  | cons entry l ih =>
    obtain ⟨key, p⟩ := entry
    have hp := hmem (key, p) mem_cons_self
    obtain rfl : p.identity = key := hkeyed key p hp
    rw [map_cons, nodup_cons] at hnodup
    obtain ⟨hkey, hnodup⟩ := hnodup
    have hfirst := tells_disconnect hkeyed hp
    -- no key is twice in the list, so the others are still there
    have hstill : ∀ entry ∈ l, lookup entry.1
        (s.handleParticipantDisconnect p).1.remoteParticipants = some entry.2 := by
      intro entry hentry
      have hne : entry.1 ≠ p.identity := by
        intro heq
        apply hkey
        show p.identity ∈ List.map Prod.fst l
        rw [← heq]
        exact mem_map_of_mem hentry
      rw [lookup_disconnect, if_neg hne]
      exact hmem entry (mem_cons_of_mem _ hentry)
    obtain ⟨hrest, hnone⟩ := ih hfirst.keyed hnodup hstill
    refine ⟨hfirst.trans hrest, fun identity => ?_⟩
    refine (hnone identity).trans ?_
    have hmem' : identity ∈ ((p.identity, p) :: l).map Prod.fst ↔
        identity = p.identity ∨ identity ∈ l.map Prod.fst := by
      rw [map_cons, mem_cons]
    rw [lookup_disconnect]
    by_cases hsame : identity = p.identity
    · rw [if_pos hsame, if_pos (hmem'.mpr (.inl hsame)), ite_self]
    · rw [if_neg hsame]
      by_cases hin : identity ∈ l.map Prod.fst
      · rw [if_pos hin, if_pos (hmem'.mpr (.inr hin))]
      · rw [if_neg hin, if_neg]
        intro hcons
        rcases hmem'.mp hcons with h | h
        · exact hsame h
        · exact hin h

theorem toPairs_keys_nodup (s : State) :
    ((AssocMap.toPairs s.remoteParticipants).map Prod.fst).Nodup := by
  have hkeys : (AssocMap.toPairs s.remoteParticipants).map Prod.fst
      = s.remoteParticipants.keys := by
    unfold AssocMap.toPairs
    rw [map_map]
    rfl
  rw [hkeys]
  exact s.remoteParticipants.keys_nodup

/-- After `Restarting` nobody is there. -/
theorem tells_restarting (hkeyed : s.Keyed) :
    Tells s s.handleRestarting.2 s.handleRestarting.1 ∧
      ∀ identity, lookup identity s.handleRestarting.1.remoteParticipants = none := by
  have hall := tells_disconnectAll hkeyed (toPairs_keys_nodup s) (by
    intro entry hentry
    exact (AssocMap.mem_toPairs _ entry.1 entry.2).mp hentry)
  refine ⟨hall.1, fun identity => ?_⟩
  refine (hall.2 identity).trans ?_
  split
  · rfl
  · next hnot =>
    cases hp : lookup identity s.remoteParticipants with
    | none => rfl
    | some p =>
      have hmem := (AssocMap.mem_toPairs _ identity p).mpr hp
      exact absurd (mem_map_of_mem (f := Prod.fst) hmem) hnot

theorem tells_event {event : EngineEvent} (hkeyed : s.Keyed) (h : s.EventAgrees event) :
    Tells s (s.onEngineEvent event).2 (s.onEngineEvent event).1 := by
  cases event with
  | participantUpdate updates => exact tells_update hkeyed h
  | signalRestarted joinResponse =>
    have htells := tells_update (s := s.updateLocal joinResponse.participant) hkeyed h
    exact ⟨htells.keyed, htells.present⟩
  | restarting => exact (tells_restarting hkeyed).1
  | resuming | signalResumed | resumed | restarted => exact Tells.refl hkeyed

/-- The events of the room tell who has come and who has gone. -/
theorem tells_events (hkeyed : s.Keyed) (h : s.EventsAgree events) :
    Tells s (s.onEngineEvents events).2 (s.onEngineEvents events).1 := by
  induction events generalizing s with
  | nil => exact Tells.refl hkeyed
  | cons event events ih =>
    have hfirst := tells_event hkeyed h.1
    exact hfirst.trans (ih hfirst.keyed h.2)

/-! ## How often -/

def isConnected (identity : ParticipantIdentity) : RoomEvent → Bool
  | .participantConnected p => p.identity = identity
  | _ => false

def isDisconnected (identity : ParticipantIdentity) : RoomEvent → Bool
  | .participantDisconnected p => p.identity = identity
  | _ => false

theorem presence_none (identity : ParticipantIdentity) (events : List RoomEvent) :
    (events.map Record.event).foldl (presenceStep identity) none = none := by
  induction events with
  | nil => rfl
  | cons event events ih =>
    rw [map_cons, foldl_cons]
    have hnone : presenceStep identity none (.event event) = none := by
      unfold presenceStep
      split
      · split <;> rfl
      · split <;> rfl
      · rfl
    rw [hnone, ih]

/-- Coming and going adds up. -/
theorem count_of_presence {events : List RoomEvent} {before after : Bool}
    (h : (events.map Record.event).foldl (presenceStep identity) (some before) = some after) :
    events.countP (isDisconnected identity) + after.toNat
      = events.countP (isConnected identity) + before.toNat := by
  induction events generalizing before with
  | nil =>
    have heq : before = after := Option.some.inj h
    rw [heq]
    rfl
  | cons event events ih =>
    rw [map_cons, foldl_cons] at h
    rw [countP_cons, countP_cons]
    -- an event that is not about this participant
    have hskip : presenceStep identity (some before) (.event event) = some before →
        isDisconnected identity event = false → isConnected identity event = false →
        events.countP (isDisconnected identity) + (if isDisconnected identity event then 1 else 0)
            + after.toNat
          = events.countP (isConnected identity) + (if isConnected identity event then 1 else 0)
            + before.toNat := by
      intro hstep hleft hright
      rw [hstep] at h
      rw [hleft, hright]
      exact ih h
    cases event with
    | participantActive | participantsUpdated => exact hskip rfl rfl rfl
    | participantConnected p =>
      by_cases hidentity : p.identity = identity
      · have hstep : presenceStep identity (some before) (.event (.participantConnected p))
            = if some before = some false then some true else none := if_pos hidentity
        rw [hstep] at h
        cases before with
        | true =>
          -- who is there cannot come again
          rw [if_neg (by simp), presence_none] at h
          cases h
        | false =>
          rw [if_pos rfl] at h
          have hcount := ih h
          simp only [isDisconnected, isConnected, hidentity, decide_true, if_true, Bool.toNat_true,
            Bool.toNat_false, Bool.false_eq_true, if_false] at hcount ⊢
          omega
      · exact hskip (if_neg hidentity) rfl (decide_eq_false hidentity)
    | participantDisconnected p =>
      by_cases hidentity : p.identity = identity
      · have hstep : presenceStep identity (some before) (.event (.participantDisconnected p))
            = if some before = some true then some false else none := if_pos hidentity
        rw [hstep] at h
        cases before with
        | false =>
          -- who is not there cannot go
          rw [if_neg (by simp), presence_none] at h
          cases h
        | true =>
          rw [if_pos rfl] at h
          have hcount := ih h
          simp only [isDisconnected, isConnected, hidentity, decide_true, if_true, Bool.toNat_true,
            Bool.toNat_false, Bool.false_eq_true, if_false] at hcount ⊢
          omega
      · exact hskip (if_neg hidentity) (decide_eq_false hidentity) rfl

/-! ## The participants of the new session -/

/-- An update that names every participant once, and not the local one. -/
structure NamesOnce (s : State) (updates : List (ℕ × ParticipantInfo)) : Prop where
  nodup : (updates.map fun update => update.2.identity).Nodup
  remote : ∀ update ∈ updates, ¬ s.IsLocal update.2

/-- What an update that names everybody once makes of the table. -/
theorem lookup_infos (hkeyed : s.Keyed) (hagrees : s.UpdateAgrees updates)
    (honce : s.NamesOnce updates) (identity : ParticipantIdentity) :
    lookup identity (s.handleParticipantInfos updates).1.remoteParticipants
      = match updates.find? fun update => update.2.identity = identity with
        | some update => toldOf update.2 (lookup identity s.remoteParticipants)
        | none => lookup identity s.remoteParticipants := by
  induction updates generalizing s with
  | nil => rfl
  | cons update updates ih =>
    obtain ⟨first, pi⟩ := update
    obtain ⟨hturn, hrest⟩ := hagrees _ rfl
    obtain ⟨hnodup, hremote⟩ := honce
    rw [map_cons, nodup_cons] at hnodup
    have hlocal : ¬ s.IsLocal pi := hremote (first, pi) mem_cons_self
    have hturned := turned_of_agrees hkeyed hlocal hturn
    have hnext : (s.handleParticipantInfo first pi).1.NamesOnce updates := by
      refine ⟨hnodup.2, ?_⟩
      intro update hupdate
      unfold IsLocal
      rw [hturned.localParticipant]
      exact hremote update (mem_cons_of_mem _ hupdate)
    refine (ih (tells_turn hkeyed hturn).keyed hrest hnext).trans ?_
    rw [hturned.lookup]
    by_cases hidentity : identity = pi.identity
    · have hnone : updates.find? (fun update => update.2.identity = identity) = none := by
        rw [find?_eq_none]
        intro update hupdate heq
        apply hnodup.1
        rw [← hidentity, ← of_decide_eq_true heq]
        exact mem_map_of_mem (f := fun update => update.2.identity) hupdate
      rw [hnone, if_pos hidentity, find?_cons_of_pos (by simp [hidentity])]
    · rw [if_neg hidentity, find?_cons_of_neg (by simpa using Ne.symm hidentity)]

/-- Who is said to have left is in the table with the `sid` that is named, or not at all. -/
theorem left_sid (hkeyed : s.Keyed) (hagrees : s.UpdateAgrees updates) (honce : s.NamesOnce updates)
    (hupdate : update ∈ updates) (hstate : update.2.state = disconnectedNumber)
    (hp : lookup update.2.identity s.remoteParticipants = some p) : p.sid = update.2.sid := by
  induction updates generalizing s with
  | nil => cases hupdate
  | cons head updates ih =>
    obtain ⟨first, pi⟩ := head
    obtain ⟨hturn, hrest⟩ := hagrees _ rfl
    obtain ⟨hnodup, hremote⟩ := honce
    rw [map_cons, nodup_cons] at hnodup
    have hlocal : ¬ s.IsLocal pi := hremote (first, pi) mem_cons_self
    rcases mem_cons.mp hupdate with rfl | hupdate
    · exact (hturn.resolve_left hlocal).1 hstate p hp
    · have hturned := turned_of_agrees hkeyed hlocal hturn
      have hnext : (s.handleParticipantInfo first pi).1.NamesOnce updates := by
        refine ⟨hnodup.2, ?_⟩
        intro update hupdate
        unfold IsLocal
        rw [hturned.localParticipant]
        exact hremote update (mem_cons_of_mem _ hupdate)
      have hne : update.2.identity ≠ pi.identity := by
        intro heq
        apply hnodup.1
        show pi.identity ∈ _
        rw [← heq]
        exact mem_map_of_mem (f := fun update => update.2.identity) hupdate
      apply ih (tells_turn hkeyed hturn).keyed hrest hnext hupdate
      rw [hturned.lookup, if_neg hne, hp]

theorem find_named (hnodup : (updates.map fun update => update.2.identity).Nodup)
    (hupdate : update ∈ updates) (hidentity : update.2.identity = identity) :
    updates.find? (fun update => update.2.identity = identity) = some update := by
  cases hfind : updates.find? fun update => update.2.identity = identity with
  | none =>
    rw [find?_eq_none] at hfind
    exact absurd (by simpa using hidentity) (hfind update hupdate)
  | some update' =>
    have hidentity' : update'.2.identity = identity := by simpa using find?_some hfind
    have hmem := mem_of_find?_eq_some hfind
    rw [inj_on_of_nodup_map hnodup hmem hupdate (hidentity'.trans hidentity.symm)]

/-- The room has the participants of the join response, and whoever has left is said to have left
once more than to have come. -/
structure Restarted (start : State) (joinResponse : JoinResponse) (events : List RoomEvent)
    (s : State) : Prop where
  exact : ∀ identity sid,
    (∃ p, AList.lookup identity s.remoteParticipants = some p ∧ p.sid = sid) ↔
      ∃ update ∈ joinResponse.otherParticipants, update.2.identity = identity ∧
        update.2.sid = sid ∧ update.2.state ≠ disconnectedNumber
  departed : ∀ identity, AList.lookup identity start.remoteParticipants ≠ none →
    AList.lookup identity s.remoteParticipants = none →
    events.countP (isDisconnected identity) = events.countP (isConnected identity) + 1

/-- Everybody in the table is named. -/
def AllNamed (s : State) (joinResponse : JoinResponse) : Prop :=
  ∀ identity, AList.lookup identity s.remoteParticipants ≠ none →
    ∃ update ∈ joinResponse.otherParticipants, update.2.identity = identity

/-- The table after `SignalRestarted` is the list of the join response if and only if it names
everybody who was in the table before. -/
theorem exact_iff {joinResponse : JoinResponse} (hkeyed : s.Keyed)
    (hagrees : s.EventAgrees (.signalRestarted joinResponse))
    (honce : (s.updateLocal joinResponse.participant).NamesOnce joinResponse.otherParticipants) :
    (∀ identity sid,
      (∃ p, lookup identity (s.handleSignalRestarted joinResponse).1.remoteParticipants
          = some p ∧ p.sid = sid) ↔
        ∃ update ∈ joinResponse.otherParticipants, update.2.identity = identity ∧
          update.2.sid = sid ∧ update.2.state ≠ disconnectedNumber) ↔
      s.AllNamed joinResponse := by
  have hlookup := lookup_infos (s := s.updateLocal joinResponse.participant) hkeyed hagrees honce
  have hlookup : ∀ identity,
      lookup identity (s.handleSignalRestarted joinResponse).1.remoteParticipants
        = match joinResponse.otherParticipants.find? fun update => update.2.identity = identity with
          | some update => toldOf update.2 (lookup identity s.remoteParticipants)
          | none => lookup identity s.remoteParticipants := hlookup
  constructor
  · intro hexact identity hthere
    cases hfind : joinResponse.otherParticipants.find? fun update =>
        update.2.identity = identity with
    | some update =>
      exact ⟨update, mem_of_find?_eq_some hfind, by simpa using find?_some hfind⟩
    | none =>
      -- nothing is said of the participant, so it is still there
      obtain ⟨p, hp⟩ := Option.ne_none_iff_exists'.mp hthere
      have hstill := hlookup identity
      rw [hfind] at hstill
      obtain ⟨update, hupdate, hidentity, -⟩ :=
        (hexact identity p.sid).mp ⟨p, hstill.trans hp, rfl⟩
      exact ⟨update, hupdate, hidentity⟩
  · intro hnamed identity sid
    constructor
    · rintro ⟨p, hp, hsid⟩
      rw [hlookup] at hp
      cases hfind : joinResponse.otherParticipants.find? fun update =>
          update.2.identity = identity with
      | some update =>
        rw [hfind] at hp
        have hmem := mem_of_find?_eq_some hfind
        have hidentity : update.2.identity = identity := by simpa using find?_some hfind
        unfold toldOf at hp
        simp only at hp
        split at hp
        · next hstate =>
          -- who is said to have left is not in the table under another `sid`
          obtain ⟨hp, hne⟩ := Option.filter_eq_some_iff.mp hp
          rw [← hidentity] at hp
          have hsame := left_sid (s := s.updateLocal joinResponse.participant) hkeyed hagrees honce
            hmem hstate hp
          simp [hsame] at hne
        · next hstate =>
          have hp := Option.some.inj hp
          exact ⟨update, hmem, hidentity, by rw [← hsid, ← hp], hstate⟩
      | none =>
        rw [hfind] at hp
        have hp : lookup identity s.remoteParticipants = some p := hp
        obtain ⟨update, hupdate, hidentity⟩ := hnamed identity (by rw [hp]; simp)
        rw [find?_eq_none] at hfind
        exact absurd (by simpa using hidentity) (hfind update hupdate)
    · rintro ⟨update, hupdate, hidentity, hsid, hstate⟩
      have hfind := find_named honce.nodup hupdate hidentity
      rw [hlookup, hfind]
      unfold toldOf
      simp only
      rw [if_neg hstate]
      exact ⟨_, rfl, hsid⟩

end State

end LiveKit.Room
