import LiveKit.Room.Participants

/-!
# What an update of participants does to the table

A turn of the loop looks the participant up twice, by its identity and by its `sid`. All is well if
the two agree: the participant with the `sid` is kept under the identity of the update, and an
update that says that somebody has left is about the `sid` that is in the table.
-/

namespace LiveKit.Room

open TransitionSystem AList List
open LiveKit.RtcSession (ParticipantSid ParticipantIdentity)

namespace State

/-- Every participant is kept under its identity. -/
def Keyed (s : State) : Prop :=
  ∀ identity p, AList.lookup identity s.remoteParticipants = some p → p.identity = identity

/-- The two ways to look up the participant agree. -/
def Agrees (s : State) (turn : Turn) : Prop :=
  s.IsLocal turn.info ∨
    (turn.info.state = disconnectedNumber →
      ∀ p ∈ s.getParticipantByIdentity turn.info.identity, p.sid = turn.info.sid) ∧
    ∀ entry ∈ (s.removeOld turn.info).1.getParticipantBySid turn.first turn.info.sid,
      entry.1 = turn.info.identity

instance (s : State) (turn : Turn) : Decidable (s.Agrees turn) :=
  inferInstanceAs (Decidable (_ ∨ _))

/-! ## Looking up by the `sid` -/

variable {s : State} {sid : ParticipantSid}

variable {entry : ParticipantIdentity × RemoteParticipant} {first : ℕ}

theorem mem_withSid :
    entry ∈ s.withSid sid ↔
      lookup entry.1 s.remoteParticipants = some entry.2 ∧ entry.2.sid = sid := by
  unfold withSid
  rw [mem_filter, AssocMap.mem_toPairs, decide_eq_true_iff]

theorem getParticipantBySid_some (h : s.getParticipantBySid first sid = some entry) :
    lookup entry.1 s.remoteParticipants = some entry.2 ∧ entry.2.sid = sid :=
  mem_withSid.mp (mem_of_getElem? h)

variable {p : RemoteParticipant}

theorem getParticipantBySid_none (h : s.getParticipantBySid first sid = none)
    {identity : ParticipantIdentity} (hp : lookup identity s.remoteParticipants = some p) :
    p.sid ≠ sid := by
  intro hsid
  have hmem : (identity, p) ∈ s.withSid sid := mem_withSid.mpr ⟨hp, hsid⟩
  have hlt := Nat.mod_lt first (length_pos_of_mem hmem)
  unfold getParticipantBySid at h
  rw [getElem?_eq_none_iff] at h
  omega

/-! ## The record -/

theorem rosterAfter_record (start s : State) (records : List Record) (turn : Turn) :
    rosterAfter start (records ++ record s turn)
      = (rosterAfter start records).apply turn.info := by
  have hevents : ∀ events : List RoomEvent,
      (events.map Record.event).filterMap Record.info? = [] := by
    intro events
    rw [filterMap_map]
    exact filterMap_eq_nil_iff.mpr fun _ _ => rfl
  unfold rosterAfter record
  rw [filterMap_append,
    filterMap_cons_some (f := Record.info?) (b := turn.info) rfl, hevents, foldl_append]
  rfl

theorem presence_record (identity : ParticipantIdentity) (present : Bool) (s : State)
    (records : List Record) (turn : Turn) :
    presence identity present (records ++ record s turn)
      = ((s.handleParticipantInfo turn.first turn.info).2.1.map Record.event).foldl
          (presenceStep identity) (presence identity present records) := by
  unfold presence record
  rw [foldl_append, foldl_cons]
  rfl

/-- What holds of the state as long as the lookups agree. -/
structure FollowInv (start : State) (records : List Record) (s : State) : Prop where
  keyed : s.Keyed
  localParticipant : s.localParticipant = (rosterAfter start records).localParticipant
  roster : ∀ identity, AList.lookup identity s.remoteParticipants
    = (rosterAfter start records).remote identity
  present : ∀ identity,
    presence identity (AList.lookup identity start.remoteParticipants).isSome records
      = some (AList.lookup identity s.remoteParticipants).isSome

theorem FollowInv.start (h : s.Keyed) : FollowInv s [] s :=
  ⟨h, rfl, fun _ => rfl, fun _ => rfl⟩

variable {records : List Record} {start : State}

theorem FollowInv.follows_server (h : FollowInv start records s) : Follows start records s where
  keyed := h.keyed
  roster := h.roster
  alternates identity := by
    rw [h.present]
    rfl

/-! ## A turn -/

/-- What the information says of the participant, `before` being what was known. -/
def toldOf (pi : ParticipantInfo) (before : Option RemoteParticipant) : Option RemoteParticipant :=
  if pi.state = disconnectedNumber then before.filter fun p => p.sid ≠ pi.sid
  else some ⟨pi.sid, pi.identity, .ofNumber pi.state, pi.name, pi.metadata⟩

/-- What a turn does for a remote participant if all is well. -/
structure Turned (s : State) (pi : ParticipantInfo) (s' : State) (events : List RoomEvent) :
    Prop where
  localParticipant : s'.localParticipant = s.localParticipant
  lookup : ∀ identity, AList.lookup identity s'.remoteParticipants
    = if identity = pi.identity then toldOf pi (AList.lookup identity s.remoteParticipants)
      else AList.lookup identity s.remoteParticipants
  /-- The events tell how the participant came and went, and nothing of the others. -/
  present : ∀ identity, (events.map Record.event).foldl (presenceStep identity)
      (some (AList.lookup identity s.remoteParticipants).isSome)
    = some (AList.lookup identity s'.remoteParticipants).isSome

/-- The events of a participant who comes. -/
theorem presence_connected {present : Option Bool} (hpresent : present = some false)
    (rest : List RoomEvent) (hrest : rest = [] ∨ rest = [.participantActive p]) :
    ((RoomEvent.participantConnected p :: rest).map Record.event).foldl
      (presenceStep p.identity) present = some true := by
  rcases hrest with rfl | rfl
  · show presenceStep p.identity present (.event (.participantConnected p)) = some true
    unfold presenceStep
    simp only
    rw [if_pos trivial, if_pos hpresent]
  · show presenceStep p.identity
      (presenceStep p.identity present (.event (.participantConnected p)))
      (.event (.participantActive p)) = some true
    unfold presenceStep
    simp only
    rw [if_pos trivial, if_pos hpresent]

variable {pi : ParticipantInfo}

/-- Somebody who is not in the table comes. -/
theorem turned_created (hnone : lookup pi.identity s.remoteParticipants = none)
    (hstate : pi.state ≠ disconnectedNumber) :
    Turned s pi (s.createParticipant pi).1
      (.participantConnected (s.createParticipant pi).2 ::
        if (s.createParticipant pi).2.state = .active then
          [.participantActive (s.createParticipant pi).2] else []) where
  localParticipant := rfl
  lookup identity := by
    show lookup identity (insert pi.identity _ s.remoteParticipants) = _
    unfold toldOf
    rw [AssocMap.lookup_insert_ite, if_neg hstate]
  present identity := by
    show _ = some (lookup identity (insert pi.identity _ _)).isSome
    rw [AssocMap.lookup_insert_ite]
    by_cases hidentity : identity = pi.identity
    · -- the participant itself was not there, and its `ParticipantConnected` comes first
      subst hidentity
      rw [if_pos rfl, hnone]
      refine presence_connected (p := (s.createParticipant pi).2) rfl _ ?_
      split
      · exact .inr rfl
      · exact .inl rfl
    · have hother : (s.createParticipant pi).2.identity ≠ identity := fun h => hidentity h.symm
      rw [if_neg hidentity]
      split <;> simp [presenceStep, hother]

theorem lookup_disconnect (s : State) (p : RemoteParticipant) (identity : ParticipantIdentity) :
    lookup identity (s.handleParticipantDisconnect p).1.remoteParticipants
      = if identity = p.identity then none else lookup identity s.remoteParticipants := by
  show lookup identity (erase p.identity _) = _
  rw [AssocMap.lookup_erase_ite]

/-- The event of somebody who goes. -/
theorem presence_disconnect (hp : lookup p.identity s.remoteParticipants = some p)
    (identity : ParticipantIdentity) :
    presenceStep identity (some (lookup identity s.remoteParticipants).isSome)
        (.event (.participantDisconnected p))
      = some (lookup identity
          (s.handleParticipantDisconnect p).1.remoteParticipants).isSome := by
  rw [lookup_disconnect]
  unfold presenceStep
  simp only
  by_cases hsame : p.identity = identity
  · subst hsame
    rw [if_pos rfl, if_pos rfl, hp]
    rfl
  · rw [if_neg hsame, if_neg (Ne.symm hsame)]

theorem removeOld_of_none (hp : s.getParticipantByIdentity pi.identity = none) :
    s.removeOld pi = (s, []) := by
  unfold removeOld
  rw [hp]

theorem removeOld_of_eq (hp : s.getParticipantByIdentity pi.identity = some p)
    (hsid : p.sid = pi.sid) : s.removeOld pi = (s, []) := by
  unfold removeOld
  rw [hp]
  simp only
  rw [if_neg (by simp [hsid])]

/-- Somebody who is in the table with another `sid` goes first. -/
theorem removeOld_of_ne (hp : s.getParticipantByIdentity pi.identity = some p)
    (hsid : p.sid ≠ pi.sid) : s.removeOld pi = s.handleParticipantDisconnect p := by
  unfold removeOld
  rw [hp]
  simp only
  rw [if_pos hsid]

/-- Somebody who is in the table with the same `sid` is updated, or leaves. -/
theorem turned_known (hp : lookup pi.identity s.remoteParticipants = some p) (hsid : p.sid = pi.sid)
    (hfound : s.getParticipantBySid first pi.sid = some (pi.identity, p)) :
    Turned s pi (s.updateRemote first pi).1 (s.updateRemote first pi).2.1 := by
  unfold updateRemote
  rw [hfound]
  simp only
  by_cases hstate : pi.state = disconnectedNumber
  · -- the participant leaves, and is removed under its own identity
    rw [if_pos hstate]
    have hlookup : ∀ identity, lookup identity
        (erase pi.identity (insert pi.identity (p.updateInfo pi) s.remoteParticipants))
          = if identity = pi.identity then none
            else lookup identity s.remoteParticipants := by
      intro identity
      -- the entry is written back before it is removed
      rw [AssocMap.erase_insert, AssocMap.lookup_erase_ite]
    refine ⟨rfl, ?_, ?_⟩
    · intro identity
      refine (hlookup identity).trans ?_
      split
      · next hidentity =>
        unfold toldOf
        rw [if_pos hstate, hidentity, hp]
        exact (Option.filter_some_neg (by simp [hsid])).symm
      · rfl
    · intro identity
      show presenceStep identity _ (.event (.participantDisconnected (p.updateInfo pi)))
        = some (lookup identity (erase pi.identity (insert pi.identity
            (p.updateInfo pi) s.remoteParticipants))).isSome
      rw [hlookup]
      unfold presenceStep
      simp only
      by_cases hidentity : identity = pi.identity
      · subst hidentity
        rw [if_pos rfl, hp]
        exact (if_pos rfl).trans (if_pos rfl)
      · rw [if_neg hidentity]
        exact if_neg fun h => hidentity h.symm
  · -- the participant stays, and is updated in its place
    rw [if_neg hstate]
    refine ⟨rfl, ?_, ?_⟩
    · intro identity
      show lookup identity
        (insert pi.identity (p.updateInfo pi) s.remoteParticipants) = _
      unfold toldOf
      rw [AssocMap.lookup_insert_ite, if_neg hstate]
      rfl
    · intro identity
      show _ = some (lookup identity
        (insert pi.identity (p.updateInfo pi) s.remoteParticipants)).isSome
      -- the one entry that changes was there before
      have hsome : (lookup identity (insert pi.identity (p.updateInfo pi)
          s.remoteParticipants)).isSome
            = (lookup identity s.remoteParticipants).isSome := by
        rw [AssocMap.lookup_insert_ite]
        split
        · next hidentity =>
          rw [hidentity, hp]
          rfl
        · rfl
      rw [hsome]
      split <;> rfl

/-- A turn in which the lookups agree does what the update says. -/
theorem turned_of_agrees {turn : Turn} (hkeyed : s.Keyed) (hlocal : ¬ s.IsLocal turn.info)
    (h : s.Agrees turn) :
    Turned s turn.info (s.handleParticipantInfo turn.first turn.info).1
      (s.handleParticipantInfo turn.first turn.info).2.1 := by
  obtain ⟨hleft, hfound⟩ := h.resolve_left hlocal
  unfold handleParticipantInfo
  rw [if_neg hlocal]
  simp only
  cases hp : s.getParticipantByIdentity turn.info.identity with
  | none =>
    rw [removeOld_of_none hp] at hfound ⊢
    -- nobody else can be found under the sid: the identity found would be this one
    have hnone : s.getParticipantBySid turn.first turn.info.sid = none := by
      cases hbySid : s.getParticipantBySid turn.first turn.info.sid with
      | none => rfl
      | some entry =>
        have hentry := (getParticipantBySid_some hbySid).1
        rw [hfound entry hbySid] at hentry
        exact absurd (hp.symm.trans hentry) (by simp)
    show Turned s turn.info (s.updateRemote turn.first turn.info).1
      (s.updateRemote turn.first turn.info).2.1
    unfold updateRemote
    rw [hnone]
    simp only
    by_cases hstate : turn.info.state = disconnectedNumber
    · rw [if_pos hstate]
      refine ⟨rfl, ?_, fun _ => rfl⟩
      intro identity
      split
      · next hidentity =>
        unfold toldOf
        rw [if_pos hstate, hidentity,
          show lookup turn.info.identity s.remoteParticipants = none from hp]
        rfl
      · rfl
    · rw [if_neg hstate]
      exact turned_created hp hstate
  | some p =>
    by_cases hsid : p.sid = turn.info.sid
    · rw [removeOld_of_eq hp hsid] at hfound ⊢
      cases hbySid : s.getParticipantBySid turn.first turn.info.sid with
      | none => exact absurd hsid (getParticipantBySid_none hbySid hp)
      | some entry =>
        obtain ⟨key, q⟩ := entry
        -- both lookups find the same entry
        have hkey : key = turn.info.identity := hfound _ hbySid
        subst hkey
        have hq := (getParticipantBySid_some hbySid).1
        have hpq : p = q := Option.some.inj (hp.symm.trans hq)
        subst hpq
        exact turned_known hp hsid hbySid
    · -- the old participant goes, and the new one comes
      -- an update that somebody has left names the sid that is in the table
      have hstate : turn.info.state ≠ disconnectedNumber := by
        intro hstate
        exact hsid (hleft hstate p hp)
      have hidentity : p.identity = turn.info.identity := hkeyed _ _ hp
      have hgone : lookup turn.info.identity
          (s.handleParticipantDisconnect p).1.remoteParticipants = none := by
        rw [lookup_disconnect, if_pos hidentity.symm]
      rw [removeOld_of_ne hp hsid] at hfound ⊢
      have hnone : (s.handleParticipantDisconnect p).1.getParticipantBySid turn.first
          turn.info.sid = none := by
        cases hbySid : (s.handleParticipantDisconnect p).1.getParticipantBySid turn.first
            turn.info.sid with
        | none => rfl
        | some entry =>
          have hentry := (getParticipantBySid_some hbySid).1
          rw [hfound entry hbySid, hgone] at hentry
          cases hentry
      have hcreated := turned_created hgone hstate
      unfold updateRemote
      rw [hnone]
      simp only
      rw [if_neg hstate]
      refine ⟨hcreated.localParticipant, ?_, ?_⟩
      · intro identity
        rw [hcreated.lookup]
        unfold toldOf
        rw [if_neg hstate, if_neg hstate]
        split
        · rfl
        · next hother =>
          rw [lookup_disconnect, hidentity, if_neg hother]
      · intro identity
        -- first the event of the one who goes, then those of the one who comes
        rw [← hcreated.present identity]
        show List.foldl _ _ (Record.event (.participantDisconnected p) :: _) = _
        rw [← hidentity] at hp
        rw [foldl_cons, presence_disconnect hp]
        rfl

/-- What the update says of a remote participant. -/
theorem apply_remote {r : Roster}
    (hlocal : ¬ (pi.sid = r.localParticipant.sid ∨ pi.identity = r.localParticipant.identity)) :
    r.apply pi = ⟨r.localParticipant, fun identity =>
      if identity = pi.identity then toldOf pi (r.remote identity) else r.remote identity⟩ := by
  unfold Roster.apply
  exact if_neg hlocal

/-! ## Runs -/

/-- A turn in which the lookups agree. -/
theorem FollowInv.turn {turn : Turn} (h : FollowInv start records s) (hagrees : s.Agrees turn) :
    FollowInv start (records ++ record s turn)
      (s.handleParticipantInfo turn.first turn.info).1 := by
  by_cases hlocal : s.IsLocal turn.info
  · -- an update of the local participant: the others stay as they are
    have hturn : s.handleParticipantInfo turn.first turn.info
        = ({ s with localParticipant := s.localParticipant.updateInfo turn.info }, [],
          [.local (s.localParticipant.updateInfo turn.info)]) := if_pos hlocal
    have hroster : (rosterAfter start records).apply turn.info
        = ⟨⟨turn.info.sid, turn.info.identity⟩, (rosterAfter start records).remote⟩ := by
      unfold Roster.apply
      rw [← h.localParticipant]
      exact if_pos hlocal
    refine ⟨?_, ?_, ?_, ?_⟩
    · rw [hturn]
      exact h.keyed
    · rw [hturn, rosterAfter_record, hroster]
      rfl
    · intro identity
      rw [hturn, rosterAfter_record, hroster]
      exact h.roster identity
    · intro identity
      rw [presence_record, hturn]
      exact h.present identity
  · -- an update of another, under the identity that it names
    have hturned := turned_of_agrees h.keyed hlocal hagrees
    have hnot : ¬ (turn.info.sid = (rosterAfter start records).localParticipant.sid ∨
        turn.info.identity = (rosterAfter start records).localParticipant.identity) := by
      rw [← h.localParticipant]
      exact hlocal
    have hroster := apply_remote hnot
    refine ⟨?_, ?_, ?_, ?_⟩
    · intro identity p hp
      rw [hturned.lookup] at hp
      split at hp
      · next hidentity =>
        unfold toldOf at hp
        split at hp
        · exact h.keyed identity p (Option.filter_eq_some_iff.mp hp).1
        · rw [← Option.some.inj hp, hidentity]
      · exact h.keyed identity p hp
    · rw [hturned.localParticipant, rosterAfter_record, hroster]
      exact h.localParticipant
    · intro identity
      rw [hturned.lookup, rosterAfter_record, hroster, h.roster]
    · intro identity
      rw [presence_record, h.present]
      exact hturned.present identity

/-- A turn in which the lookups do not agree leaves a participant under another identity, or
removes one who has not left. -/
theorem FollowInv.not_follows {turn : Turn} (h : FollowInv start records s)
    (hagrees : ¬ s.Agrees turn) :
    ¬ Follows start (records ++ record s turn)
      (s.handleParticipantInfo turn.first turn.info).1 := by
  unfold Agrees at hagrees
  rw [not_or] at hagrees
  obtain ⟨hlocal, hagrees⟩ := hagrees
  have hturn : (s.handleParticipantInfo turn.first turn.info).1
      = ((s.removeOld turn.info).1.updateRemote turn.first turn.info).1 := by
    unfold handleParticipantInfo
    rw [if_neg hlocal]
  rw [hturn]
  intro hfollows
  cases hbySid : (s.removeOld turn.info).1.getParticipantBySid turn.first turn.info.sid with
  | some entry =>
    obtain ⟨key, q⟩ := entry
    by_cases hkey : key = turn.info.identity
    · -- so the update says that somebody has left, who is in the table with another sid
      have hold : ∃ p, s.getParticipantByIdentity turn.info.identity = some p ∧
          p.sid ≠ turn.info.sid := by
        by_contra hnone
        push Not at hnone
        refine hagrees ⟨fun _ p hp => hnone p hp, ?_⟩
        intro entry hentry
        rw [hbySid, Option.mem_some_iff] at hentry
        rw [← hentry, hkey]
      obtain ⟨p, hp, hsid⟩ := hold
      have hidentity : p.identity = turn.info.identity := h.keyed _ _ hp
      -- the entry is gone before the second lookup, which cannot have found it
      rw [removeOld_of_ne hp hsid] at hbySid
      have hq := (getParticipantBySid_some hbySid).1
      have hgone : lookup turn.info.identity
          (s.handleParticipantDisconnect p).1.remoteParticipants = none := by
        rw [lookup_disconnect, if_pos hidentity.symm]
      rw [hkey, hgone] at hq
      cases hq
    · -- the participant with the sid is kept under another identity
      have hlookup : lookup key ((s.removeOld turn.info).1.updateRemote turn.first
          turn.info).1.remoteParticipants = some (q.updateInfo turn.info) := by
        unfold updateRemote
        rw [hbySid]
        simp only
        split
        · show lookup key (erase turn.info.identity (insert key _ _)) = _
          rw [lookup_erase_ne hkey, lookup_insert]
        · exact lookup_insert _
      exact hkey (hfollows.keyed key _ hlookup).symm
  | none =>
    have hold : turn.info.state = disconnectedNumber ∧
        ∃ p, s.getParticipantByIdentity turn.info.identity = some p ∧ p.sid ≠ turn.info.sid := by
      by_contra hnone
      refine hagrees ⟨?_, ?_⟩
      · intro hstate p hp
        by_contra hsid
        exact hnone ⟨hstate, p, hp, hsid⟩
      · intro entry hentry
        rw [hbySid] at hentry
        cases hentry
    obtain ⟨hstate, p, hp, hsid⟩ := hold
    have hidentity : p.identity = turn.info.identity := h.keyed _ _ hp
    have hgone : lookup turn.info.identity
        ((s.removeOld turn.info).1.updateRemote turn.first turn.info).1.remoteParticipants
          = none := by
      unfold updateRemote
      rw [hbySid]
      simp only
      rw [if_pos hstate, removeOld_of_ne hp hsid, lookup_disconnect, if_pos hidentity.symm]
    -- the table has nobody, and by the updates the participant with the new sid is still there
    have hsaid := hfollows.roster turn.info.identity
    have hthere : (rosterAfter start records).remote turn.info.identity = some p := by
      rw [← h.roster]
      exact hp
    have hnot : ¬ (turn.info.sid = (rosterAfter start records).localParticipant.sid ∨
        turn.info.identity = (rosterAfter start records).localParticipant.identity) := by
      rw [← h.localParticipant]
      exact hlocal
    rw [hgone, rosterAfter_record, apply_remote hnot] at hsaid
    simp only at hsaid
    unfold toldOf at hsaid
    rw [if_pos trivial, if_pos hstate, hthere, Option.filter_some_pos (by simpa using hsid)]
      at hsaid
    cases hsaid

/-- From a room in which everybody is kept under their identity, the table follows the updates if
and only if in every turn the two ways to look up the participant agree. -/
theorem follows_iff (start : State) (run : List Turn) :
    TransitionSystem.Always step record (Follows start) start run ↔
      start.Keyed ∧ TransitionSystem.EachStep step (fun s turn _ => s.Agrees turn) start run := by
  have hiff : start.Keyed → (TransitionSystem.Always step record (Follows start) start run ↔
      TransitionSystem.EachStep step (fun s turn _ => s.Agrees turn) start run) := by
    intro hkeyed
    apply always_iff_eachStep (I := FollowInv start)
    · intro records s h
      exact h.follows_server
    · intro records s turn s' h hstep
      have hs' : s' = (s.handleParticipantInfo turn.first turn.info).1 :=
        (Option.some.inj hstep).symm
      subst hs'
      by_cases hagrees : s.Agrees turn
      · exact .inl ⟨hagrees, h.turn hagrees⟩
      · exact .inr ⟨hagrees, h.not_follows hagrees⟩
    · exact FollowInv.start hkeyed
  constructor
  · intro h
    -- the empty run is one of the prefixes
    have hkeyed : start.Keyed := (h [] run start rfl rfl).keyed
    exact ⟨hkeyed, (hiff hkeyed).mp h⟩
  · rintro ⟨hkeyed, h⟩
    exact (hiff hkeyed).mpr h

/-- Alice has come back under a new `sid`, and then it is said that she has left under the old one:
she is gone. -/
theorem late_disconnected :
    ¬ TransitionSystem.Always step record
        (Follows ⟨⟨⟨"PA_0", by decide⟩, "me"⟩, ∅⟩) ⟨⟨⟨"PA_0", by decide⟩, "me"⟩, ∅⟩
        [⟨0, ⟨⟨"PA_1", by decide⟩, "alice", 2, "", ""⟩⟩,
          ⟨0, ⟨⟨"PA_2", by decide⟩, "alice", 2, "", ""⟩⟩,
          ⟨0, ⟨⟨"PA_1", by decide⟩, "alice", 3, "", ""⟩⟩] := by
  intro h
  have hend := (h _ [] _ (append_nil _).symm rfl).roster "alice"
  revert hend
  decide

end State

end LiveKit.Room
