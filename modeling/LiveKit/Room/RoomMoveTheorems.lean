import LiveKit.Room.RoomMove

/-!
# What a move leaves behind

A move is handled as an update of the participants, and an update says nothing of those whom it does
not mention. The token of the message is told to the application only, so the signal client keeps
the one that it has.
-/

namespace LiveKit.RoomMove

open LiveKit.Publications (TrackSid)
open Event AssocMap AList List LiveKit.Room
open LiveKit.RtcSession (ParticipantSid ParticipantIdentity)
open TransitionSystem

/-! ## Departures -/

/-- Events about tracks are passed over. -/
theorem filterMap_tracks {β : Type} {f : Event → Option β} {event : TrackSid → Event}
    (h : ∀ track, f (event track) = none) (tracks : List TrackSid) :
    (tracks.map event).filterMap f = [] := by
  rw [filterMap_map, filterMap_eq_nil_iff]
  exact fun track _ => h track

variable {sid : ParticipantSid} {identity : ParticipantIdentity} {tracks : List TrackSid}

theorem Goes.append_left {events : List Event} (h : Goes sid identity tracks events)
    (earlier : List Event) : Goes sid identity tracks (earlier ++ events) := by
  obtain ⟨before, after, hsplit, hgoes, htracks⟩ := h
  refine ⟨earlier ++ before, after, ?_, hgoes, ?_⟩
  · rw [hsplit, append_assoc]
  · intro track htrack
    exact mem_append_right _ (htracks track htrack)

theorem Goes.append_right {events : List Event} (h : Goes sid identity tracks events)
    (later : List Event) : Goes sid identity tracks (events ++ later) := by
  obtain ⟨before, after, hsplit, hgoes, htracks⟩ := h
  refine ⟨before, after ++ later, ?_, ?_, htracks⟩
  · rw [hsplit, append_assoc]
  · rw [filterMap_append]
    exact mem_append_left _ hgoes

/-! ## The tracks of a turn -/

namespace Room

theorem disconnect_base (r : Room) (key : ParticipantIdentity) (p : RemoteParticipant)
    (order : List ℕ) :
    (r.disconnect key p order).1.base = (r.base.handleParticipantDisconnect p).1 := rfl

theorem disconnect_departures (r : Room) (key : ParticipantIdentity) (p : RemoteParticipant)
    (order : List ℕ) :
    (r.disconnect key p order).2.filterMap departure? = [(p.identity, p.sid)] := by
  show ((reorder order (r.publications key)).map (trackUnpublished p.sid) ++
    [participant (.participantDisconnected p)]).filterMap departure? = _
  rw [filterMap_append, filterMap_tracks fun _ => rfl]
  rfl

/-- All tracks go before the participant does. -/
theorem disconnect_goes (r : Room) (key : ParticipantIdentity) (p : RemoteParticipant)
    (order : List ℕ) :
    Goes p.sid p.identity (r.publications key) (r.disconnect key p order).2 := by
  refine ⟨_, _, rfl, mem_singleton_self _, ?_⟩
  intro track htrack
  exact mem_map_of_mem ((reorder_perm _ _).mem_iff.mpr htrack)

variable {key other : ParticipantIdentity}

theorem disconnect_publications {r : Room} (h : other ≠ key) (p : RemoteParticipant)
    (order : List ℕ) :
    (r.disconnect key p order).1.publications other = r.publications other :=
  Function.update_of_ne h _ _

theorem updateTracks_publications {r : Room} (h : other ≠ key) (pi : Info) :
    (r.updateTracks key pi).1.publications other = r.publications other :=
  Function.update_of_ne h _ _

theorem updateTracks_departures (r : Room) (key : ParticipantIdentity) (pi : Info) :
    (r.updateTracks key pi).2.filterMap departure? = [] := by
  unfold updateTracks
  rw [filterMap_append, filterMap_tracks fun _ => rfl,
    filterMap_tracks fun _ => rfl]
  rfl

/-- A track stays, or goes. -/
theorem updateTracks_cases (r : Room) (key : ParticipantIdentity) (pi : Info) {track : TrackSid}
    (h : track ∈ r.publications key) :
    track ∈ (r.updateTracks key pi).1.publications key ∨
      .trackUnpublished pi.info.sid track ∈ (r.updateTracks key pi).2 := by
  have hall : track ∈ r.publications key ++ newTracks (r.publications key) pi.tracks :=
    mem_append_left _ h
  by_cases hvalid : track ∈ pi.tracks
  · left
    show track ∈ Function.update r.publications key _ key
    rw [Function.update_self]
    exact mem_filter.mpr ⟨hall, decide_eq_true hvalid⟩
  · right
    apply mem_append_right
    apply mem_map_of_mem
    rw [(reorder_perm _ _).mem_iff, mem_filter]
    exact ⟨hall, decide_eq_true hvalid⟩

variable {p : RemoteParticipant}

/-- One who leaves has its tracks updated first, and all of them go. -/
theorem updateTracks_goes (r : Room) (pi : Info) (hsid : p.sid = pi.info.sid) (order : List ℕ) :
    Goes pi.info.sid p.identity (r.publications key)
      ((r.updateTracks key pi).2 ++ ((r.updateTracks key pi).1.disconnect key p order).2) := by
  refine ⟨(r.updateTracks key pi).2 ++
    (reorder order ((r.updateTracks key pi).1.publications key)).map
      (.trackUnpublished p.sid), [.participant (.participantDisconnected p)], ?_, ?_, ?_⟩
  · rw [append_assoc]
    rfl
  · rw [← hsid]
    exact mem_singleton_self _
  · intro track htrack
    rcases updateTracks_cases r key pi htrack with hstays | hgone
    · apply mem_append_right
      rw [hsid]
      exact mem_map_of_mem ((reorder_perm _ _).mem_iff.mpr hstays)
    · exact mem_append_left _ hgone

end Room

/-! ## A turn -/

/-- What a turn for a remote participant does to the room, and who goes in it. -/
structure Turned (r : Room) (pi : Info) (r' : Room) (events : List Event) : Prop where
  localParticipant : r'.base.localParticipant = r.base.localParticipant
  others : ∀ key, key ≠ pi.info.identity →
    AList.lookup key r'.base.remoteParticipants = AList.lookup key r.base.remoteParticipants ∧
      r'.publications key = r.publications key
  there : pi.info.state ≠ disconnectedNumber →
    ∃ p, AList.lookup pi.info.identity r'.base.remoteParticipants = some p ∧
      p.sid = pi.info.sid ∧ p.identity = pi.info.identity
  left : pi.info.state = disconnectedNumber →
    AList.lookup pi.info.identity r'.base.remoteParticipants = none
  /-- Nobody goes but the participant with the identity. -/
  quiet : (∀ p, AList.lookup pi.info.identity r.base.remoteParticipants = some p →
    p.sid = pi.info.sid ∧ pi.info.state ≠ disconnectedNumber) →
      events.filterMap Event.departure? = []
  goes : ∀ p, AList.lookup pi.info.identity r.base.remoteParticipants = some p →
    ¬ (p.sid = pi.info.sid ∧ pi.info.state ≠ disconnectedNumber) →
      events.filterMap Event.departure? = [(pi.info.identity, p.sid)] ∧
        Goes p.sid pi.info.identity (r.publications pi.info.identity) events

/-! ### The cases of a turn -/

section

variable {r : Room} {pi : Info}

/-- Nobody else has the `sid`. -/
def Known (r : Room) (pi : Info) : Prop :=
  ∀ key p, AList.lookup key r.base.remoteParticipants = some p → p.sid = pi.info.sid →
    key = pi.info.identity

/-- Somebody who is not in the room comes, or the message says that somebody has gone already. -/
theorem turned_of_none (hnone : lookup pi.info.identity r.base.remoteParticipants = none)
    (hknown : Known r pi) : Turned r pi (r.updateRemote pi).1 (r.updateRemote pi).2 := by
  have hfound : r.base.getParticipantBySid pi.first pi.info.sid = none := by
    cases hbySid : r.base.getParticipantBySid pi.first pi.info.sid with
    | none => rfl
    | some entry =>
      obtain ⟨hlookup, hsid⟩ := State.getParticipantBySid_some hbySid
      rw [hknown entry.1 entry.2 hlookup hsid, hnone] at hlookup
      cases hlookup
  have hgoes : ∀ (events : List Event) p,
      lookup pi.info.identity r.base.remoteParticipants = some p →
        ¬ (p.sid = pi.info.sid ∧ pi.info.state ≠ disconnectedNumber) →
          events.filterMap departure? = [(pi.info.identity, p.sid)] ∧
            Goes p.sid pi.info.identity (r.publications pi.info.identity) events := by
    intro events p hp
    rw [hnone] at hp
    cases hp
  unfold Room.updateRemote
  rw [hfound]
  dsimp only
  by_cases hstate : pi.info.state = disconnectedNumber
  · rw [if_pos hstate]
    exact
      { localParticipant := rfl
        others := fun _ _ => ⟨rfl, rfl⟩
        there := fun hne => absurd hstate hne
        left := fun _ => hnone
        quiet := fun _ => rfl
        goes := hgoes [] }
  · rw [if_neg hstate]
    refine
      { localParticipant := rfl
        others := ?_
        there := ?_
        left := fun hbad => absurd hbad hstate
        quiet := ?_
        goes := hgoes _ }
    · intro key hne
      constructor
      · show lookup key (insert pi.info.identity _ _) = _
        rw [lookup_insert_ite, if_neg hne]
      · rw [Room.updateTracks_publications hne]
        exact Function.update_of_ne hne _ _
    · intro _
      refine ⟨_, lookup_insert _, rfl, rfl⟩
    · intro _
      rw [filterMap_append, Room.updateTracks_departures]
      split
      · rfl
      · rfl

/-- Somebody in the room is updated, or leaves. -/
theorem turned_of_same (hp : lookup pi.info.identity r.base.remoteParticipants = some p)
    (hsid : p.sid = pi.info.sid) (hknown : Known r pi) :
    Turned r pi (r.updateRemote pi).1 (r.updateRemote pi).2 := by
  have hfound : r.base.getParticipantBySid pi.first pi.info.sid =
      some (pi.info.identity, p) := by
    cases hbySid : r.base.getParticipantBySid pi.first pi.info.sid with
    | none => exact absurd hsid (State.getParticipantBySid_none hbySid hp)
    | some entry =>
      obtain ⟨hlookup, hsame⟩ := State.getParticipantBySid_some hbySid
      have hkey := hknown entry.1 entry.2 hlookup hsame
      rw [hkey, hp, Option.some.injEq] at hlookup
      rw [hlookup, ← hkey]
  unfold Room.updateRemote
  rw [hfound]
  dsimp only
  by_cases hstate : pi.info.state = disconnectedNumber
  · rw [if_pos hstate]
    refine
      { localParticipant := rfl
        others := ?_
        there := fun hne => absurd hstate hne
        left := ?_
        quiet := ?_
        goes := ?_ }
    · intro key hne
      constructor
      · show lookup key (erase pi.info.identity
          (insert pi.info.identity _ r.base.remoteParticipants)) = _
        rw [erase_insert, lookup_erase_ite, if_neg hne]
      · rw [Room.disconnect_publications hne, Room.updateTracks_publications hne]
    · intro _
      show lookup pi.info.identity (erase pi.info.identity _) = none
      rw [lookup_erase_ite, if_pos rfl]
    · intro hstays
      exact absurd hstate (hstays p hp).2
    · intro q hq _
      rw [hp, Option.some.injEq] at hq
      rw [← hq, hsid]
      constructor
      · rw [filterMap_append, Room.updateTracks_departures, Room.disconnect_departures]
        rfl
      · exact Room.updateTracks_goes _ pi rfl pi.order
  · rw [if_neg hstate]
    refine
      { localParticipant := rfl
        others := ?_
        there := ?_
        left := fun hbad => absurd hbad hstate
        quiet := ?_
        goes := ?_ }
    · intro key hne
      constructor
      · show lookup key (insert pi.info.identity _ r.base.remoteParticipants) = _
        rw [lookup_insert_ite, if_neg hne]
      · exact Room.updateTracks_publications hne pi
    · intro _
      exact ⟨_, lookup_insert _, rfl, rfl⟩
    · intro _
      rw [filterMap_append, Room.updateTracks_departures]
      split
      · rfl
      · rfl
    · intro q hq hstays
      rw [hp, Option.some.injEq] at hq
      rw [← hq] at hstays
      exact absurd ⟨hsid, hstate⟩ hstays

/-- Somebody with another `sid` goes first. -/
theorem turned_of_other (hkeyed : r.base.Keyed)
    (hp : lookup pi.info.identity r.base.remoteParticipants = some p) (hsid : p.sid ≠ pi.info.sid)
    (hknown : Known r pi) :
    Turned r pi ((r.disconnect pi.info.identity p pi.order).1.updateRemote pi).1
      ((r.disconnect pi.info.identity p pi.order).2 ++
        ((r.disconnect pi.info.identity p pi.order).1.updateRemote pi).2) := by
  have hidentity : p.identity = pi.info.identity := hkeyed _ _ hp
  have hlookup : ∀ key, lookup key
      (r.disconnect pi.info.identity p pi.order).1.base.remoteParticipants =
        if key = pi.info.identity then none else lookup key r.base.remoteParticipants := by
    intro key
    rw [Room.disconnect_base, State.lookup_disconnect, hidentity]
  have hnone : lookup pi.info.identity
      (r.disconnect pi.info.identity p pi.order).1.base.remoteParticipants = none := by
    rw [hlookup, if_pos rfl]
  have hstill : Known (r.disconnect pi.info.identity p pi.order).1 pi := by
    intro key q hq hsame
    rw [hlookup] at hq
    by_cases hkey : key = pi.info.identity
    · exact hkey
    · rw [if_neg hkey] at hq
      exact hknown key q hq hsame
  have hrest := turned_of_none hnone hstill
  have hquiet := hrest.quiet (by
    intro q hq
    rw [hnone] at hq
    cases hq)
  refine
    { localParticipant := hrest.localParticipant
      others := ?_
      there := hrest.there
      left := hrest.left
      quiet := ?_
      goes := ?_ }
  · intro key hne
    obtain ⟨hsame, hpublications⟩ := hrest.others key hne
    constructor
    · rw [hsame, hlookup, if_neg hne]
    · rw [hpublications, Room.disconnect_publications hne]
  · intro hstays
    exact absurd (hstays p hp).1 hsid
  · intro q hq _
    rw [hp, Option.some.injEq] at hq
    rw [← hq]
    constructor
    · rw [filterMap_append, hquiet, Room.disconnect_departures, append_nil, hidentity]
    · have hgoes := Room.disconnect_goes r pi.info.identity p pi.order
      rw [hidentity] at hgoes
      exact hgoes.append_right _

/-- A turn for a remote participant. -/
theorem turned (hkeyed : r.base.Keyed) (hlocal : ¬ r.base.IsLocal pi.info) (hknown : Known r pi) :
    Turned r pi (r.handleParticipantInfo pi).1 (r.handleParticipantInfo pi).2 := by
  unfold Room.handleParticipantInfo
  rw [if_neg hlocal]
  dsimp only
  unfold Room.removeOld State.getParticipantByIdentity
  cases hp : lookup pi.info.identity r.base.remoteParticipants with
  | none => exact turned_of_none hp hknown
  | some p =>
    dsimp only
    by_cases hsid : p.sid = pi.info.sid
    · rw [if_neg (not_not.mpr hsid)]
      exact turned_of_same hp hsid hknown
    · rw [if_pos hsid]
      exact turned_of_other hkeyed hp hsid hknown

end

/-! ## An update -/

/-- What the first informations of an update have made of the room. -/
structure Updated (start : Room) (done : List Info) (r : Room) (events : List Event) : Prop where
  localParticipant : r.base.localParticipant = start.base.localParticipant
  untouched : ∀ key, (∀ pi ∈ done, pi.info.identity ≠ key) →
    AList.lookup key r.base.remoteParticipants = AList.lookup key start.base.remoteParticipants ∧
      r.publications key = start.publications key
  there : ∀ pi ∈ done, pi.info.state ≠ disconnectedNumber →
    ∃ p, AList.lookup pi.info.identity r.base.remoteParticipants = some p ∧
      p.sid = pi.info.sid ∧ p.identity = pi.info.identity
  left : ∀ pi ∈ done, pi.info.state = disconnectedNumber →
    AList.lookup pi.info.identity r.base.remoteParticipants = none
  waiting : ∀ key p, AList.lookup key start.base.remoteParticipants = some p →
    (∀ pi ∈ done, pi.info.identity ≠ key) →
      (events.filterMap Event.departure?).count (key, p.sid) = 0
  gone : ∀ pi ∈ done, ∀ p,
    AList.lookup pi.info.identity start.base.remoteParticipants = some p →
      ¬ (p.sid = pi.info.sid ∧ pi.info.state ≠ disconnectedNumber) →
        (events.filterMap Event.departure?).count (pi.info.identity, p.sid) = 1 ∧
          Goes p.sid pi.info.identity (start.publications pi.info.identity) events

theorem Updated.start (r : Room) : Updated r [] r [] where
  localParticipant := rfl
  untouched _ _ := ⟨rfl, rfl⟩
  there _ h := absurd h not_mem_nil
  left _ h := absurd h not_mem_nil
  waiting _ _ _ _ := rfl
  gone _ h := absurd h not_mem_nil

section

variable {start r r' : Room} {others done : List Info} {pi : Info} {events new : List Event}

/-- The table is what it was, or what an information says. -/
theorem Updated.keyed (h : Updated start done r events) (hstart : start.base.Keyed) :
    r.base.Keyed := by
  intro key p hp
  by_cases hmem : ∃ pi ∈ done, pi.info.identity = key
  · obtain ⟨pi, hpi, hkey⟩ := hmem
    rw [← hkey] at hp ⊢
    by_cases hstate : pi.info.state = disconnectedNumber
    · rw [h.left pi hpi hstate] at hp
      cases hp
    · obtain ⟨q, hq, -, hidentity⟩ := h.there pi hpi hstate
      rw [hq, Option.some.injEq] at hp
      rw [← hp]
      exact hidentity
  · have hnone : ∀ pi ∈ done, pi.info.identity ≠ key := fun pi hpi hkey => hmem ⟨pi, hpi, hkey⟩
    rw [(h.untouched key hnone).1] at hp
    exact hstart key p hp

/-- The next information is about nobody else than its identity says. -/
theorem Updated.known (h : Updated start done r events) (hc : Consistent start others)
    (hsub : ∀ pi ∈ done, pi ∈ others) (hpi : pi ∈ others) : Known r pi := by
  intro key p hp hsid
  by_cases hmem : ∃ pi' ∈ done, pi'.info.identity = key
  · obtain ⟨pi', hpi', hkey⟩ := hmem
    rw [← hkey] at hp ⊢
    by_cases hstate : pi'.info.state = disconnectedNumber
    · rw [h.left pi' hpi' hstate] at hp
      cases hp
    · obtain ⟨q, hq, hsame, -⟩ := h.there pi' hpi' hstate
      rw [hq, Option.some.injEq] at hp
      rw [hp] at hsame
      exact hc.sids pi' (hsub pi' hpi') pi hpi (hsame.symm.trans hsid)
  · have hnone : ∀ pi' ∈ done, pi'.info.identity ≠ key :=
      fun pi' hpi' hkey => hmem ⟨pi', hpi', hkey⟩
    rw [(h.untouched key hnone).1] at hp
    exact hc.known pi hpi key p hp hsid

theorem Updated.remote (h : Updated start done r events) (hc : Consistent start others)
    (hpi : pi ∈ others) : ¬ r.base.IsLocal pi.info := by
  have hremote := hc.remote pi hpi
  unfold State.IsLocal at hremote ⊢
  rw [h.localParticipant]
  exact hremote

/-- Nobody goes in a turn but the participant whom it is about. -/
theorem Turned.count_ne (h : Turned r pi r' new) {key : ParticipantIdentity}
    (hne : pi.info.identity ≠ key) (sid : ParticipantSid) :
    (new.filterMap departure?).count (key, sid) = 0 := by
  by_cases hquiet : ∀ p, lookup pi.info.identity r.base.remoteParticipants = some p →
      p.sid = pi.info.sid ∧ pi.info.state ≠ disconnectedNumber
  · rw [h.quiet hquiet]
    rfl
  · obtain ⟨p, hp⟩ := not_forall.mp hquiet
    obtain ⟨hlookup, hgoes⟩ := Classical.not_imp.mp hp
    rw [(h.goes p hlookup hgoes).1]
    apply count_eq_zero_of_not_mem
    intro hmem
    rw [mem_singleton, Prod.mk.injEq] at hmem
    exact hne hmem.1.symm

/-- A second mention says nothing new. -/
theorem Updated.again (h : Updated start done r events) (hc : Consistent start others)
    (hsub : ∀ pi ∈ done, pi ∈ others) (hpi : pi ∈ others) (ht : Turned r pi r' new)
    (hmem : ∃ pi' ∈ done, pi'.info.identity = pi.info.identity) :
    new.filterMap departure? = [] := by
  obtain ⟨pi', hpi', hidentity⟩ := hmem
  obtain ⟨hsid, hstates⟩ := hc.identities pi' (hsub pi' hpi') pi hpi hidentity
  apply ht.quiet
  intro p hp
  rw [← hidentity] at hp
  by_cases hstate : pi'.info.state = disconnectedNumber
  · rw [h.left pi' hpi' hstate] at hp
    cases hp
  · obtain ⟨q, hq, hsame, -⟩ := h.there pi' hpi' hstate
    rw [hq, Option.some.injEq] at hp
    rw [← hp]
    exact ⟨hsame.trans hsid, fun hbad => hstate (hstates.mpr hbad)⟩

theorem mem_of_concat {pi' : Info} (hsub : ∀ pi ∈ done, pi ∈ others) (hpi : pi ∈ others)
    (h : pi' ∈ done ++ [pi]) : pi' ∈ others := by
  rcases mem_append.mp h with hold | hnew
  · exact hsub pi' hold
  · rw [mem_singleton.mp hnew]
    exact hpi

theorem mem_of_concat_ne {pi' : Info} (h : pi' ∈ done ++ [pi])
    (hne : pi'.info.identity ≠ pi.info.identity) : pi' ∈ done := by
  rcases mem_append.mp h with hold | hnew
  · exact hold
  · rw [mem_singleton.mp hnew] at hne
    exact absurd rfl hne

theorem Updated.concat (h : Updated start done r events) (hc : Consistent start others)
    (hsub : ∀ pi ∈ done, pi ∈ others) (hpi : pi ∈ others) (ht : Turned r pi r' new) :
    Updated start (done ++ [pi]) r' (events ++ new) where
  localParticipant := ht.localParticipant.trans h.localParticipant
  untouched key hnone := by
    have hlast := hnone pi (mem_append_right _ (mem_singleton_self _))
    have hdone : ∀ pi' ∈ done, pi'.info.identity ≠ key :=
      fun pi' hpi' => hnone pi' (mem_append_left _ hpi')
    obtain ⟨hlookup, hpublications⟩ := ht.others key hlast.symm
    obtain ⟨hlookup', hpublications'⟩ := h.untouched key hdone
    exact ⟨hlookup.trans hlookup', hpublications.trans hpublications'⟩
  there pi' hmem hstate := by
    have hpi' : pi' ∈ others := mem_of_concat hsub hpi hmem
    by_cases hidentity : pi'.info.identity = pi.info.identity
    · obtain ⟨hsid, hstates⟩ := hc.identities pi' hpi' pi hpi hidentity
      rw [hidentity, hsid]
      exact ht.there fun hbad => hstate (hstates.mpr hbad)
    · rw [(ht.others _ hidentity).1]
      exact h.there pi' (mem_of_concat_ne hmem hidentity) hstate
  left pi' hmem hstate := by
    have hpi' : pi' ∈ others := mem_of_concat hsub hpi hmem
    by_cases hidentity : pi'.info.identity = pi.info.identity
    · obtain ⟨-, hstates⟩ := hc.identities pi' hpi' pi hpi hidentity
      rw [hidentity]
      exact ht.left (hstates.mp hstate)
    · rw [(ht.others _ hidentity).1]
      exact h.left pi' (mem_of_concat_ne hmem hidentity) hstate
  waiting key p hp hnone := by
    have hlast := hnone pi (mem_append_right _ (mem_singleton_self _))
    have hdone : ∀ pi' ∈ done, pi'.info.identity ≠ key :=
      fun pi' hpi' => hnone pi' (mem_append_left _ hpi')
    rw [filterMap_append, count_append, h.waiting key p hp hdone, ht.count_ne hlast]
  gone pi' hmem p hp hgoes := by
    rw [filterMap_append, count_append]
    by_cases hbefore : ∃ first ∈ done, first.info.identity = pi'.info.identity
    · -- the one who goes has gone already
      obtain ⟨first, hfirst, hidentity⟩ := hbefore
      obtain ⟨hsid, hstates⟩ := hc.identities first (hsub first hfirst) pi'
        (mem_of_concat hsub hpi hmem) hidentity
      rw [← hidentity] at hp ⊢
      obtain ⟨hcount, hgone⟩ := h.gone first hfirst p hp fun hbad =>
        hgoes ⟨hbad.1.trans hsid, fun hstate => hbad.2 (hstates.mpr hstate)⟩
      have hnew : (new.filterMap departure?).count (first.info.identity, p.sid) = 0 := by
        by_cases hsame : pi.info.identity = first.info.identity
        · rw [h.again hc hsub hpi ht ⟨first, hfirst, hsame.symm⟩]
          rfl
        · exact ht.count_ne hsame p.sid
      rw [hcount, hnew]
      exact ⟨rfl, hgone.append_right new⟩
    · -- it goes now
      have hdone : ∀ first ∈ done, first.info.identity ≠ pi'.info.identity :=
        fun first hfirst hsame => hbefore ⟨first, hfirst, hsame⟩
      have hnow : pi' = pi := by
        rcases mem_append.mp hmem with hold | hnew
        · exact absurd rfl (hdone pi' hold)
        · exact mem_singleton.mp hnew
      obtain ⟨hlookup, hpublications⟩ := h.untouched _ hdone
      rw [h.waiting _ p hp hdone]
      rw [hnow] at hp hgoes hlookup hpublications ⊢
      obtain ⟨hdepartures, hgone⟩ := ht.goes p (hlookup.trans hp) hgoes
      rw [hdepartures, count_singleton_self, ← hpublications]
      exact ⟨rfl, hgone.append_left events⟩

/-- The rest of an update. -/
theorem Updated.run (h : Updated start done r events) (hc : Consistent start others)
    {updates : List Info} (hsub : ∀ pi ∈ done ++ updates, pi ∈ others) :
    Updated start (done ++ updates) (r.handleParticipantInfos updates).1
      (events ++ (r.handleParticipantInfos updates).2) := by
  induction updates generalizing done r events with
  | nil =>
    rw [append_nil]
    show Updated start done r (events ++ [])
    rw [append_nil]
    exact h
  | cons pi updates ih =>
    have hdone : ∀ pi ∈ done, pi ∈ others :=
      fun pi' hpi' => hsub pi' (mem_append_left _ hpi')
    have hpi : pi ∈ others := hsub pi (mem_append_right _ mem_cons_self)
    have hturn := turned (h.keyed hc.keyed) (h.remote hc hpi) (h.known hc hdone hpi)
    have hnext := h.concat hc hdone hpi hturn
    have hrest : ∀ pi' ∈ (done ++ [pi]) ++ updates, pi' ∈ others := by
      rw [append_assoc]
      exact hsub
    have hall := ih hnext hrest
    rw [append_assoc, append_assoc] at hall
    exact hall

/-! ## A move -/

theorem updateLocal_lookup (r : Room) (participant : Option ParticipantInfo) :
    (r.updateLocal participant).1.base.remoteParticipants = r.base.remoteParticipants ∧
      (r.updateLocal participant).1.publications = r.publications ∧
      (r.updateLocal participant).2.filterMap departure? = [] := by
  cases participant with
  | none | some => exact ⟨rfl, rfl, rfl⟩

/-- The events of a move are those of its update, and some in which nobody goes. -/
theorem handleRoomMoved_spec (r : Room) (moved : Moved) :
    ∃ earlier later,
      (r.handleRoomMoved moved).1 =
        ((r.updateLocal moved.participant).1.handleParticipantInfos moved.otherParticipants).1 ∧
      (r.handleRoomMoved moved).2 = earlier ++
        (((r.updateLocal moved.participant).1.handleParticipantInfos moved.otherParticipants).2 ++
          later) ∧
      earlier.filterMap departure? = [] ∧ later.filterMap departure? = [] := by
  obtain ⟨-, -, hlocal⟩ := updateLocal_lookup r moved.participant
  refine ⟨.tokenRefreshed moved.token :: (r.updateLocal moved.participant).2,
    (if ((r.updateLocal moved.participant).1.base.handleParticipantInfos
        (moved.otherParticipants.map fun pi => (pi.first, pi.info))).2.2.isEmpty then []
      else [.participant (.participantsUpdated
        ((r.updateLocal moved.participant).1.base.handleParticipantInfos
          (moved.otherParticipants.map fun pi => (pi.first, pi.info))).2.2)]) ++ [.moved],
    rfl, ?_, hlocal, ?_⟩
  · unfold Room.handleRoomMoved Room.handleParticipantUpdate
    dsimp only
    rw [append_assoc, append_assoc]
  · rw [filterMap_append]
    split
    · rfl
    · rfl

/-- A consistent move is complete if and only if it mentions everybody. -/
theorem complete_iff_mentionsAll (moved : Moved)
    (hc : Consistent (r.updateLocal moved.participant).1 moved.otherParticipants) :
    Complete r moved (r.handleRoomMoved moved).1 (r.handleRoomMoved moved).2 ↔
      MentionsAll r moved.otherParticipants := by
  obtain ⟨hlookup, hpublications, -⟩ := updateLocal_lookup r moved.participant
  obtain ⟨earlier, later, hroom, hevents, hearlier, hlater⟩ := handleRoomMoved_spec r moved
  have hall : ∀ pi ∈ [] ++ moved.otherParticipants, pi ∈ moved.otherParticipants :=
    fun pi hpi => hpi
  have h := (Updated.start (r.updateLocal moved.participant).1).run hc hall
  rw [nil_append, nil_append] at h
  rw [hroom]
  constructor
  · intro hcomplete key p hp
    by_contra hnone
    have hstays := (h.untouched key fun pi hpi hkey => hnone ⟨pi, hpi, hkey⟩).1
    rw [hlookup, hp] at hstays
    obtain ⟨pi, hpi, -, hidentity, -⟩ := (hcomplete.others p.identity p.sid).mp
      ⟨key, p, hstays, rfl, rfl⟩
    have hkey : p.identity = key := hc.keyed key p (by rw [hlookup]; exact hp)
    exact hnone ⟨pi, hpi, hidentity.trans hkey⟩
  · intro hall
    refine ⟨?_, ?_⟩
    · intro identity sid
      constructor
      · intro ⟨key, p, hp, hidentity, hsid⟩
        by_cases hmentioned : ∃ pi ∈ moved.otherParticipants, pi.info.identity = key
        · obtain ⟨pi, hpi, hkey⟩ := hmentioned
          rw [← hkey] at hp
          by_cases hstate : pi.info.state = disconnectedNumber
          · rw [h.left pi hpi hstate] at hp
            cases hp
          · obtain ⟨q, hq, hsame, hown⟩ := h.there pi hpi hstate
            rw [hq, Option.some.injEq] at hp
            rw [← hp] at hidentity hsid
            exact ⟨pi, hpi, hstate, hown.symm.trans hidentity, hsame.symm.trans hsid⟩
        · rw [(h.untouched key fun pi hpi hkey => hmentioned ⟨pi, hpi, hkey⟩).1, hlookup] at hp
          exact absurd (hall key p hp) hmentioned
      · intro ⟨pi, hpi, hstate, hidentity, hsid⟩
        obtain ⟨p, hp, hsame, hown⟩ := h.there pi hpi hstate
        exact ⟨_, p, hp, hown.trans hidentity, hsame.trans hsid⟩
    · intro key p hp hnot
      obtain ⟨pi, hpi, hkey⟩ := hall key p hp
      have hbefore : lookup pi.info.identity
          (r.updateLocal moved.participant).1.base.remoteParticipants = some p := by
        rw [hlookup, hkey]
        exact hp
      have hidentity : p.identity = pi.info.identity := hc.keyed _ p hbefore
      obtain ⟨hcount, hgoes⟩ := h.gone pi hpi p hbefore fun hstays =>
        hnot ⟨pi, hpi, hstays.2, hidentity.symm, hstays.1.symm⟩
      rw [hpublications, hkey] at hgoes
      rw [hevents, filterMap_append, filterMap_append, hearlier, hlater, nil_append,
        append_nil, hidentity]
      refine ⟨hcount, ?_⟩
      rw [hkey]
      exact (hgoes.append_right later).append_left earlier

end

end LiveKit.RoomMove
