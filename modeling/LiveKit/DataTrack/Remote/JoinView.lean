import LiveKit.DataTrack.Local.Events
import LiveKit.DataTrack.Remote.Publications
import LiveKit.Lib.Traverse

/-!
# The view of a join response

`remote/proto.rs`: the update of the publications that a join response makes. The participants go
into a hash map by their identity, so that of two with one identity the last counts, and a track
that cannot be converted spoils the whole update. After a full reconnect the manager gets the
update of the new join response.
-/

namespace LiveKit.DataTrack.Remote

open List
open Local (InternalError ProtoDataTrackInfo)

/-! ## Conversions from the protocol -/

/-- `proto::ParticipantInfo` -/
structure ParticipantInfo where
  identity : String
  dataTracks : List ProtoDataTrackInfo

/-- `proto::JoinResponse` -/
structure JoinResponse where
  otherParticipants : List ParticipantInfo

def extractTrackInfo (msg : ParticipantInfo) : Except InternalError (List DataTrackInfo) :=
  msg.dataTracks.mapM Local.DataTrackInfo.tryFrom

/-- The entries are taken from the hash map in some order. -/
def eventFromParticipantInfo (msg : List ParticipantInfo)
    (localParticipantIdentity : Option String) (order : List ℕ) :
    Except InternalError SfuPublicationUpdates := do
  let others := msg.filter fun participant =>
    localParticipantIdentity.all fun identity => participant.identity ≠ identity
  let entries ← others.mapM fun participant =>
    (extractTrackInfo participant).map fun tracks => (participant.identity, tracks)
  let updates := AssocMap.collect entries
  return ⟨⟨AssocMap.inOrder updates order, (AssocMap.inOrder_iterOrder updates order).keys_nodup⟩⟩

/-- Extracts an event from a join response. -/
def eventFromJoin (msg : JoinResponse) (order : List ℕ) :
    Except InternalError SfuPublicationUpdates :=
  eventFromParticipantInfo msg.otherParticipants none order

/-! ## What a message lists -/

/-- The participant publishes the track. -/
def ParticipantInfo.Lists (participant : ParticipantInfo) (sid : DataTrackSid) : Prop :=
  ∃ track ∈ participant.dataTracks, track.sid = sid.value

/-- The participant of that identity that counts. -/
def lastOf (identity : String) (participants : List ParticipantInfo) : Option ParticipantInfo :=
  participants.reverse.find? fun participant => participant.identity = identity

/-- Some participant publishes the track. -/
def JoinResponse.Lists (msg : JoinResponse) (sid : DataTrackSid) : Prop :=
  ∃ participant ∈ msg.otherParticipants, participant.Lists sid

/-- The participant that counts for the identity publishes the track. -/
def JoinResponse.ListsFor (msg : JoinResponse) (identity : String) (sid : DataTrackSid) : Prop :=
  ∃ participant, lastOf identity msg.otherParticipants = some participant ∧ participant.Lists sid

theorem tryFrom_sid {msg : ProtoDataTrackInfo} {info : DataTrackInfo}
    (h : Local.DataTrackInfo.tryFrom msg = .ok info) : info.sid.value = msg.sid := by
  unfold Local.DataTrackInfo.tryFrom at h
  cases hhandle : Handle.tryFromU32 msg.pubHandle with
  | error err => simp [hhandle, Except.mapError, bind, Except.bind] at h
  | ok handle =>
    cases hsid : DataTrackSid.tryFrom msg.sid with
    | error err =>
      simp only [hhandle, hsid, Except.mapError, bind, Except.bind] at h
      split at h <;> cases h
    | ok sid =>
      have hvalue : sid.value = msg.sid := by
        unfold DataTrackSid.tryFrom at hsid
        split at hsid
        · cases hsid
          rfl
        · cases hsid
      simp only [hhandle, hsid, Except.mapError, bind, Except.bind, pure, Except.pure] at h
      split at h
      · cases h
        exact hvalue
      · cases h
        exact hvalue
      · cases h

/-- The tracks of a participant that can be converted are those that it lists. -/
theorem mem_extractTrackInfo {msg : ParticipantInfo} {tracks : List DataTrackInfo}
    (h : extractTrackInfo msg = .ok tracks) (sid : DataTrackSid) :
    sid ∈ tracks.map (·.sid) ↔ msg.Lists sid := by
  have hall : List.Forall₂ (fun msg info => info.sid.value = msg.sid) msg.dataTracks tracks :=
    (Traverse.forall₂_of_mapM h).imp fun _ _ => tryFrom_sid
  unfold ParticipantInfo.Lists
  clear h
  generalize msg.dataTracks = msgs at hall
  induction hall with
  | nil => simp
  | @cons track info _ _ hfirst _ ih =>
    have hsid : sid = info.sid ↔ track.sid = sid.value := by
      rw [← hfirst]
      constructor
      · intro heq
        rw [heq]
      · intro heq
        rcases sid with ⟨value, hprefix⟩
        rcases hinfo : info.sid with ⟨value', hprefix'⟩
        rw [hinfo] at heq
        simpa using heq.symm
    simp only [map_cons, mem_cons, exists_eq_or_imp]
    exact or_congr hsid ih

/-! ## What the event of a join response says -/

variable {participants : List ParticipantInfo} {participant : ParticipantInfo}
  {update : String × List DataTrackInfo}

theorem lastOf_mem {identity : String} (h : lastOf identity participants = some participant) :
    participant ∈ participants ∧ participant.identity = identity := by
  have hmem := mem_of_find?_eq_some h
  have hidentity := find?_some h
  exact ⟨mem_reverse.mp hmem, of_decide_eq_true hidentity⟩

/-- Every identity of a participant has one that counts. -/
theorem exists_lastOf (h : participant ∈ participants) :
    ∃ last, lastOf participant.identity participants = some last := by
  cases hlast : lastOf participant.identity participants with
  | some last => exact ⟨last, rfl⟩
  | none =>
    have hnone := find?_eq_none.mp hlast participant (mem_reverse.mpr h)
    simp at hnone

variable {event : SfuPublicationUpdates} {msg : JoinResponse} {order : List ℕ}

section

variable (h : eventFromJoin msg order = .ok event)

include h

/-- For every identity the event has the tracks of the participant who counts. -/
theorem eventFromJoin_lookup :
    ∃ updates : AssocMap String (List DataTrackInfo),
      event.updates.toList = AssocMap.inOrder updates order ∧
      ∀ identity, Option.Rel (fun participant tracks => extractTrackInfo participant = .ok tracks)
        (lastOf identity msg.otherParticipants) (AList.lookup identity updates) := by
  unfold eventFromJoin eventFromParticipantInfo at h
  simp only [Option.all_none, filter_true] at h
  let convert (participant : ParticipantInfo) :
      Except InternalError (String × List DataTrackInfo) :=
    (extractTrackInfo participant).map fun tracks => (participant.identity, tracks)
  cases hentries : msg.otherParticipants.mapM convert with
  | error err =>
    rw [hentries] at h
    cases h
  | ok entries =>
    rw [hentries] at h
    cases h
    refine ⟨AssocMap.collect entries, rfl, ?_⟩
    intro identity
    have hall : List.Forall₂ (fun participant entry => entry.1 = participant.identity ∧
        extractTrackInfo participant = .ok entry.2) msg.otherParticipants entries := by
      refine (Traverse.forall₂_of_mapM hentries).imp ?_
      intro participant entry hconvert
      cases htracks : extractTrackInfo participant with
      | error err => simp [convert, htracks, Except.map] at hconvert
      | ok tracks =>
        simp only [convert, htracks, Except.map, Except.ok.injEq] at hconvert
        rw [← hconvert]
        exact ⟨rfl, rfl⟩
    have hlast :=
      Traverse.find?_of_forall₂ (p := fun participant => participant.identity = identity)
      (q := fun entry => entry.1 = identity) (fun _ _ hentry => by rw [hentry.1])
      (rel_reverse hall)
    rw [AssocMap.lookup_collect]
    unfold lastOf
    generalize msg.otherParticipants.reverse.find? _ = last at hlast ⊢
    generalize entries.reverse.find? _ = entry at hlast ⊢
    cases hlast with
    | none => exact .none
    | some hentry => exact .some hentry.2

/-- An entry of the event is made from the participant who counts. -/
theorem mem_eventFromJoin (hupdate : update ∈ event.updates.toList) :
    ∃ participant, lastOf update.1 msg.otherParticipants = some participant ∧
      extractTrackInfo participant = .ok update.2 := by
  obtain ⟨updates, heq, hlookup⟩ := eventFromJoin_lookup h
  rw [heq] at hupdate
  have hrel := hlookup update.1
  rw [(AssocMap.mem_inOrder _ _ _ _).mp hupdate] at hrel
  cases hlast : lastOf update.1 msg.otherParticipants with
  | none =>
    rw [hlast] at hrel
    cases hrel
  | some participant =>
    rw [hlast] at hrel
    cases hrel with
    | some htracks => exact ⟨participant, rfl, htracks⟩

/-- The list of a participant in the event is that of the participant who counts. -/
theorem eventFromJoin_list (hupdate : update ∈ event.updates.toList) (sid : DataTrackSid) :
    sid ∈ update.2.map (·.sid) ↔ msg.ListsFor update.1 sid := by
  obtain ⟨participant, hlast, htracks⟩ := mem_eventFromJoin h hupdate
  rw [mem_extractTrackInfo htracks]
  unfold JoinResponse.ListsFor
  constructor
  · exact fun hlists => ⟨participant, hlast, hlists⟩
  · rintro ⟨participant', hlast', hlists⟩
    rw [hlast, Option.some.injEq] at hlast'
    rwa [hlast']

/-- The identities of the event are those of the participants. -/
theorem eventFromJoin_identity (identity : String) :
    (∃ update ∈ event.updates.toList, update.1 = identity) ↔
      ∃ participant ∈ msg.otherParticipants, participant.identity = identity := by
  constructor
  · rintro ⟨update, hupdate, rfl⟩
    obtain ⟨participant, hlast, -⟩ := mem_eventFromJoin h hupdate
    exact ⟨participant, lastOf_mem hlast⟩
  · rintro ⟨participant, hmem, rfl⟩
    obtain ⟨last, hlast⟩ := exists_lastOf hmem
    obtain ⟨updates, heq, hlookup⟩ := eventFromJoin_lookup h
    have hrel := hlookup participant.identity
    rw [hlast] at hrel
    cases htracks : AList.lookup participant.identity updates with
    | none =>
      rw [htracks] at hrel
      cases hrel
    | some tracks =>
      refine ⟨(participant.identity, tracks), ?_, rfl⟩
      rw [heq]
      exact (AssocMap.mem_inOrder _ _ _ _).mpr htracks

end

/-! ## The view of the manager after a full reconnect -/

namespace Manager

/-- After the event of the join response, the manager knows exactly the tracks that its
participants publish, and it has emitted one event for each track whose publisher has left. -/
structure CompleteView (m : Manager) (msg : JoinResponse) (result : Manager × List Effect) :
    Prop where
  registered : ∀ sid, result.1.registered sid = true ↔ msg.Lists sid
  departed : ∀ sid d, AList.lookup sid m.descriptors = some d →
    d.publisherIdentity ∉ msg.otherParticipants.map (·.identity) →
      (publications sid (emitted result.2)).count false = 1

/-- No publisher has left, a track that is still published is published by whom it was, and no
track is only listed by a participant that does not count. -/
structure Covers (m : Manager) (msg : JoinResponse) : Prop where
  present : ∀ sid d, AList.lookup sid m.descriptors = some d →
    d.publisherIdentity ∈ msg.otherParticipants.map (·.identity)
  same : ∀ sid d, AList.lookup sid m.descriptors = some d → msg.Lists sid →
    msg.ListsFor d.publisherIdentity sid
  counts : ∀ sid, msg.Lists sid → ∃ identity, msg.ListsFor identity sid

/-- **The view of a join response.** After a full reconnect the manager has a complete view of
the tracks exactly if no publisher of a track that it knows has left, each track has stayed with
its publisher, and every track is listed by a participant who counts. -/
theorem completeView_iff (m : Manager) (msg : JoinResponse) (order : List ℕ) (orders : Orders)
    {event : SfuPublicationUpdates} (hevent : eventFromJoin msg order = .ok event) :
    CompleteView m msg (m.onSfuPublicationUpdates orders event) ↔ Covers m msg := by
  obtain ⟨m₁, effects₁, effects₂, h⟩ := m.onSfuPublicationUpdates_halves orders event
  generalize m.onSfuPublicationUpdates orders event = result at h ⊢
  have hidentity : ∀ identity, (∃ update ∈ event.updates.toList, update.1 = identity) ↔
      identity ∈ msg.otherParticipants.map (·.identity) := by
    intro identity
    rw [eventFromJoin_identity hevent, mem_map]
  have hlists : ∀ sid, event.Lists sid ↔ ∃ identity, msg.ListsFor identity sid := by
    intro sid
    constructor
    · rintro ⟨update, hupdate, hsid⟩
      exact ⟨update.1, (eventFromJoin_list hevent hupdate sid).mp hsid⟩
    · rintro ⟨identity, participant, hlast, hlisted⟩
      obtain ⟨update, hupdate, rfl⟩ := (eventFromJoin_identity hevent identity).mpr
        ⟨participant, lastOf_mem hlast⟩
      exact ⟨update, hupdate,
        (eventFromJoin_list hevent hupdate sid).mpr ⟨participant, hlast, hlisted⟩⟩
  have hlistsFor : ∀ identity sid, msg.ListsFor identity sid → msg.Lists sid := by
    rintro identity sid ⟨participant, hlast, hlisted⟩
    exact ⟨participant, (lastOf_mem hlast).1, hlisted⟩
  constructor
  · intro hview
    have hpresent : ∀ sid d, AList.lookup sid m.descriptors = some d →
        d.publisherIdentity ∈ msg.otherParticipants.map (·.identity) := by
      intro sid d hd
      by_contra habsent
      have hone := hview.departed sid d hd habsent
      -- nobody in the update says anything about the track, so it stays
      have hd₁ := h.published.kept sid d hd
      have hstays : AList.lookup sid result.1.descriptors = some d := by
        refine (h.lookup sid d).mpr ⟨hd₁, ?_⟩
        intro update hupdate heq
        exact absurd ((hidentity _).mp ⟨update, hupdate, heq.symm⟩) habsent
      have hsecond := (h.second sid).of_constant (eq_of_only h.second_only sid)
      have hnone : publications sid (emitted effects₂) = [] := by
        rcases hsecond with ⟨hnil, -⟩ | ⟨-, -, hoff⟩
        · exact hnil
        · exact absurd ((registered_iff _ _).mpr ⟨d, hstays⟩) (by simp [hoff])
      have hfirst : (publications sid (emitted effects₁)).count false = 0 := by
        rw [count_eq_zero]
        intro hfalse
        exact absurd (eq_of_only h.first_only sid false hfalse) (by decide)
      rw [h.effects, emitted_append, publications_append, count_append, hnone, hfirst] at hone
      simp at hone
    refine ⟨hpresent, ?_, ?_⟩
    · intro sid d hd hlisted
      obtain ⟨d', hd'⟩ := (registered_iff _ _).mp ((hview.registered sid).mpr hlisted)
      obtain ⟨hd₁, hkept⟩ := (h.lookup sid d').mp hd'
      rw [h.published.kept sid d hd, Option.some.injEq] at hd₁
      subst hd₁
      obtain ⟨update, hupdate, heq⟩ := (hidentity _).mpr (hpresent sid d hd)
      rw [← heq]
      exact (eventFromJoin_list hevent hupdate sid).mp (hkept update hupdate heq.symm)
    · intro sid hlisted
      obtain ⟨d', hd'⟩ := (registered_iff _ _).mp ((hview.registered sid).mpr hlisted)
      obtain ⟨hd₁, hkept⟩ := (h.lookup sid d').mp hd'
      rcases h.published.origin sid d' hd₁ with hold | ⟨update, hupdate, hpublisher, hinfo, rfl⟩
      · obtain ⟨update, hupdate, heq⟩ := (hidentity _).mpr (hpresent sid d' hold)
        exact ⟨update.1, (eventFromJoin_list hevent hupdate sid).mp
          (hkept update hupdate heq.symm)⟩
      · exact ⟨update.1, (eventFromJoin_list hevent hupdate _).mp (mem_map_of_mem hinfo)⟩
  · intro hcovers
    constructor
    · intro sid
      rw [registered_iff]
      constructor
      · rintro ⟨d, hd⟩
        obtain ⟨hd₁, hkept⟩ := (h.lookup sid d).mp hd
        have hlisted : event.Lists sid := by
          rcases h.published.origin sid d hd₁ with hold | ⟨update, hupdate, -, hinfo, rfl⟩
          · obtain ⟨update, hupdate, heq⟩ := (hidentity _).mpr (hcovers.present sid d hold)
            exact ⟨update, hupdate, hkept update hupdate heq.symm⟩
          · exact ⟨update, hupdate, mem_map_of_mem hinfo⟩
        obtain ⟨identity, hlisted⟩ := (hlists sid).mp hlisted
        exact hlistsFor identity sid hlisted
      · intro hlisted
        obtain ⟨d, hd⟩ := (registered_iff _ _).mp
          (h.published.listed sid ((hlists sid).mpr (hcovers.counts sid hlisted)))
        refine ⟨d, (h.lookup sid d).mpr ⟨hd, ?_⟩⟩
        intro update hupdate heq
        rcases h.published.origin sid d hd with hold | ⟨update', hupdate', heq', hinfo, rfl⟩
        · have hsame := hcovers.same sid d hold hlisted
          rw [heq] at hsame
          exact (eventFromJoin_list hevent hupdate sid).mpr hsame
        · rw [← event.update_unique hupdate' hupdate (heq'.symm.trans heq)]
          exact mem_map_of_mem hinfo
    · intro sid d hd habsent
      exact absurd (hcovers.present sid d hd) habsent

/-- The publisher stays, and so does its track. -/
theorem completeView_of_one_publisher :
    let track : ProtoDataTrackInfo := ⟨7, "DTR_A", "camera", 0⟩
    let info : DataTrackInfo := ⟨⟨"DTR_A", by decide⟩, ⟨7, by decide⟩, "camera", false⟩
    let m := ((new none).handleTrackPublished "publisher" info).1
    let event : SfuPublicationUpdates := ⟨⟨[("publisher", [info])], by simp⟩⟩
    eventFromJoin ⟨[⟨"publisher", [track]⟩]⟩ [] = .ok event ∧
      CompleteView m ⟨[⟨"publisher", [track]⟩]⟩
        (m.onSfuPublicationUpdates (fun _ => []) event) := by
  intro track info m event
  have hevent : eventFromJoin ⟨[⟨"publisher", [track]⟩]⟩ [] = .ok event := by decide
  refine ⟨hevent, (completeView_iff m _ [] _ hevent).mpr ?_⟩
  have hfor : ∀ sid, (∃ participant ∈ [(⟨"publisher", [track]⟩ : ParticipantInfo)],
      participant.Lists sid) →
        JoinResponse.ListsFor ⟨[⟨"publisher", [track]⟩]⟩ "publisher" sid := by
    rintro sid ⟨participant, hmem, hlists⟩
    rw [mem_singleton] at hmem
    subst hmem
    exact ⟨_, rfl, hlists⟩
  have hpublisher : ∀ sid d, AList.lookup sid m.descriptors = some d →
      d.publisherIdentity = "publisher" := by
    intro sid d hd
    have hinsert : AList.lookup sid m.descriptors = if sid = info.sid then
        some ⟨info, "publisher", 0, .none⟩ else none := AssocMap.lookup_insert_ite _ _ _ _
    rw [hinsert] at hd
    split at hd
    · rw [← Option.some.inj hd]
    · cases hd
  constructor
  · intro sid d hd
    rw [hpublisher sid d hd]
    simp
  · intro sid d hd hlists
    rw [hpublisher sid d hd]
    exact hfor sid hlists
  · exact fun sid hlists => ⟨_, hfor sid hlists⟩

/-- The publisher leaves while the connection is down: the new join response does not name it,
and the manager keeps its track. -/
theorem departed_publisher_stays :
    ¬ ∀ (provider : Option DecryptionProvider) (run : List Action) (s : State),
      TransitionSystem.exec State.step (State.init provider) run = some s → s.mode = .running →
      ∀ msg order orders event, eventFromJoin msg order = .ok event →
        CompleteView s.manager msg (s.manager.onSfuPublicationUpdates orders event) := by
  intro hview
  let info : DataTrackInfo := ⟨⟨"DTR_A", by decide⟩, ⟨7, by decide⟩, "camera", false⟩
  let update : SfuPublicationUpdates := ⟨⟨[("publisher", [info])], by simp⟩⟩
  let run : List Action := [.sendInput (.sfuPublicationUpdates update), .manager fun _ => []]
  let msg : JoinResponse := ⟨[⟨"listener", []⟩]⟩
  have hone := (hview none run _ rfl rfl msg [] (fun _ => [])
    ⟨⟨[("listener", [])], by simp⟩⟩ rfl).registered info.sid
  obtain ⟨participant, hmem, track, htrack, -⟩ := hone.mp (by decide)
  rw [mem_singleton] at hmem
  subst hmem
  cases htrack

end Manager

end LiveKit.DataTrack.Remote
