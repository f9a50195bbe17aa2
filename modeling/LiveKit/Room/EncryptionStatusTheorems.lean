import LiveKit.Room.EncryptionStatus
import Mathlib.Data.List.Chain

/-!
# When the status is right

What is evaluated is right, and every evaluation that changes the status sends the event. So the
status goes wrong only where publications are updated and nothing is evaluated afterwards.
-/

namespace LiveKit.EncryptionStatus

open LiveKit.Publications (TrackSid)
open AssocMap State AList TransitionSystem

/-! ## What is evaluated -/

theorem allEncrypted_iff (t : Tracks) :
    t.encrypted = true ↔
      (∃ sid h, lookup sid t.trackPublications = some h) ∧
        ∀ sid h, lookup sid t.trackPublications = some h → t.encryptionType h ≠ .none := by
  have hall : ((toPairs t.trackPublications).all
      fun entry => t.encryptionType entry.2 != .none) = true ↔
      ∀ sid h, lookup sid t.trackPublications = some h → t.encryptionType h ≠ .none := by
    rw [List.all_eq_true]
    constructor
    · intro h sid k hlookup
      have hentry := h (sid, k) ((mem_toPairs _ sid k).mpr hlookup)
      simpa using hentry
    · intro h entry hentry
      simpa using h entry.1 entry.2 ((mem_toPairs _ entry.1 entry.2).mp hentry)
  have hsome : (!(toPairs t.trackPublications).isEmpty) = true ↔
      ∃ sid h, lookup sid t.trackPublications = some h := by
    cases hpairs : toPairs t.trackPublications with
    | nil =>
      apply iff_of_false Bool.false_ne_true
      intro hex
      obtain ⟨sid, h, hlookup⟩ := hex
      have hmem := (mem_toPairs _ sid h).mpr hlookup
      rw [hpairs] at hmem
      cases hmem
    | cons entry rest =>
      have hmem : entry ∈ toPairs t.trackPublications := by
        rw [hpairs]
        exact List.mem_cons_self
      exact iff_of_true rfl ⟨entry.1, entry.2, (mem_toPairs _ _ _).mp hmem⟩
  unfold Tracks.encrypted
  rw [Bool.and_eq_true, hall, hsome]

namespace State

variable {s : State}

theorem status_of_unencrypted (h : s.isDataEncrypted = some false) : s.status = false := by
  unfold status
  rw [h]
  exact Bool.and_false _

theorem status_of_ne (h : s.isDataEncrypted ≠ some false) : s.status = s.tracks.encrypted := by
  unfold status
  cases hdata : s.isDataEncrypted with
  | none => rfl
  | some dataEncrypted =>
    cases dataEncrypted with
    | false => exact absurd hdata h
    | true => exact Bool.and_true _

theorem status_iff :
    s.status = true ↔ s.tracks.encrypted = true ∧ s.isDataEncrypted ≠ some false := by
  by_cases h : s.isDataEncrypted = some false
  · rw [status_of_unencrypted h]
    exact iff_of_false Bool.false_ne_true fun hboth => hboth.2 h
  · rw [status_of_ne h, and_iff_left h]

end State

/-! ## What is told -/

/-- What was recorded of the data messages, and the events. -/
structure Told (s : State) : Prop where
  data : s.isDataEncrypted = some false ↔ false ∈ s.messages
  alternate : (false :: s.changes).IsChain (· ≠ ·)
  last : s.changes.getLast?.getD false = s.isEncrypted

/-- The status is what an evaluation would give. -/
def Fresh (s : State) : Prop := s.isEncrypted = s.status

variable {s : State}

theorem Told.truthful_iff_fresh (h : Told s) : Truthful s ↔ Fresh s := by
  have hstatus : s.status = true ↔
      (∃ sid h, lookup sid s.tracks.trackPublications = some h) ∧
        (∀ sid h, lookup sid s.tracks.trackPublications = some h →
          s.tracks.encryptionType h ≠ .none) ∧
        false ∉ s.messages := by
    rw [status_iff, allEncrypted_iff, Ne, h.data, and_assoc]
  constructor
  · intro htrue
    apply Bool.eq_iff_iff.mpr
    rw [htrue.status, hstatus]
  · intro hfresh
    refine ⟨?_, h.alternate, h.last⟩
    rw [show s.isEncrypted = s.status from hfresh]
    exact hstatus

theorem told_new (remote : Bool) : Told (new remote) where
  data := iff_of_false nofun nofun
  alternate := List.isChain_singleton _
  last := rfl

/-- An evaluation gives the status, and an event if it is another. -/
theorem Told.evaluated (h : Told s) :
    Told s.updateEncryptionStatus ∧ Fresh s.updateEncryptionStatus := by
  unfold updateEncryptionStatus
  dsimp only
  by_cases hsame : s.isEncrypted = s.status
  · rw [if_neg (not_not_intro hsame)]
    exact ⟨h, hsame⟩
  · rw [if_pos hsame]
    refine ⟨⟨h.data, ?_, ?_⟩, rfl⟩
    · show ((false :: s.changes) ++ [s.status]).IsChain (· ≠ ·)
      apply List.isChain_append.mpr
      refine ⟨h.alternate, List.isChain_singleton _, ?_⟩
      intro a ha b hb
      have hlast : s.isEncrypted = a := by
        rw [List.getLast?_cons, h.last] at ha
        exact Option.some.inj ha
      obtain rfl : s.status = b := by simpa using hb
      rw [← hlast]
      exact hsame
    · show (s.changes ++ [s.status]).getLast?.getD false = s.status
      rw [List.getLast?_concat]
      rfl

/-! ## Operations that evaluate -/

/-- The publications play no part in what is told. -/
theorem Told.withTracks (h : Told s) (tracks : Tracks) : Told { s with tracks } :=
  ⟨h.data, h.alternate, h.last⟩

theorem Told.addPublication (h : Told s) (k : ℕ) (sid : TrackSid) :
    Told (s.addPublication k sid) ∧ Fresh (s.addPublication k sid) :=
  (h.withTracks _).evaluated

theorem Told.newPublication (h : Told s) (info : TrackInfo) :
    Told (s.newPublication info) ∧ Fresh (s.newPublication info) :=
  (h.withTracks _).addPublication _ _

theorem Told.removePublication (h : Told s) (sid : TrackSid) :
    Told (s.removePublication sid) ∧ Fresh (s.removePublication sid) :=
  (h.withTracks _).evaluated

/-- Only the first data message, and the first that is unencrypted, have an effect. -/
theorem Told.dataMessage (h : Told s) (hfresh : Fresh s) (isEncrypted : Bool) :
    Told (s.updateDataEncryptionStatus isEncrypted) ∧
      Fresh (s.updateDataEncryptionStatus isEncrypted) := by
  unfold updateDataEncryptionStatus
  by_cases hremote : s.remote = true
  · rw [if_pos hremote]
    -- the state with the message on record
    obtain ⟨t, ht⟩ : ∃ t, t = { s with messages := s.messages ++ [isEncrypted] } := ⟨_, rfl⟩
    have hdata : t.isDataEncrypted = some false ↔ false ∈ s.messages := by
      rw [ht]
      exact h.data
    have hmessages : false ∈ t.messages ↔ false ∈ s.messages ∨ isEncrypted = false := by
      rw [ht, eq_comm (a := isEncrypted), ← List.mem_singleton]
      exact List.mem_append
    have halternate : (false :: t.changes).IsChain (· ≠ ·) := by
      rw [ht]
      exact h.alternate
    have hlast : t.changes.getLast?.getD false = t.isEncrypted := by
      rw [ht]
      exact h.last
    have hfresh' : Fresh t := by
      rw [ht]
      exact hfresh
    rw [← ht]
    dsimp only
    cases hcurrent : t.isDataEncrypted with
    | none =>
      have hnot : false ∉ s.messages := by
        rw [← hdata, hcurrent]
        nofun
      have htold : Told { t with isDataEncrypted := some isEncrypted } := by
        refine ⟨?_, halternate, hlast⟩
        show some isEncrypted = some false ↔ false ∈ t.messages
        rw [hmessages, or_iff_right hnot, Option.some.injEq]
      exact htold.evaluated
    | some current =>
      rw [hcurrent, Option.some.injEq] at hdata
      dsimp only
      by_cases hsame : current = isEncrypted
      · rw [if_pos hsame]
        refine ⟨⟨?_, halternate, hlast⟩, hfresh'⟩
        rw [hmessages, hcurrent, Option.some.injEq, ← hdata, ← hsame, or_self]
      · rw [if_neg hsame]
        cases current with
        | true =>
          have hfalse : isEncrypted = false := Bool.eq_false_iff.mpr (Ne.symm hsame)
          have htold : Told { t with isDataEncrypted := some false } := by
            refine ⟨?_, halternate, hlast⟩
            show some false = some false ↔ false ∈ t.messages
            rw [hmessages]
            exact iff_of_true rfl (.inr hfalse)
          exact htold.evaluated
        | false =>
          refine ⟨⟨?_, halternate, hlast⟩, hfresh'⟩
          show t.isDataEncrypted = some false ↔ false ∈ t.messages
          rw [hmessages, hcurrent]
          exact iff_of_true rfl (.inl (hdata.mp rfl))
  · rw [if_neg hremote]
    exact ⟨h, hfresh⟩

/-! ## Updates of a publication -/

theorem encryptionType_set (t : Tracks) {h : ℕ} (hlt : h < t.objects.length) (newInfo : TrackInfo)
    (h' : ℕ) :
    (t.set h newInfo).encryptionType h' =
      if h' = h then newInfo.encryption else t.encryptionType h' := by
  unfold Tracks.encryptionType Tracks.set
  dsimp only
  by_cases hsame : h' = h
  · rw [if_pos hsame, hsame, List.getElem?_set_self hlt]
    rfl
  · rw [if_neg hsame, List.getElem?_set_ne (Ne.symm hsame)]

/-- Whether all are encrypted stays the same exactly where the update does not matter. -/
theorem encrypted_set_iff (t : Tracks) {h : ℕ} (hlt : h < t.objects.length) (newInfo : TrackInfo) :
    t.encrypted = (t.set h newInfo).encrypted ↔ SameForAll t h newInfo := by
  have hnew : (t.set h newInfo).encrypted = true ↔
      (∃ sid k, lookup sid t.trackPublications = some k) ∧
        ∀ sid k, lookup sid t.trackPublications = some k →
          (if k = h then newInfo.encryption else t.encryptionType k) ≠ .none := by
    rw [allEncrypted_iff]
    simp only [encryptionType_set t hlt]
    rfl
  rw [Bool.eq_iff_iff, hnew, allEncrypted_iff]
  unfold SameForAll
  constructor
  · intro hsame
    by_contra hnot
    push Not at hnot
    obtain ⟨⟨sid, hsid⟩, hothers, hdiffer⟩ := hnot
    -- all others are encrypted, so this one decides
    have hold : (∀ sid k, lookup sid t.trackPublications = some k →
        t.encryptionType k ≠ .none) ↔ t.encryptionType h ≠ .none := by
      refine ⟨fun hall => hall sid h hsid, fun hself sid' k hk => ?_⟩
      by_cases hkh : k = h
      · rw [hkh]
        exact hself
      · exact hothers sid' k hk hkh
    have hafter : (∀ sid k, lookup sid t.trackPublications = some k →
        (if k = h then newInfo.encryption else t.encryptionType k) ≠ .none) ↔
          newInfo.encryption ≠ .none := by
      constructor
      · intro hall
        have hself := hall sid h hsid
        rw [if_pos rfl] at hself
        exact hself
      · intro hself sid' k hk
        by_cases hkh : k = h
        · rw [if_pos hkh]
          exact hself
        · rw [if_neg hkh]
          exact hothers sid' k hk hkh
    have hsome : ∃ sid k, lookup sid t.trackPublications = some k := ⟨sid, h, hsid⟩
    rw [hold, hafter, and_iff_right hsome, and_iff_right hsome, not_iff_not] at hsame
    rcases hdiffer with ⟨h₁, h₂⟩ | ⟨h₁, h₂⟩
    · exact h₂ (hsame.mp h₁)
    · exact h₁ (hsame.mpr h₂)
  · intro hsame
    apply and_congr_right
    intro _
    rcases hsame with hother | ⟨sid, k, hk, hne, hnone⟩ | hboth
    · refine forall_congr' fun sid => forall_congr' fun k => forall_congr' fun hk => ?_
      have hkh : k ≠ h := fun hkh => hother sid (hkh ▸ hk)
      rw [if_neg hkh]
    · refine iff_of_false (fun hall => hall sid k hk hnone) fun hall => ?_
      have hself := hall sid k hk
      rw [if_neg hne] at hself
      exact hself hnone
    · refine forall_congr' fun sid => forall_congr' fun k => forall_congr' fun _ => ?_
      by_cases hkh : k = h
      · rw [if_pos hkh, hkh, not_iff_not]
        exact hboth
      · rw [if_neg hkh]

/-- The status is what an evaluation for these publications would give. -/
def EvaluatedAt (t : Tracks) (s : State) : Prop :=
  s.isEncrypted = State.status { s with tracks := t }

/-- Then it is right if and only if what has changed of them since does not matter. -/
theorem EvaluatedAt.fresh_iff {t : Tracks} (h : EvaluatedAt t s) :
    Fresh s ↔ s.isDataEncrypted = some false ∨ t.encrypted = s.tracks.encrypted := by
  unfold Fresh
  rw [show s.isEncrypted = _ from h]
  by_cases hdata : s.isDataEncrypted = some false
  · have hthen : status { s with tracks := t } = false := status_of_unencrypted hdata
    rw [hthen, status_of_unencrypted hdata]
    exact iff_of_true rfl (.inl hdata)
  · have hthen : status { s with tracks := t } = t.encrypted := status_of_ne hdata
    rw [hthen, status_of_ne hdata, or_iff_right hdata]

/-! ## The information of a participant -/

theorem tracks_evaluated (s : State) : s.updateEncryptionStatus.tracks = s.tracks := by
  unfold updateEncryptionStatus
  dsimp only
  split
  · rfl
  · rfl

theorem data_evaluated (s : State) :
    s.updateEncryptionStatus.isDataEncrypted = s.isDataEncrypted := by
  unfold updateEncryptionStatus
  dsimp only
  split
  · rfl
  · rfl

/-- A track that is there is updated without an evaluation, a new one comes with one. -/
theorem updateTrack_settle {t : Tracks} (h : Told s) (ht : EvaluatedAt t s) (track : TrackInfo) :
    Told (s.updateTrack track) ∧
      EvaluatedAt (settle (t, s.tracks) track).1 (s.updateTrack track) ∧
      (s.updateTrack track).tracks = (settle (t, s.tracks) track).2 ∧
      (s.updateTrack track).isDataEncrypted = s.isDataEncrypted := by
  unfold updateTrack settle Tracks.update
  dsimp only
  cases hlookup : lookup track.sid s.tracks.trackPublications with
  | some k => exact ⟨h.withTracks _, ht, rfl, rfl⟩
  | none =>
    obtain ⟨htold, hfresh⟩ := h.newPublication track
    have hafter : (s.newPublication track).tracks =
        (s.tracks.new track).insert track.sid s.tracks.objects.length := tracks_evaluated _
    refine ⟨htold, ?_, hafter, data_evaluated _⟩
    show _ = status { s.newPublication track with
      tracks := (s.tracks.new track).insert track.sid s.tracks.objects.length }
    rw [← hafter]
    exact hfresh

theorem foldl_updateTrack (infos : List TrackInfo) {t : Tracks} (h : Told s)
    (ht : EvaluatedAt t s) :
    Told (infos.foldl updateTrack s) ∧
      EvaluatedAt (infos.foldl settle (t, s.tracks)).1 (infos.foldl updateTrack s) ∧
      (infos.foldl updateTrack s).tracks = (infos.foldl settle (t, s.tracks)).2 ∧
      (infos.foldl updateTrack s).isDataEncrypted = s.isDataEncrypted := by
  induction infos generalizing s t with
  | nil => exact ⟨h, ht, rfl, rfl⟩
  | cons track infos ih =>
    obtain ⟨htold, hnext, htracks, hdata⟩ := updateTrack_settle h ht track
    have hrest := ih htold hnext
    rw [htracks, hdata] at hrest
    exact hrest

/-- What the information does not mention stays until the end. -/
theorem lookup_settle (infos : List TrackInfo) (p : Tracks × Tracks) {sid : TrackSid}
    (hnot : sid ∉ infos.map TrackInfo.sid) :
    lookup sid (infos.foldl settle p).2.trackPublications =
      lookup sid p.2.trackPublications := by
  induction infos generalizing p with
  | nil => rfl
  | cons track infos ih =>
    rw [List.map_cons, List.mem_cons, not_or] at hnot
    rw [List.foldl_cons, ih _ hnot.2]
    unfold settle Tracks.update
    cases lookup track.sid p.2.trackPublications with
    | some k => rfl
    | none =>
      show lookup sid (insert track.sid _ p.2.trackPublications) = _
      rw [lookup_insert_ite, if_neg hnot.1]

theorem Told.unpublishTrack (h : Told s) (sid : TrackSid) : Told (s.unpublishTrack sid) := by
  unfold State.unpublishTrack
  split
  · exact (h.removePublication sid).1
  · exact h

theorem foldl_unpublishTrack (sids : List TrackSid) (h : Told s) (hfresh : Fresh s) :
    Told (sids.foldl unpublishTrack s) ∧ Fresh (sids.foldl unpublishTrack s) := by
  induction sids generalizing s with
  | nil => exact ⟨h, hfresh⟩
  | cons sid sids ih =>
    refine ih (h.unpublishTrack sid) ?_
    unfold unpublishTrack
    split
    · exact (h.removePublication sid).2
    · exact hfresh

theorem mem_noLongerValid (s : State) (infos : List TrackInfo) (cs : List ℕ) (sid : TrackSid) :
    sid ∈ s.noLongerValid infos cs ↔
      (lookup sid s.tracks.trackPublications).isSome = true ∧
        sid ∉ infos.map TrackInfo.sid := by
  unfold noLongerValid
  rw [List.mem_filter, decide_eq_true_eq, List.mem_map, Option.isSome_iff_exists]
  apply and_congr_left
  intro _
  constructor
  · intro hex
    obtain ⟨entry, hentry, hsid⟩ := hex
    exact ⟨entry.2, hsid ▸ (mem_inOrder _ cs _ _).mp hentry⟩
  · intro hex
    obtain ⟨k, hk⟩ := hex
    exact ⟨(sid, k), (mem_inOrder _ cs _ _).mpr hk, rfl⟩

/-- After the information of a participant the status is right if a publication was removed, or else
if the updates after the last new track do not matter. -/
theorem updateInfo_fresh_iff (h : Told s) (hfresh : Fresh s) (infos : List TrackInfo)
    (cs : List ℕ) :
    Told (s.updateInfo infos cs) ∧
      (Fresh (s.updateInfo infos cs) ↔
        s.isDataEncrypted = some false ∨
          (∃ sid, (lookup sid s.tracks.trackPublications).isSome = true ∧
            sid ∉ infos.map TrackInfo.sid) ∨
          Settled s.tracks infos) := by
  obtain ⟨htold, hbase, htracks, hdata⟩ := foldl_updateTrack (t := s.tracks) infos h hfresh
  have hremoved : (∃ sid, (lookup sid s.tracks.trackPublications).isSome = true ∧
      sid ∉ infos.map TrackInfo.sid) ↔
        ∃ sid, sid ∈ (infos.foldl updateTrack s).noLongerValid infos cs := by
    refine exists_congr fun sid => ?_
    rw [mem_noLongerValid, htracks]
    apply and_congr_left
    intro hnot
    rw [lookup_settle infos _ hnot]
  rw [hremoved]
  unfold updateInfo
  dsimp only
  cases hkeys : (infos.foldl updateTrack s).noLongerValid infos cs with
  | nil =>
    refine ⟨htold, ?_⟩
    have hnone : ¬ ∃ sid : TrackSid, sid ∈ ([] : List TrackSid) := by
      intro hex
      obtain ⟨sid, hsid⟩ := hex
      cases hsid
    rw [or_iff_right hnone, List.foldl_nil, hbase.fresh_iff, htracks, hdata]
    rfl
  | cons sid sids =>
    have hthere : sid ∈ (infos.foldl updateTrack s).noLongerValid infos cs := by
      rw [hkeys]
      exact List.mem_cons_self
    obtain ⟨k, hk⟩ := Option.isSome_iff_exists.mp
      ((mem_noLongerValid _ infos cs sid).mp hthere).1
    have hfirst : (infos.foldl updateTrack s).unpublishTrack sid =
        (infos.foldl updateTrack s).removePublication sid := by
      unfold unpublishTrack
      rw [hk]
    rw [List.foldl_cons, hfirst]
    obtain ⟨htold', hfresh'⟩ := htold.removePublication sid
    obtain ⟨hall, hright⟩ := foldl_unpublishTrack sids htold' hfresh'
    exact ⟨hall, iff_of_true hright (.inr (.inl ⟨sid, List.mem_cons_self⟩))⟩

/-! ## Runs -/

/-- What is told holds after every operation, and the status is right after the harmless ones. -/
theorem step_fresh_iff {s' : State} {a : Action} (h : Told s) (hfresh : Fresh s)
    (hstep : step s a = some s') : Told s' ∧ (Fresh s' ↔ Harmless s a s') := by
  cases a with
  | newPublication info =>
    rw [step, Option.some.injEq] at hstep
    subst hstep
    obtain ⟨htold, hright⟩ := h.newPublication info
    exact ⟨htold, iff_of_true hright trivial⟩
  | addPublication k =>
    obtain ⟨info, -, hstep⟩ := Option.bind_eq_some_iff.mp hstep
    obtain rfl := Option.some.inj hstep
    obtain ⟨htold, hright⟩ := h.addPublication k info.sid
    exact ⟨htold, iff_of_true hright trivial⟩
  | removePublication sid =>
    rw [step, Option.some.injEq] at hstep
    subst hstep
    obtain ⟨htold, hright⟩ := h.removePublication sid
    exact ⟨htold, iff_of_true hright trivial⟩
  | updatePublication k newInfo =>
    obtain ⟨info, hinfo, hstep⟩ := Option.bind_eq_some_iff.mp hstep
    obtain rfl := Option.some.inj hstep
    have hlt := (List.getElem?_eq_some_iff.mp hinfo).1
    refine ⟨h.withTracks _, ?_⟩
    have hbefore : EvaluatedAt s.tracks (s.updatePublication k newInfo) := hfresh
    rw [hbefore.fresh_iff]
    show _ ∨ s.tracks.encrypted = (s.tracks.set k newInfo).encrypted ↔ _
    rw [encrypted_set_iff s.tracks hlt newInfo]
    rfl
  | updateDataEncryptionStatus isEncrypted =>
    rw [step, Option.some.injEq] at hstep
    subst hstep
    obtain ⟨htold, hright⟩ := h.dataMessage hfresh isEncrypted
    exact ⟨htold, iff_of_true hright trivial⟩
  | updateInfo infos cs =>
    rw [step, Option.ite_none_right_eq_some] at hstep
    obtain rfl := Option.some.inj hstep.2
    exact updateInfo_fresh_iff h hfresh infos cs

/-- In every state of a run the status is truthful and the events alternate, if and only if no
update of publications that matters to the status stays without an evaluation. -/
theorem truthful_iff_eachStep (remote : Bool) (run : List Action) :
    Throughout step Truthful (State.new remote) run ↔
      EachStep step Harmless (State.new remote) run := by
  refine throughout_iff_eachStep (I := fun s => Told s ∧ Fresh s) ?_ ?_ ⟨told_new remote, rfl⟩ run
  · intro s h
    exact h.1.truthful_iff_fresh.mpr h.2
  · intro s a s' h hstep
    obtain ⟨htold, hiff⟩ := step_fresh_iff h.1 h.2 hstep
    by_cases hharmless : Harmless s a s'
    · exact .inl ⟨hharmless, htold, hiff.mpr hharmless⟩
    · refine .inr ⟨hharmless, fun htrue => hharmless ?_⟩
      exact hiff.mp (htold.truthful_iff_fresh.mp htrue)

/-- A track of an audio publication. -/
def trackSid : TrackSid := ⟨"TR_a", by decide⟩

/-- A remote participant that publishes an encrypted track, and then sends it without encryption. -/
def encryptionLost : List Action :=
  [.updateInfo [⟨trackSid, .gcm⟩] [], .updateInfo [⟨trackSid, .none⟩] []]

/-- The participant is still said to be encrypted. -/
theorem encryptionLost_unnoticed : ¬ Throughout step Truthful (State.new true) encryptionLost := by
  intro hall
  have hexec : ∃ s, exec step (new true) encryptionLost = some s ∧ s.isEncrypted = true ∧
      lookup trackSid s.tracks.trackPublications = some 0 ∧
      s.tracks.encryptionType 0 = .none := ⟨_, rfl, by decide, by decide, by decide⟩
  obtain ⟨s, hexec, hencrypted, hlookup, hnone⟩ := hexec
  have htrue := hall encryptionLost [] s (List.append_nil _).symm hexec
  exact (htrue.status.mp hencrypted).2.1 trackSid 0 hlookup hnone

end LiveKit.EncryptionStatus
