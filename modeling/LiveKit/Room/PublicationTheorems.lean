import LiveKit.Lib.Switch
import LiveKit.Room.Publications

/-!
# The publications mirror the server

`UpdateInv` says at every point of an update how far the map is from the information, and
`PubInv.step` that a task leaves it as it is when the publication that it adds is still in the map.
The publication of a task that comes too late is added to the map again, which is excluded in
`mirrors`.
-/

namespace LiveKit.Publications

open Record RemoteTrackPublication AList List Option State TransitionSystem

/-! ## What is promised -/

/-- The track is in the information. -/
def Listed (tracks : List TrackInfo) (sid : TrackSid) : Prop :=
  sid.value ∈ tracks.map TrackInfo.sid

/-- No update is being processed. -/
def Point.Quiet : Point → Prop
  | .idle => True
  | .panicked => True
  | _ => False

structure Mirrors (records : List Record) (s : State) : Prop where
  /-- The publications are the tracks of the last update. -/
  publications : s.update.Quiet → ∀ sid, sid ∈ s.trackPublications ↔ Listed (lastTracks records) sid
  /-- Each track is published and unpublished in turn. -/
  alternates : ∀ sid, ∃ published,
    Switches false (records.filterMap (Record.published sid)) published

/-- No publication is brought back by a task: those in the map were there before, under the same
track. -/
def NoneBroughtBack (s : State) (a : Action) (s' : State) : Prop :=
  ∀ i, a = .addPublication i → ∀ sid h, lookup sid s'.trackPublications = some h →
    lookup sid s.trackPublications = some h

/-- The track has a `sid` and a kind that an update can unwrap. -/
def Understood (info : TrackInfo) : Prop :=
  TrackSid.tryFrom info.sid ≠ none ∧ TrackKind.tryFrom info.type ≠ none

/-- The step is no update that cannot be unwrapped, and no task that adds a publication after it has
been removed from the map, be it that another one is there for the track by now. -/
def InTime (s : State) : Action → State → Prop
  | .updateInfo tracks, _ => ∀ info ∈ tracks, Understood info
  | .addPublication i, _ =>
    ∀ task h p, s.tasks[i]? = some task → task.point = .found h → s.handles[h]? = some p →
      p.kind = task.mediaTrack → lookup p.sid s.trackPublications = some h
  | _, _ => True

/-! ## The publications by their numbers -/

/-- The publication with the number is for the track. -/
def State.SidAt (s : State) (h : ℕ) (sid : TrackSid) : Prop :=
  ∃ p, s.handles[h]? = some p ∧ p.sid = sid

/-- The publications are for the tracks that they were for. -/
def SameSids (s s' : State) : Prop := ∀ h sid, s.SidAt h sid → s'.SidAt h sid

theorem SameSids.refl (s : State) : SameSids s s := fun _ _ hsid => hsid

variable {p : RemoteTrackPublication} {s s' : State}

variable {h : ℕ} {m : AssocMap TrackSid ℕ} {rest : List TrackInfo}

theorem sameSids_set (p' : RemoteTrackPublication) (hp : s.handles[h]? = some p)
    (hhandles : s'.handles = s.handles.set h p') (hsid : p'.sid = p.sid) : SameSids s s' := by
  intro k sid hk
  obtain ⟨q, hq, hqsid⟩ := hk
  unfold SidAt
  rw [hhandles, Components.getElem?_set hp]
  by_cases hkh : k = h
  · rw [if_pos hkh]
    rw [hkh, hp, some.injEq] at hq
    exact ⟨p', rfl, by rw [hsid, hq, hqsid]⟩
  · rw [if_neg hkh]
    exact ⟨q, hq, hqsid⟩

variable {sid : TrackSid}

theorem mem_of_lookup (hlookup : lookup sid m = some h) :
    sid ∈ m :=
  lookup_isSome.mp (by rw [hlookup]; rfl)

theorem not_mem_of_lookup (hlookup : lookup sid m = none) :
    sid ∉ m :=
  lookup_eq_none.mp hlookup

/-! ## The invariant -/

/-- How far the map is from the tracks of the last update. -/
def UpdateInv (last : List TrackInfo) (s : State) : Prop :=
  match s.update with
  | .idle => ∀ sid, sid ∈ s.trackPublications ↔ Listed last sid
  | .tracks rest validTracks =>
    (∀ info ∈ rest, Understood info) ∧
      (∀ sid, Listed last sid ↔ sid ∈ validTracks ∨ Listed rest sid) ∧
      ∀ sid ∈ validTracks, sid ∈ s.trackPublications
  | .inserting p rest validTracks =>
    (∀ info ∈ rest, Understood info) ∧ p.sid ∉ s.trackPublications ∧
      (∀ sid, Listed last sid ↔ sid ∈ p.sid :: validTracks ∨ Listed rest sid) ∧
      ∀ sid ∈ validTracks, sid ∈ s.trackPublications
  | .publishing h sid₀ rest validTracks =>
    (∀ info ∈ rest, Understood info) ∧ s.SidAt h sid₀ ∧
      (∀ sid, Listed last sid ↔ sid ∈ sid₀ :: validTracks ∨ Listed rest sid) ∧
      ∀ sid ∈ sid₀ :: validTracks, sid ∈ s.trackPublications
  | .keys rest validTracks =>
    (∀ sid, Listed last sid ↔ sid ∈ validTracks) ∧
      (∀ sid ∈ validTracks, sid ∈ s.trackPublications) ∧
      ∀ sid ∈ s.trackPublications, sid ∈ validTracks ∨ sid ∈ rest
  | .unpublishing h sid₀ rest validTracks | .removing h sid₀ rest validTracks =>
    s.SidAt h sid₀ ∧ sid₀ ∉ validTracks ∧ sid₀ ∈ s.trackPublications ∧
      (∀ sid, Listed last sid ↔ sid ∈ validTracks) ∧
      (∀ sid ∈ validTracks, sid ∈ s.trackPublications) ∧
      ∀ sid ∈ s.trackPublications, sid ∈ validTracks ∨ sid ∈ sid₀ :: rest
  | .removed h sid₀ rest validTracks =>
    s.SidAt h sid₀ ∧ sid₀ ∉ s.trackPublications ∧
      (∀ sid, Listed last sid ↔ sid ∈ validTracks) ∧
      (∀ sid ∈ validTracks, sid ∈ s.trackPublications) ∧
      ∀ sid ∈ s.trackPublications, sid ∈ validTracks ∨ sid ∈ rest
  | .panicked => False

/-- Whether the room has been told that the track is published, and not that it is not. -/
def State.told (s : State) (sid : TrackSid) : Bool :=
  match s.update with
  | .publishing _ sid₀ _ _ => sid ≠ sid₀ ∧ sid ∈ s.trackPublications
  | .removed _ sid₀ _ _ => sid = sid₀ ∨ sid ∈ s.trackPublications
  | _ => sid ∈ s.trackPublications

structure PubInv (records : List Record) (s : State) : Prop where
  handles : ∀ sid h, AList.lookup sid s.trackPublications = some h → s.SidAt h sid
  inserted : ∀ task ∈ s.tasks, ∀ h track, task.point = .inserted h track → s.SidAt h track.sid
  update : UpdateInv (lastTracks records) s
  told : ∀ sid, Switches false (records.filterMap (Record.published sid)) (s.told sid)

theorem pubInv_new : PubInv [] State.new where
  handles := fun _ _ hlookup => by cases hlookup
  inserted := fun _ hmem => by cases hmem
  update := fun sid => ⟨nofun, nofun⟩
  told := fun _ => rfl

theorem lastTracks_events (records : List Record) (events : List Event) :
    lastTracks (records ++ events.map event) = lastTracks records := by
  unfold lastTracks
  rw [foldl_append]
  induction events with
  | nil => rfl
  | cons event events ih => exact ih

theorem published_events (records : List Record) (events : List Event) (sid : TrackSid) :
    (records ++ events.map event).filterMap (published sid) =
      records.filterMap (published sid) ++ events.filterMap (Event.published sid) := by
  rw [filterMap_append, filterMap_map]
  rfl

/-- The events say nothing about what is published. -/
def QuietEvents (events : List Event) : Prop :=
  ∀ event ∈ events, ∀ sid, event.published sid = none

theorem QuietEvents.nil : QuietEvents [] := fun _ hmem => by cases hmem

variable {events : List Event}

theorem QuietEvents.filterMap (h : QuietEvents events) (sid : TrackSid) :
    events.filterMap (Event.published sid) = [] :=
  filterMap_eq_nil_iff.mpr fun event hmem => h event hmem sid

variable {records : List Record}

/-- What a task does to the map and the publications leaves the update where it is. -/
theorem PubInv.frame (h : PubInv records s) (s' : State) (hupdate : s'.update = s.update)
    (hmem : ∀ sid, sid ∈ s'.trackPublications ↔ sid ∈ s.trackPublications) (hsids : SameSids s s')
    (hhandles : ∀ sid k, lookup sid s'.trackPublications = some k → s'.SidAt k sid)
    (hinserted : ∀ task ∈ s'.tasks, ∀ k track,
      task.point = .inserted k track → s'.SidAt k track.sid) (hquiet : QuietEvents events) :
    PubInv (records ++ events.map event) s' := by
  refine ⟨hhandles, hinserted, ?_, fun sid => ?_⟩
  · rw [lastTracks_events]
    have hinv := h.update
    unfold UpdateInv at hinv ⊢
    rw [hupdate]
    cases hpoint : s.update with
    | idle | tracks | inserting | keys => simpa only [hpoint, hmem] using hinv
    | publishing k sid₀ rest validTracks =>
      simp only [hpoint] at hinv
      simp only [hmem]
      exact ⟨hinv.1, hsids _ _ hinv.2.1, hinv.2.2⟩
    | unpublishing | removing | removed =>
      simp only [hpoint] at hinv
      simp only [hmem]
      exact ⟨hsids _ _ hinv.1, hinv.2⟩
    | panicked =>
      rw [hpoint] at hinv
      exact hinv
  · rw [published_events, hquiet.filterMap, append_nil]
    have htold : s'.told sid = s.told sid := by
      unfold State.told
      rw [hupdate]
      simp only [hmem]
    rw [htold]
    exact h.told sid

/-! ## The steps of a task -/

variable {a : Action}

theorem not_updateInfo_record (hturn : s.turn a = some (s', events))
    (ha : ∀ tracks, a ≠ .updateInfo tracks) : record s a = events.map event := by
  unfold record
  rw [hturn]
  cases a with
  | updateInfo tracks => exact absurd rfl (ha tracks)
  | _ => rfl

theorem quiet_setTrack (p : RemoteTrackPublication) (track : Option RemoteTrack) :
    QuietEvents (p.setTrack track).2 := by
  intro event hmem sid
  unfold setTrack at hmem
  dsimp only at hmem
  split at hmem
  · rcases mem_append.mp hmem with hmem | hmem
    · obtain ⟨old, -, rfl⟩ := map_eq_some_iff.mp (mem_toList.mp hmem)
      rfl
    · obtain ⟨new, -, rfl⟩ := map_eq_some_iff.mp (mem_toList.mp hmem)
      rfl
  · cases hmem

variable {info : TrackInfo}

theorem quiet_updateInfo {p' : RemoteTrackPublication}
    (h : p.updateInfo sid info = some (p', events)) : p'.sid = sid ∧ QuietEvents events := by
  unfold updateInfo at h
  obtain ⟨kind, -, heq⟩ := map_eq_some_iff.mp h
  cases heq
  refine ⟨rfl, fun event hmem sid' => ?_⟩
  split at hmem
  · rw [mem_singleton.mp hmem]
    split <;> rfl
  · cases hmem

/-- A task goes on, and leaves the map and the publications as they are. -/
theorem PubInv.goto (h : PubInv records s) (i : ℕ) {task : Attach} {point : AttachPoint}
    (hquiet : QuietEvents events)
    (hpoint : ∀ k track, point = .inserted k track → s.SidAt k track.sid) :
    PubInv (records ++ events.map event) (s.goto i task point) := by
  refine h.frame _ rfl (fun _ => Iff.rfl) (SameSids.refl s) h.handles ?_ hquiet
  intro task' hmem k track hinserted
  rcases mem_or_eq_of_mem_set hmem with hmem | rfl
  · exact h.inserted task' hmem k track hinserted
  · exact hpoint k track hinserted

variable {k : ℕ}

/-- A publication that is in the map is changed, or one that is in no map. -/
theorem PubInv.put (h : PubInv records s) (p' : RemoteTrackPublication)
    (hp : s.handles[k]? = some p) (hsid : p'.sid = p.sid) : PubInv records (s.put k p') := by
  have hsame : SameSids s (s.put k p') := sameSids_set p' hp rfl hsid
  have hnext := h.frame (s.put k p') rfl (fun _ => Iff.rfl) hsame
    (fun sid j hlookup => hsame _ _ (h.handles sid j hlookup))
    (fun task hmem j track hpoint => hsame _ _ (h.inserted task hmem j track hpoint))
    QuietEvents.nil
  rwa [map_nil, append_nil] at hnext

/-- A publication whose track is in the map is added. -/
theorem PubInv.addPublication (h : PubInv records s) (hp : s.handles[k]? = some p)
    (hmem : p.sid ∈ s.trackPublications) : PubInv records (s.addPublication k p) := by
  have hsame : SameSids s (s.addPublication k p) :=
    sameSids_set { p with registered := true } hp rfl rfl
  have hnext := h.frame (s.addPublication k p) rfl ?_ hsame ?_
    (fun task hmem j track hpoint => hsame _ _ (h.inserted task hmem j track hpoint))
    QuietEvents.nil
  · rwa [map_nil, append_nil] at hnext
  · intro sid
    show sid ∈ insert p.sid k s.trackPublications ↔ _
    rw [mem_insert]
    constructor
    · rintro (rfl | hsid)
      · exact hmem
      · exact hsid
    · exact .inr
  · intro sid j hlookup
    rcases AssocMap.of_lookup_insert hlookup with ⟨rfl, rfl⟩ | ⟨-, hlookup⟩
    · exact hsame _ _ ⟨p, hp, rfl⟩
    · exact hsame _ _ (h.handles sid j hlookup)

/-- Every step of a task that is in time keeps the invariant. -/
theorem PubInv.task (h : PubInv records s) (hturn : s.turn a = some (s', events))
    (hintime : InTime s a s')
    (ha : a ≠ .proceed ∧ (∀ keys, a ≠ .copy keys) ∧ ∀ tracks, a ≠ .updateInfo tracks) :
    PubInv (records ++ events.map event) s' := by
  cases a with
  | updateInfo tracks => exact absurd rfl (ha.2.2 tracks)
  | proceed => exact absurd rfl ha.1
  | copy keys => exact absurd rfl (ha.2.1 keys)
  | addSubscribedMediaTrack sid mediaTrack =>
    cases hturn
    refine h.frame _ rfl (fun _ => Iff.rfl) (SameSids.refl s) h.handles ?_ QuietEvents.nil
    intro task hmem k track hpoint
    rcases mem_append.mp hmem with hmem | hmem
    · exact h.inserted task hmem k track hpoint
    · rw [mem_singleton.mp hmem] at hpoint
      cases hpoint
  | poll i =>
    obtain ⟨task, htask, hturn⟩ := bind_eq_some_iff.mp hturn
    unfold State.poll at hturn
    split at hturn
    · obtain ⟨k, -, heq⟩ := map_eq_some_iff.mp hturn
      cases heq
      exact h.goto i QuietEvents.nil fun _ _ hbad => by cases hbad
    · cases hturn
  | timeout i =>
    obtain ⟨task, htask, hturn⟩ := bind_eq_some_iff.mp hturn
    unfold State.timeout at hturn
    split at hturn
    · cases hturn
      refine h.goto i (fun event hmem sid => ?_) fun _ _ hbad => by cases hbad
      rw [mem_singleton.mp hmem]
      rfl
    · cases hturn
  | addPublication i =>
    obtain ⟨task, htask, hturn⟩ := bind_eq_some_iff.mp hturn
    unfold State.addFound at hturn
    split at hturn
    · next k hpoint =>
      obtain ⟨p, hp, heq⟩ := map_eq_some_iff.mp hturn
      split at heq
      · next hkind =>
        cases heq
        -- in time: the map still has the handle that the task found
        have hthere := hintime task k p htask hpoint hp hkind
        have hadded := h.addPublication hp (mem_of_lookup hthere)
        refine hadded.goto i QuietEvents.nil fun j track hinserted => ?_
        cases hinserted
        refine ⟨{ p with registered := true }, ?_, rfl⟩
        show (s.handles.set k _)[k]? = _
        rw [Components.getElem?_set hp, if_pos rfl]
      · cases heq
        exact h.goto i QuietEvents.nil fun _ _ hbad => by cases hbad
    · cases hturn
  | setTrack i =>
    obtain ⟨task, htask, hturn⟩ := bind_eq_some_iff.mp hturn
    unfold State.attach at hturn
    split at hturn
    · next k track hpoint =>
      obtain ⟨p, hp, heq⟩ := map_eq_some_iff.mp hturn
      cases heq
      -- the track is of the publication it was inserted for
      obtain ⟨q, hq, hqsid⟩ := h.inserted task (mem_of_getElem? htask) k track hpoint
      rw [hp, some.injEq] at hq
      have hput := h.put (p.setTrack (some track)).1 hp (by
        show track.sid = p.sid
        rw [hq, hqsid])
      exact hput.goto i (quiet_setTrack p _) fun _ _ hbad => by cases hbad
    · cases hturn

/-! ## The steps of an update -/

variable {sid₀ : TrackSid}

theorem listed_cons (h : TrackSid.tryFrom info.sid = some sid₀) :
    Listed (info :: rest) sid ↔ sid = sid₀ ∨ Listed rest sid := by
  unfold Listed
  rw [map_cons, mem_cons]
  have hvalue : info.sid = sid₀.value := by
    unfold TrackSid.tryFrom at h
    split at h
    · rw [← some.inj h]
    · cases h
  rw [hvalue]
  constructor
  · rintro (heq | hrest)
    · exact .inl (by cases sid; cases sid₀; congr)
    · exact .inr hrest
  · rintro (rfl | hrest)
    · exact .inl rfl
    · exact .inr hrest

/-- The update comes to the next point, and nothing else is changed. -/
theorem PubInv.turn (h : PubInv records s) {point : Point} (events : List Event)
    (hupdate : UpdateInv (lastTracks records) { s with update := point })
    (htold : ∀ sid, Switches (s.told sid) (events.filterMap (Event.published sid))
      (State.told { s with update := point } sid)) :
    PubInv (records ++ events.map event) { s with update := point } where
  handles := h.handles
  inserted := h.inserted
  update := by
    rw [lastTracks_events]
    exact hupdate
  told := by
    intro sid
    rw [published_events]
    exact (h.told sid).append (htold sid)

variable {validTracks : List TrackSid}

/-- The turn for a track whose information can be unwrapped. -/
theorem PubInv.trackTurn (h : PubInv records s)
    (hpoint : s.update = .tracks (info :: rest) validTracks) :
    PubInv (records ++ (s.trackTurn info rest validTracks).2.map event)
      (s.trackTurn info rest validTracks).1 := by
  have hinv := h.update
  unfold UpdateInv at hinv
  rw [hpoint] at hinv
  obtain ⟨hunderstood, hlisted, hvalid⟩ := hinv
  have hinfo := hunderstood info mem_cons_self
  have hrest : ∀ info ∈ rest, Understood info :=
    fun info hmem => hunderstood info (mem_cons_of_mem _ hmem)
  have htold : ∀ sid, s.told sid = decide (sid ∈ s.trackPublications) := by
    intro sid
    unfold State.told
    rw [hpoint]
  obtain ⟨sid₀, hsid₀⟩ := ne_none_iff_exists'.mp hinfo.1
  obtain ⟨kind, hkind⟩ := ne_none_iff_exists'.mp hinfo.2
  have hlisted' : ∀ sid, Listed (lastTracks records) sid ↔
      sid ∈ sid₀ :: validTracks ∨ Listed rest sid := by
    intro sid
    rw [hlisted sid, listed_cons hsid₀, mem_cons]
    tauto
  unfold State.trackTurn
  rw [hsid₀]
  dsimp only
  cases hlookup : lookup sid₀ s.trackPublications with
  | some k =>
    obtain ⟨p, hp, hpsid⟩ := h.handles sid₀ k hlookup
    -- a publication that is there is valid now, and gets the new information
    cases hnew : p.updateInfo sid₀ info with
    | none =>
      rw [updateInfo, hkind] at hnew
      cases hnew
    | some result =>
      obtain ⟨p', events⟩ := result
      obtain ⟨hsid', hquiet⟩ := quiet_updateInfo hnew
      simp only [hp, bind_some, hnew]
      have hput := h.put _ hp (hsid'.trans hpsid.symm)
      refine hput.turn _ ⟨hrest, hlisted', ?_⟩ fun sid => ?_
      · intro sid hmem
        rcases mem_cons.mp hmem with rfl | hmem
        · exact mem_of_lookup hlookup
        · exact hvalid sid hmem
      · rw [hquiet.filterMap]
        exact htold sid
  -- one that is not there is to be inserted in the next section
  | none =>
    have hnew : new sid₀ info =
        some ⟨sid₀, info.name, kind, info.muted, none, false⟩ := by
      rw [RemoteTrackPublication.new, hkind]
      rfl
    simp only [hnew]
    exact h.turn [] ⟨hrest, not_mem_of_lookup hlookup, hlisted', hvalid⟩ htold

variable {rest : List TrackSid}

/-- The turn for a key of the copy of the map. -/
theorem PubInv.keyTurn (h : PubInv records s)
    (hpoint : s.update = .keys (sid₀ :: rest) validTracks) :
    PubInv records (s.keyTurn sid₀ rest validTracks) := by
  have hinv := h.update
  unfold UpdateInv at hinv
  rw [hpoint] at hinv
  obtain ⟨hlisted, hvalid, hkeys⟩ := hinv
  have htold : ∀ sid, s.told sid = decide (sid ∈ s.trackPublications) := by
    intro sid
    unfold State.told
    rw [hpoint]
  rw [← append_nil records]
  unfold State.keyTurn
  by_cases hmem : sid₀ ∈ validTracks
  · rw [if_pos hmem]
    refine h.turn [] ⟨hlisted, hvalid, fun sid hsid => ?_⟩ htold
    rcases hkeys sid hsid with hsid | hsid
    · exact .inl hsid
    · rcases mem_cons.mp hsid with rfl | hsid
      · exact .inl hmem
      · exact .inr hsid
  · rw [if_neg hmem]
    cases hlookup : lookup sid₀ s.trackPublications with
    | some k =>
      exact h.turn [] ⟨h.handles sid₀ k hlookup, hmem, mem_of_lookup hlookup, hlisted,
        hvalid, hkeys⟩ htold
    -- the key was copied, but the publication has gone since
    | none =>
      refine h.turn [] ⟨hlisted, hvalid, fun sid hsid => ?_⟩ htold
      refine (hkeys sid hsid).imp_right fun hcons => ?_
      rcases mem_cons.mp hcons with rfl | hcons
      · exact absurd hsid (not_mem_of_lookup hlookup)
      · exact hcons

/-- A new publication is inserted. -/
theorem PubInv.insertNew (h : PubInv records s) {rest : List TrackInfo}
    (hpoint : s.update = .inserting p rest validTracks) :
    PubInv records { { s with handles := s.handles ++ [p] }.addPublication s.handles.length p with
      update := .publishing s.handles.length p.sid rest validTracks } := by
  have hinv := h.update
  unfold UpdateInv at hinv
  rw [hpoint] at hinv
  obtain ⟨hunderstood, hnew, hlisted, hvalid⟩ := hinv
  have hget : ∀ k : ℕ, ((s.handles ++ [p]).set s.handles.length { p with registered := true })[k]? =
      if k = s.handles.length then some { p with registered := true } else s.handles[k]? := by
    intro k
    rw [Components.getElem?_set getElem?_concat_length, Components.getElem?_concat]
    split <;> rfl
  have hkeep : ∀ k sid, s.SidAt k sid → ∃ q,
      ((s.handles ++ [p]).set s.handles.length { p with registered := true })[k]? = some q ∧
        q.sid = sid := by
    intro k sid hk
    obtain ⟨q, hq, hqsid⟩ := hk
    exact ⟨q, by rw [hget, if_neg (Components.ne_length hq), hq], hqsid⟩
  -- the new handle is the last one, and the map names it
  have hself : ∃ q, ((s.handles ++ [p]).set s.handles.length
      { p with registered := true })[s.handles.length]? = some q ∧ q.sid = p.sid :=
    ⟨{ p with registered := true }, by rw [hget, if_pos rfl], rfl⟩
  refine ⟨?_, ?_, ⟨hunderstood, hself, hlisted, ?_⟩, fun sid => ?_⟩
  · intro sid k hlookup
    rcases AssocMap.of_lookup_insert hlookup with ⟨rfl, rfl⟩ | ⟨-, hlookup⟩
    · exact hself
    · exact hkeep k sid (h.handles sid k hlookup)
  · intro task hmem k track hinserted
    exact hkeep k track.sid (h.inserted task hmem k track hinserted)
  · intro sid hmem
    show sid ∈ insert p.sid s.handles.length s.trackPublications
    rw [mem_insert]
    rcases mem_cons.mp hmem with rfl | hmem
    · exact .inl rfl
    · exact .inr (hvalid sid hmem)
  · have htold : State.told
        { { s with handles := s.handles ++ [p] }.addPublication s.handles.length p with
          update := .publishing s.handles.length p.sid rest validTracks } sid = s.told sid := by
      unfold State.told
      rw [hpoint]
      apply decide_eq_decide.mpr
      show sid ≠ p.sid ∧ sid ∈ insert p.sid s.handles.length s.trackPublications ↔ _
      rw [mem_insert]
      constructor
      · rintro ⟨hne, heq | hmem⟩
        · exact absurd heq hne
        · exact hmem
      · intro hmem
        exact ⟨fun heq => hnew (heq ▸ hmem), .inr hmem⟩
    rw [htold]
    exact h.told sid

/-- The room is told of a new publication. -/
theorem PubInv.publish (h : PubInv records s) {rest : List TrackInfo}
    (hpoint : s.update = .publishing k sid₀ rest validTracks) :
    PubInv (records ++ ((s.handles[k]?.map Event.trackPublished).toList).map event)
      { s with update := .tracks rest (sid₀ :: validTracks) } := by
  have hinv := h.update
  unfold UpdateInv at hinv
  rw [hpoint] at hinv
  obtain ⟨hunderstood, ⟨p, hp, hsid⟩, hlisted, hvalid⟩ := hinv
  refine h.turn _ ⟨hunderstood, hlisted, hvalid⟩ fun sid => ?_
  have htold : s.told sid = decide (sid ≠ sid₀ ∧ sid ∈ s.trackPublications) := by
    unfold State.told
    rw [hpoint]
  -- between the two sections the map is ahead of the room by this one
  have htold' : State.told { s with update := .tracks rest (sid₀ :: validTracks) } sid =
      decide (sid ∈ s.trackPublications) := rfl
  rw [htold, htold', hp]
  show Switches _ (List.filterMap _ [Event.trackPublished p]) _
  by_cases heq : sid = sid₀
  · have hevent : (Event.trackPublished p).published sid = some true := if_pos (hsid.trans heq.symm)
    rw [filterMap_cons_some hevent, heq, decide_eq_true (hvalid sid₀ mem_cons_self),
      decide_eq_false (fun hboth => hboth.1 rfl)]
    exact Switches.single (by decide)
  · have hevent : (Event.trackPublished p).published sid = none :=
      if_neg fun hp' => heq (hp'.symm.trans hsid)
    rw [filterMap_cons_none hevent]
    exact decide_eq_decide.mpr ⟨And.right, fun hmem => ⟨heq, hmem⟩⟩

/-- The track is removed from a publication that is not valid. -/
theorem PubInv.unpublish (h : PubInv records s)
    (hpoint : s.update = .unpublishing k sid₀ rest validTracks) {p' : RemoteTrackPublication}
    (hp : s.handles[k]? = some p) (hsid : p'.sid = p.sid) (hquiet : QuietEvents events) :
    PubInv (records ++ events.map event)
      { s.put k p' with update := .removing k sid₀ rest validTracks } := by
  have hput := h.put _ hp hsid
  have hinv := hput.update
  unfold UpdateInv at hinv
  have hpoint' : (s.put k p').update = .unpublishing k sid₀ rest validTracks := hpoint
  rw [hpoint'] at hinv
  refine hput.turn _ hinv fun sid => ?_
  rw [hquiet.filterMap]
  unfold State.told
  rw [hpoint']
  exact Switches.refl _

/-- A publication that is not valid is removed from the map. -/
theorem PubInv.remove (h : PubInv records s)
    (hpoint : s.update = .removing k sid₀ rest validTracks) :
    PubInv records
      { s.removePublication sid₀ with update := .removed k sid₀ rest validTracks } := by
  have hinv := h.update
  unfold UpdateInv at hinv
  rw [hpoint] at hinv
  obtain ⟨hsid, hnot, hmem, hlisted, hvalid, hkeys⟩ := hinv
  obtain ⟨j, hj⟩ := isSome_iff_exists.mp (lookup_isSome.mpr hmem)
  obtain ⟨p, hp, hpsid⟩ := h.handles sid₀ j hj
  -- the publication in the map is told to forget its handlers, and is removed
  have hput : PubInv records (s.put j { p with registered := false }) := h.put _ hp rfl
  have heq : s.removePublication sid₀ =
      { s.put j { p with registered := false } with
        trackPublications := erase sid₀ s.trackPublications } := by
    unfold State.removePublication State.put
    rw [hj]
    dsimp only
    rw [Components.modify_eq_set hp]
  have hin : ∀ sid, sid ∈ erase sid₀ s.trackPublications ↔
      sid ≠ sid₀ ∧ sid ∈ s.trackPublications := fun sid => mem_erase
  rw [heq]
  refine ⟨?_, hput.inserted, ⟨?_, ?_, hlisted, ?_, ?_⟩, fun sid => ?_⟩
  · intro sid i hlookup
    exact hput.handles sid i (AssocMap.of_lookup_erase hlookup).2
  · have hinv' := hput.update
    unfold UpdateInv at hinv'
    have hpoint' : (s.put j { p with registered := false }).update =
      .removing k sid₀ rest validTracks := hpoint
    rw [hpoint'] at hinv'
    exact hinv'.1
  · exact fun hbad => ((hin sid₀).mp hbad).1 rfl
  · exact fun sid hsid' => (hin sid).mpr ⟨fun heq => hnot (heq ▸ hsid'), hvalid sid hsid'⟩
  · intro sid hsid'
    obtain ⟨hne, hsid'⟩ := (hin sid).mp hsid'
    refine (hkeys sid hsid').imp_right fun hcons => ?_
    rcases mem_cons.mp hcons with heq | hcons
    · exact absurd heq hne
    · exact hcons
  · have htold : s.told sid = decide (sid ∈ s.trackPublications) := by
      unfold State.told
      rw [hpoint]
    have hsame : (decide (sid = sid₀ ∨ sid ∈ erase sid₀ s.trackPublications)) =
        s.told sid := by
      rw [htold]
      apply decide_eq_decide.mpr
      rw [hin]
      constructor
      · rintro (rfl | ⟨-, hsid'⟩)
        · exact hmem
        · exact hsid'
      · intro hsid'
        by_cases heq : sid = sid₀
        · exact .inl heq
        · exact .inr ⟨heq, hsid'⟩
    show Switches _ _ (decide (sid = sid₀ ∨ sid ∈ erase sid₀ s.trackPublications))
    rw [hsame]
    exact h.told sid

/-- The room is told that a publication has been removed. -/
theorem PubInv.unpublished (h : PubInv records s)
    (hpoint : s.update = .removed k sid₀ rest validTracks) :
    PubInv (records ++ ((s.handles[k]?.map Event.trackUnpublished).toList).map event)
      { s with update := .keys rest validTracks } := by
  have hinv := h.update
  unfold UpdateInv at hinv
  rw [hpoint] at hinv
  obtain ⟨⟨p, hp, hsid⟩, hnot, hlisted, hvalid, hkeys⟩ := hinv
  refine h.turn _ ⟨hlisted, hvalid, hkeys⟩ fun sid => ?_
  have htold : s.told sid = decide (sid = sid₀ ∨ sid ∈ s.trackPublications) := by
    unfold State.told
    rw [hpoint]
  -- between the two sections the room is ahead of the map by this one
  have htold' : State.told { s with update := .keys rest validTracks } sid =
      decide (sid ∈ s.trackPublications) := rfl
  rw [htold, htold', hp]
  show Switches _ (List.filterMap _ [Event.trackUnpublished p]) _
  by_cases heq : sid = sid₀
  · have hevent : (Event.trackUnpublished p).published sid = some false :=
      if_pos (hsid.trans heq.symm)
    rw [filterMap_cons_some hevent, heq, decide_eq_true (.inl rfl), decide_eq_false hnot]
    exact Switches.single (by decide)
  · have hevent : (Event.trackUnpublished p).published sid = none :=
      if_neg fun hp' => heq (hp'.symm.trans hsid)
    rw [filterMap_cons_none hevent]
    exact decide_eq_decide.mpr ⟨fun hor => hor.resolve_left heq, .inr⟩

/-- Every step of an update keeps the invariant. -/
theorem PubInv.proceed (h : PubInv records s) (hturn : s.proceed = some (s', events)) :
    PubInv (records ++ events.map event) s' := by
  unfold State.proceed at hturn
  split at hturn
  · next info rest validTracks hpoint =>
    have heq := some.inj hturn
    have hnext := h.trackTurn hpoint
    rwa [heq] at hnext
  · next p rest validTracks hpoint =>
    cases hturn
    rw [map_nil, append_nil]
    exact h.insertNew hpoint
  · next k sid rest validTracks hpoint =>
    cases hturn
    exact h.publish hpoint
  · next sid rest validTracks hpoint =>
    cases hturn
    rw [map_nil, append_nil]
    exact h.keyTurn hpoint
  · next validTracks hpoint =>
    cases hturn
    have hinv := h.update
    unfold UpdateInv at hinv
    rw [hpoint] at hinv
    obtain ⟨hlisted, hvalid, hkeys⟩ := hinv
    refine h.turn _ (fun sid => ?_) fun sid => ?_
    · rw [hlisted sid]
      exact ⟨fun hmem => (hkeys sid hmem).resolve_right not_mem_nil, hvalid sid⟩
    · unfold State.told
      rw [hpoint]
      exact Switches.refl _
  · next k sid rest validTracks hpoint =>
    cases hp : s.handles[k]? with
    | none =>
      simp only [hp] at hturn
      cases hturn
    | some p =>
      simp only [hp, some.injEq] at hturn
      by_cases htrack : p.track.isSome
      · simp only [htrack, if_true] at hturn
        cases hturn
        exact h.unpublish hpoint hp rfl (quiet_setTrack p none)
      · simp only [htrack, Bool.false_eq_true, if_false] at hturn
        cases hturn
        exact h.unpublish hpoint hp rfl QuietEvents.nil
  · next k sid rest validTracks hpoint =>
    cases hturn
    rw [map_nil, append_nil]
    exact h.remove hpoint
  · next k sid rest validTracks hpoint =>
    cases hturn
    exact h.unpublished hpoint
  · cases hturn

/-- The map is copied. -/
theorem PubInv.copy (h : PubInv records s) {keys : List TrackSid}
    (hpoint : s.update = .tracks [] validTracks) (hperm : keys.Perm s.trackPublications.keys) :
    PubInv records { s with update := .keys keys validTracks } := by
  have hinv := h.update
  unfold UpdateInv at hinv
  rw [hpoint] at hinv
  obtain ⟨-, hlisted, hvalid⟩ := hinv
  rw [← append_nil records]
  refine h.turn [] ⟨fun sid => ?_, hvalid, fun sid hmem => .inr ?_⟩ fun sid => ?_
  · rw [hlisted sid]
    exact ⟨fun hor => hor.resolve_right not_mem_nil, .inl⟩
  · exact hperm.mem_iff.mpr (mem_keys.mpr hmem)
  · unfold State.told
    rw [hpoint]
    exact Switches.refl _

/-- An update comes in. -/
theorem PubInv.start (h : PubInv records s) {tracks : List TrackInfo} (hidle : s.update = .idle)
    (hunderstood : ∀ info ∈ tracks, Understood info) :
    PubInv (records ++ [.info tracks]) { s with update := .tracks tracks [] } := by
  refine ⟨h.handles, h.inserted, ⟨hunderstood, fun sid => ?_, nofun⟩,
    fun sid => ?_⟩
  · have hlast : lastTracks (records ++ [.info tracks]) = tracks := by
      unfold lastTracks
      rw [foldl_append]
      rfl
    rw [hlast]
    exact ⟨.inr, fun hor => hor.resolve_left not_mem_nil⟩
  · have htold : State.told { s with update := .tracks tracks [] } sid = s.told sid := by
      unfold State.told
      rw [hidle]
    rw [filterMap_append, htold]
    show Switches false (_ ++ []) _
    rw [append_nil]
    exact h.told sid

/-- Every step that is in time keeps the invariant. -/
theorem PubInv.step (h : PubInv records s) (hstep : s.step a = some s') (hintime : InTime s a s') :
    PubInv (records ++ record s a) s' := by
  obtain ⟨⟨t, events⟩, hturn, rfl⟩ := map_eq_some_iff.mp hstep
  cases a with
  | updateInfo tracks =>
    simp only [State.turn] at hturn
    split at hturn
    · next hidle =>
      cases hturn
      unfold record
      simp only [State.turn, hidle]
      exact h.start hidle hintime
    · cases hturn
  | proceed =>
    rw [not_updateInfo_record hturn fun _ hbad => by cases hbad]
    exact h.proceed hturn
  | copy keys =>
    rw [not_updateInfo_record hturn fun _ hbad => by cases hbad]
    simp only [State.turn] at hturn
    split at hturn
    · next validTracks hpoint =>
      obtain ⟨hperm, heq⟩ := of_guard hturn
      cases heq
      rw [map_nil, append_nil]
      exact h.copy hpoint (isPerm_iff.mp hperm)
    · cases hturn
  | _ =>
    rw [not_updateInfo_record hturn fun _ hbad => by cases hbad]
    refine h.task hturn hintime ⟨?_, ?_, ?_⟩
    · intro hbad
      cases hbad
    · intro _ hbad
      cases hbad
    · intro _ hbad
      cases hbad

theorem PubInv.mirrors_server (h : PubInv records s) :
    Mirrors records s where
  publications := by
    intro hquiet
    have hinv := h.update
    unfold UpdateInv at hinv
    cases hpoint : s.update with
    | idle =>
      rw [hpoint] at hinv
      exact hinv
    | panicked =>
      rw [hpoint] at hinv
      exact hinv.elim
    | _ =>
      rw [hpoint] at hquiet
      exact hquiet.elim
  alternates := fun sid => ⟨_, h.told sid⟩

/-- A publication that is added in time was in the map. -/
theorem noneBroughtBack_of_inTime (hstep : s.step a = some s') (hintime : InTime s a s') :
    NoneBroughtBack s a s' := by
  rintro i rfl sid h hlookup
  obtain ⟨⟨t, events⟩, hturn, rfl⟩ := map_eq_some_iff.mp hstep
  obtain ⟨task, htask, hturn⟩ := bind_eq_some_iff.mp hturn
  unfold State.addFound at hturn
  split at hturn
  · next k hpoint =>
    obtain ⟨p, hp, heq⟩ := map_eq_some_iff.mp hturn
    split at heq
    · next hkind =>
      cases heq
      rcases AssocMap.of_lookup_insert hlookup with ⟨rfl, rfl⟩ | ⟨-, hlookup⟩
      · -- the task adds what the map has already
        exact hintime task h p htask hpoint hp hkind
      · exact hlookup
    · cases heq
      exact hlookup
  · cases hturn

/-! ## Every run -/

/-- In every run whose steps are all in time, the publications are the tracks of the last update
whenever no update is being processed, the events alternate, and no task brings a publication
back. -/
theorem mirrors (run : List Action) (h : EachStep State.step InTime State.new run) :
    Always State.step record Mirrors State.new run ∧
      EachStep State.step NoneBroughtBack State.new run := by
  have heach : EachStepOn State.step record (fun _ => InTime) [] State.new run :=
    (eachStepOn_iff_eachStep _ _ _).mpr h
  constructor
  · refine always_of_eachStepOn (I := PubInv) (fun _ _ hinv => hinv.mirrors_server) ?_ pubInv_new
      heach
    intro records s a s' hinv hstep hintime
    exact hinv.step hstep hintime
  · refine EachStep.of_invariant (I := fun _ => True) ?_ trivial h
    intro s a _ s' _ hstep hintime
    exact ⟨trivial, noneBroughtBack_of_inTime hstep hintime⟩

/-- A track that is published, and a media track for it. -/
theorem mirrors_attached :
    let run := [.updateInfo [⟨"TR_a", "", .audio, false⟩], .proceed, .proceed, .proceed,
      .addSubscribedMediaTrack ⟨"TR_a", by decide⟩ .audio, .poll 0, .addPublication 0]
    Always State.step record Mirrors State.new run ∧
      EachStep State.step NoneBroughtBack State.new run := by
  apply mirrors
  refine fun s₁ h₁ => ⟨fun info hmem => ?_, fun s₂ h₂ => ⟨trivial, fun s₃ h₃ => ⟨trivial,
    fun s₄ h₄ => ⟨trivial, fun s₅ h₅ => ⟨trivial, fun s₆ h₆ => ⟨trivial,
    fun s₇ h₇ => ⟨?_, trivial⟩⟩⟩⟩⟩⟩⟩
  · rw [mem_singleton.mp hmem]
    exact ⟨by decide, by decide⟩
  · cases h₁
    cases h₂
    cases h₃
    cases h₄
    cases h₅
    cases h₆
    intro task k p htask hpoint hp hkind
    cases htask
    cases hpoint
    cases hp
    rfl

/-- The publication of a media track that comes too late is in the map again. -/
theorem late_track_is_brought_back :
    ∃ run s, exec State.step State.new run = some s ∧ s.update = .idle ∧
      lastTracks (trace State.step record State.new run) = [] ∧
      s.trackPublications.keys.map TrackSid.value = ["TR_a"] ∧
      ¬ Always State.step record Mirrors State.new run := by
  refine ⟨[.updateInfo [⟨"TR_a", "", .audio, false⟩], .proceed, .proceed, .proceed,
    .copy [⟨"TR_a", by decide⟩], .proceed, .proceed,
    .addSubscribedMediaTrack ⟨"TR_a", by decide⟩ .audio, .poll 0,
    .updateInfo [], .copy [⟨"TR_a", by decide⟩], .proceed, .proceed, .proceed, .proceed, .proceed,
    .addPublication 0], _, rfl, rfl, rfl, rfl, ?_⟩
  intro halways
  have hlast := (halways _ [] _ (append_nil _).symm rfl).publications trivial
    ⟨"TR_a", by decide⟩
  have hlisted := hlast.mp (by decide)
  cases hlisted

end LiveKit.Publications
