import LiveKit.Room.LocalPublications

/-!
# Unpublishing

A publication leaves the map before the engine is asked to remove its track. When that fails, or the
track has lost its transceiver, no event says that the publication is gone.
-/

namespace LiveKit.LocalPublications

open LiveKit.Publications (TrackSid)
open State AList Option TransitionSystem

variable {s s' : State} {h : List Event} {sid : TrackSid} {n : ℕ}

/-! ## One call -/

theorem sender_removePublication (s : State) (sid : TrackSid) (n : ℕ) :
    (s.removePublication sid).1.sender n = s.sender n := by
  unfold removePublication
  split
  · rfl
  next m _ =>
    unfold sender
    dsimp only
    rw [List.getElem?_modify]
    cases s.publications[n]? with
    | none => rfl
    | some p => by_cases hnm : m = n <;> simp [hnm]

theorem removePublication_none (hnone : lookup sid s.trackPublications = none) :
    s.removePublication sid = (s, none) := by
  unfold removePublication
  rw [hnone]

theorem removePublication_some (hsome : lookup sid s.trackPublications = some n) :
    s.removePublication sid = ((s.removePublication sid).1, some n) := by
  unfold removePublication
  rw [hsome]

theorem trackPublications_removePublication (s : State) (sid : TrackSid) :
    (s.removePublication sid).1.trackPublications = erase sid s.trackPublications := by
  unfold removePublication
  split
  next hnone =>
    symm
    apply AList.ext
    exact List.kerase_of_notMem_keys (lookup_eq_none.mp hnone)
  · rfl

/-- What is not published is not unpublished. -/
theorem unpublishTrack_none (hnone : lookup sid s.trackPublications = none)
    (removed : Bool) : s.unpublishTrack sid removed = (s, .err, []) := by
  unfold unpublishTrack
  rw [removePublication_none hnone]

section

variable (hsome : lookup sid s.trackPublications = some n)

include hsome

/-- Without a sender the call panics, and the publication is gone. -/
theorem unpublishTrack_panicked (hsender : s.sender n = none) (removed : Bool) :
    s.unpublishTrack sid removed = ((s.removePublication sid).1, .panicked, []) := by
  unfold unpublishTrack
  rw [removePublication_some hsome]
  dsimp only
  rw [sender_removePublication, hsender]

/-- If the engine does not remove the track, the publication is gone without an event. -/
theorem unpublishTrack_err (hsender : s.sender n ≠ none) :
    s.unpublishTrack sid false = ((s.removePublication sid).1, .err, []) := by
  obtain ⟨⟨sid', track⟩, hsender⟩ := ne_none_iff_exists'.mp hsender
  unfold unpublishTrack
  rw [removePublication_some hsome]
  dsimp only
  rw [sender_removePublication, hsender]
  rfl

theorem unpublishTrack_ok {sid' : TrackSid} {track : ℕ}
    (hsender : s.sender n = some (sid', track)) :
    s.unpublishTrack sid true =
      ({ (s.removePublication sid).1 with
        transceiver := Function.update (s.removePublication sid).1.transceiver track none
        publications := (s.removePublication sid).1.publications.modify n
          fun p => { p with track := none } },
        .ok n, [.localTrackUnpublished n sid']) := by
  unfold unpublishTrack
  rw [removePublication_some hsome]
  dsimp only
  rw [sender_removePublication, hsender]
  rfl

end

/-- Whatever happens, the publication is not in the map afterwards. -/
theorem trackPublications_unpublishTrack (s : State) (sid : TrackSid) (removed : Bool) :
    (s.unpublishTrack sid removed).1.trackPublications = erase sid s.trackPublications := by
  rw [← trackPublications_removePublication]
  cases hlookup : lookup sid s.trackPublications with
  | none => rw [unpublishTrack_none hlookup, removePublication_none hlookup]
  | some n =>
    cases hsender : s.sender n with
    | none => rw [unpublishTrack_panicked hlookup hsender]
    | some sender =>
      cases removed with
      | true => rw [unpublishTrack_ok hlookup hsender]
      | false =>
        rw [unpublishTrack_err hlookup (by rw [hsender]; exact some_ne_none _)]

theorem lookup_unpublishTrack (s : State) (sid : TrackSid) (removed : Bool) :
    lookup sid (s.unpublishTrack sid removed).1.trackPublications = none := by
  rw [trackPublications_unpublishTrack, lookup_erase]

/-- A call is atomic unless the engine does not remove the track. -/
theorem atomic_iff (s : State) (sid : TrackSid) (removed : Bool) :
    Atomic s sid (s.unpublishTrack sid removed).1 (s.unpublishTrack sid removed).2.1
        (s.unpublishTrack sid removed).2.2 ↔
      ∀ n ∈ lookup sid s.trackPublications, (s.sender n).isSome → removed = true := by
  constructor
  · intro hatomic n hn hsome
    rw [mem_def] at hn
    cases removed with
    | true => rfl
    | false =>
      -- the map has lost the publication
      have hsender : s.sender n ≠ none := isSome_iff_ne_none.mp hsome
      have herr : (s.unpublishTrack sid false).2.1 = .err := by
        rw [unpublishTrack_err hn hsender]
      have hsame := (hatomic.err herr).1
      rw [trackPublications_unpublishTrack] at hsame
      rw [← hsame, lookup_erase] at hn
      cases hn
  · intro hremoved
    cases hlookup : lookup sid s.trackPublications with
    | none =>
      rw [unpublishTrack_none hlookup]
      exact ⟨fun _ => ⟨rfl, rfl, rfl, rfl⟩, fun m hok => (by cases hok)⟩
    | some n =>
      have hgone := lookup_unpublishTrack s sid removed
      cases hsender : s.sender n with
      | none =>
        rw [unpublishTrack_panicked hlookup hsender]
        exact ⟨fun herr => (by cases herr), fun m hok => (by cases hok)⟩
      | some sender =>
        have htrue := hremoved n hlookup (by rw [hsender]; rfl)
        rw [htrue] at hgone ⊢
        rw [unpublishTrack_ok hlookup hsender] at hgone ⊢
        refine ⟨fun herr => (by cases herr), ?_⟩
        intro m hok
        cases hok
        exact ⟨hgone, _, rfl⟩

/-! ## What the events say -/

/-- Nothing is told of a map that stays. -/
theorem Told.keep (htold : Told h s) (hmap : s'.trackPublications = s.trackPublications) :
    Told (h ++ []) s' := by
  intro sid
  rw [List.append_nil, hmap]
  exact htold sid

theorem Told.erase (htold : Told h s) (hsome : lookup sid s.trackPublications = some n)
    (hmap : s'.trackPublications = erase sid s.trackPublications) :
    Told (h ++ [.localTrackUnpublished n sid]) s' := by
  intro other
  rw [List.filterMap_append, hmap, AssocMap.lookup_erase_ite]
  have hbefore := htold other
  by_cases hsid : other = sid
  · rw [if_pos hsid]
    rw [hsid, hsome] at hbefore
    rw [hsid]
    have hevent : [Event.localTrackUnpublished n sid].filterMap (Event.published sid) =
        [false] := by
      simp [Event.published]
    rw [hevent]
    exact hbefore.append (Switches.single Bool.false_ne_true)
  · rw [if_neg hsid]
    have hevent : [Event.localTrackUnpublished n sid].filterMap (Event.published other) = [] := by
      simp [Event.published, Ne.symm hsid]
    rw [hevent, List.append_nil]
    exact hbefore

/-- A publication that leaves the map without an event. -/
theorem Told.not_erase (htold : Told h s)
    (hsome : lookup sid s.trackPublications = some n)
    (hmap : s'.trackPublications = AList.erase sid s.trackPublications) : ¬ Told (h ++ []) s' := by
  intro hafter
  have hbefore := htold sid
  have hnow := hafter sid
  rw [hsome] at hbefore
  rw [hmap, lookup_erase, List.filterMap_append] at hnow
  have hstay : true = false := hbefore.of_append hnow
  exact Bool.false_ne_true hstay.symm

/-- The events at the end of `publish_track`. -/
def publishedEvents (n : ℕ) (sid : TrackSid) (track : ℕ) (previousSid : Option TrackSid) :
    List Event :=
  .localTrackPublished n sid ::
    (previousSid.map fun previous => .localTrackRepublished previous n track).toList

theorem filterMap_publishedEvents (n : ℕ) (sid other : TrackSid) (track : ℕ)
    (previousSid : Option TrackSid) :
    (publishedEvents n sid track previousSid).filterMap (Event.published other) =
      if sid = other then [true] else [] := by
  unfold publishedEvents
  cases previousSid <;> by_cases hsid : sid = other <;> simp [Event.published, hsid]

/-- What is inserted is told of. -/
theorem Told.insert (htold : Told h s) (hnone : lookup sid s.trackPublications = none)
    (hmap : s'.trackPublications = insert sid n s.trackPublications) (track : ℕ)
    (previousSid : Option TrackSid) : Told (h ++ publishedEvents n sid track previousSid) s' := by
  intro other
  rw [List.filterMap_append, filterMap_publishedEvents, hmap, AssocMap.lookup_insert_ite]
  have hbefore := htold other
  by_cases hsid : other = sid
  · rw [if_pos hsid, if_pos hsid.symm]
    rw [hsid, hnone] at hbefore
    rw [hsid]
    exact hbefore.append (Switches.single (by decide))
  · rw [if_neg hsid, if_neg (Ne.symm hsid), List.append_nil]
    exact hbefore

/-- A publication that takes the place of another one in the map. -/
theorem Told.not_insert {m : ℕ} (htold : Told h s)
    (hsome : lookup sid s.trackPublications = some m) (track : ℕ)
    (previousSid : Option TrackSid) : ¬ Told (h ++ publishedEvents n sid track previousSid) s' := by
  intro hafter
  have hbefore := htold sid
  have hnow := hafter sid
  rw [hsome] at hbefore
  rw [List.filterMap_append, filterMap_publishedEvents, if_pos rfl] at hnow
  exact (hbefore.of_append hnow).1 rfl

/-! ## The map -/

/-- The publications in the map are under their sids. -/
def Keyed (s : State) : Prop :=
  ∀ (sid : TrackSid) (n : ℕ), AList.lookup sid s.trackPublications = some n →
    (s.publications[n]?).map LocalTrackPublication.sid = some sid

/-- The sids of the publications stay. -/
def KeepsSids (s s' : State) : Prop :=
  ∀ (n : ℕ) (sid : TrackSid), (s.publications[n]?).map LocalTrackPublication.sid = some sid →
    (s'.publications[n]?).map LocalTrackPublication.sid = some sid

theorem sid_modify (l : List LocalTrackPublication) (m n : ℕ)
    {f : LocalTrackPublication → LocalTrackPublication} (hf : ∀ p, (f p).sid = p.sid) :
    ((l.modify m f)[n]?).map LocalTrackPublication.sid =
      (l[n]?).map LocalTrackPublication.sid := by
  rw [List.getElem?_modify]
  cases l[n]? with
  | none => rfl
  | some p =>
    by_cases hmn : m = n
    · simp [hmn, hf]
    · simp [hmn]

theorem keepsSids_removePublication (s : State) (sid : TrackSid) :
    KeepsSids s (s.removePublication sid).1 := by
  intro n sid' hsid
  unfold removePublication
  split
  · exact hsid
  · rw [← hsid]
    exact sid_modify _ _ _ fun _ => rfl

theorem keepsSids_unpublishTrack (s : State) (sid : TrackSid) (removed : Bool) :
    KeepsSids s (s.unpublishTrack sid removed).1 := by
  intro n sid' hsid
  have hremove := keepsSids_removePublication s sid n sid' hsid
  cases hlookup : lookup sid s.trackPublications with
  | none =>
    rw [unpublishTrack_none hlookup]
    exact hsid
  | some m =>
    cases hsender : s.sender m with
    | none =>
      rw [unpublishTrack_panicked hlookup hsender]
      exact hremove
    | some sender =>
      cases removed with
      | true =>
        rw [unpublishTrack_ok hlookup hsender, ← hremove]
        exact sid_modify _ _ _ fun _ => rfl
      | false =>
        rw [unpublishTrack_err hlookup (by rw [hsender]; exact some_ne_none _)]
        exact hremove

theorem Keyed.unpublishTrack (hkeyed : Keyed s) (sid : TrackSid) (removed : Bool) :
    Keyed (s.unpublishTrack sid removed).1 := by
  intro other n hlookup
  rw [trackPublications_unpublishTrack] at hlookup
  exact keepsSids_unpublishTrack s sid removed n other
    (hkeyed other n (AssocMap.of_lookup_erase hlookup).2)

/-! ## The steps -/

/-- What the invariants speak of. -/
structure Inv (h : List Event) (s : State) : Prop where
  told : Told h s
  keyed : Keyed s

theorem Inv.keep (hinv : Inv h s) (hmap : s'.trackPublications = s.trackPublications)
    (hsids : KeepsSids s s') : Inv (h ++ []) s' := by
  refine ⟨hinv.told.keep hmap, ?_⟩
  intro sid n hlookup
  rw [hmap] at hlookup
  exact hsids n sid (hinv.keyed sid n hlookup)

/-- A call of `unpublish_track` keeps the invariants or breaks what the events say. -/
theorem Inv.unpublishTrack (hinv : Inv h s) (sid : TrackSid) (removed : Bool) :
    Removes s sid removed ∧
        Inv (h ++ (s.unpublishTrack sid removed).2.2) (s.unpublishTrack sid removed).1 ∨
      ¬ Removes s sid removed ∧
        ¬ Told (h ++ (s.unpublishTrack sid removed).2.2) (s.unpublishTrack sid removed).1 := by
  have hkeyed := hinv.keyed.unpublishTrack sid removed
  have hmap := trackPublications_unpublishTrack s sid removed
  cases hlookup : lookup sid s.trackPublications with
  | none =>
    left
    rw [unpublishTrack_none hlookup]
    refine ⟨fun n hn => ?_, hinv.keep rfl fun _ _ hsid => hsid⟩
    rw [hlookup] at hn
    cases hn
  | some n =>
    cases hsender : s.sender n with
    | none =>
      right
      rw [unpublishTrack_panicked hlookup hsender] at hmap ⊢
      refine ⟨fun hremoves => ?_, hinv.told.not_erase hlookup hmap⟩
      have hsome := (hremoves n hlookup).1
      rw [hsender] at hsome
      cases hsome
    | some sender =>
      cases removed with
      | true =>
        left
        -- the publication is under its sid
        have hsid : sender.1 = sid := by
          have hunder := hinv.keyed sid n hlookup
          unfold State.sender at hsender
          cases hp : s.publications[n]? with
          | none =>
            rw [hp] at hsender
            cases hsender
          | some p =>
            rw [hp] at hsender hunder
            rw [map_some, some.injEq] at hunder
            rw [bind_some, bind_eq_some_iff] at hsender
            obtain ⟨track, -, htrack⟩ := hsender
            rw [map_eq_some_iff] at htrack
            obtain ⟨_, -, rfl⟩ := htrack
            exact hunder
        rw [unpublishTrack_ok hlookup hsender, hsid] at hkeyed hmap ⊢
        refine ⟨fun m hm => ?_, hinv.told.erase hlookup hmap, hkeyed⟩
        rw [hlookup, mem_some_iff] at hm
        rw [← hm, hsender]
        exact ⟨rfl, rfl⟩
      | false =>
        right
        have herr := unpublishTrack_err hlookup (by rw [hsender]; exact some_ne_none _)
        rw [herr] at hmap ⊢
        refine ⟨fun hremoves => ?_, hinv.told.not_erase hlookup hmap⟩
        exact Bool.false_ne_true (hremoves n hlookup).2

/-- The step of a call in which only the task goes on. -/
theorem Inv.goto (hinv : Inv h s) (i : ℕ) (point : Point) : Inv h (s.goto i point) :=
  ⟨hinv.told, hinv.keyed⟩

theorem Inv.published (hinv : Inv h s) {p : LocalTrackPublication}
    (hp : s.publications[n]? = some p) (hnone : lookup p.sid s.trackPublications = none)
    (track : ℕ) (previousSid : Option TrackSid) (transceiver : ℕ) :
    Inv (h ++ (s.published n p.sid track previousSid transceiver).2)
      (s.published n p.sid track previousSid transceiver).1 := by
  refine ⟨hinv.told.insert hnone rfl track previousSid, ?_⟩
  intro sid m hlookup
  show (((s.publications.modify n fun p => { p with registered := true })[m]?).map
    LocalTrackPublication.sid) = some sid
  have hsame := sid_modify s.publications n m (f := fun p => { p with registered := true })
    fun _ => rfl
  rw [hsame]
  rcases AssocMap.of_lookup_insert hlookup with ⟨rfl, rfl⟩ | ⟨-, hlookup⟩
  · rw [hp]
    rfl
  · exact hinv.keyed sid m hlookup

/-- A step keeps the invariants or breaks what the events say. -/
theorem Inv.step (hinv : Inv h s) {a : Action} (hstep : s.step a = some s') :
    Good s a ∧ Inv (h ++ record s a) s' ∨ ¬ Good s a ∧ ¬ Told (h ++ record s a) s' := by
  obtain ⟨⟨t, events⟩, hturn, rfl⟩ := map_eq_some_iff.mp hstep
  have hrecord : record s a = events := by
    unfold record
    rw [hturn]
    rfl
  rw [hrecord]
  show Good s a ∧ Inv (h ++ events) t ∨ ¬ Good s a ∧ ¬ Told (h ++ events) t
  unfold turn at hturn
  cases a with
  | publishTrack | handleRestarted =>
    cases hturn
    exact .inl ⟨trivial, hinv.keep rfl fun _ _ hsid => hsid⟩
  | addTrack i info =>
    dsimp only at hturn
    split at hturn
    · cases hturn
      exact .inl ⟨trivial, hinv.keep rfl fun _ _ hsid => hsid⟩
    · cases hturn
      refine .inl ⟨trivial, hinv.keep rfl ?_⟩
      -- the new publication comes after those that there are
      intro n sid hsid
      show ((s.publications ++ _)[n]?).map LocalTrackPublication.sid = some sid
      obtain ⟨p, hp, hpsid⟩ := map_eq_some_iff.mp hsid
      have hlt : n < s.publications.length := (List.getElem?_eq_some_iff.mp hp).1
      rw [List.getElem?_append_left hlt, hp, map_some, hpsid]
    · cases hturn
  | createSender i transceiver =>
    dsimp only at hturn
    split at hturn
    · cases hturn
      exact .inl ⟨trivial, hinv.keep rfl fun _ _ hsid => hsid⟩
    next n track previousSid transceiver htask =>
      obtain ⟨p, hp, heq⟩ := map_eq_some_iff.mp hturn
      cases heq
      cases hlookup : lookup p.sid s.trackPublications with
      | none =>
        refine .inl ⟨?_, (hinv.published hp hlookup track previousSid transceiver).goto _ _⟩
        intro m track' previousSid' q htask' hq
        rw [htask] at htask'
        cases htask'
        rw [hp] at hq
        cases hq
        exact hlookup
      | some m =>
        refine .inr ⟨fun hgood => ?_, hinv.told.not_insert hlookup track previousSid⟩
        have hnone := hgood n track previousSid p htask hp
        rw [hlookup] at hnone
        cases hnone
    · cases hturn
  | unpublishTrack sid removed =>
    cases hturn
    exact hinv.unpublishTrack sid removed
  | spawnTasks j =>
    obtain ⟨found, -, heq⟩ := map_eq_some_iff.mp hturn
    cases heq
    exact .inl ⟨trivial, hinv.keep rfl fun _ _ hsid => hsid⟩
  | republish i removed =>
    dsimp only at hturn
    split at hturn
    next n track htask =>
      obtain ⟨p, hp, heq⟩ := map_eq_some_iff.mp hturn
      have hgood : Good s (.republish i removed) ↔ Removes s p.sid removed := by
        constructor
        · exact fun hgood => hgood n track p htask hp
        · intro hremoves m track' q htask' hq
          rw [htask] at htask'
          cases htask'
          rw [hp] at hq
          cases hq
          exact hremoves
      have hafter : ∃ point, (t, events) =
          ((s.unpublishTrack p.sid removed).1.goto i point,
            (s.unpublishTrack p.sid removed).2.2) := by
        rw [← heq]
        split
        next hpanicked => exact ⟨.panicked, by rw [hpanicked]⟩
        next s'' result events' _ hresult =>
          exact ⟨.requested track (some p.sid), by rw [hresult]⟩
      obtain ⟨point, hafter⟩ := hafter
      cases hafter
      rw [hgood]
      cases hinv.unpublishTrack p.sid removed with
      | inl hkeeps => exact .inl ⟨hkeeps.1, hkeeps.2.goto i point⟩
      | inr hbreaks => exact .inr hbreaks
    · cases hturn

/-! ## Runs -/

/-- A call is atomic if the engine removes the track. -/
theorem Removes.atomic {removed : Bool} (hremoves : Removes s sid removed) :
    Atomic s sid (s.unpublishTrack sid removed).1 (s.unpublishTrack sid removed).2.1
      (s.unpublishTrack sid removed).2.2 :=
  (atomic_iff s sid removed).mpr fun n hn _ => (hremoves n hn).2

theorem Good.atomicStep {a : Action} (hgood : Good s a) : AtomicStep s a := by
  cases a with
  | unpublishTrack sid removed =>
    have hremoves : Removes s sid removed := hgood
    exact hremoves.atomic
  | republish i removed =>
    intro n track p htask hp
    exact (hgood n track p htask hp).atomic
  | _ => trivial

/-- A call of `unpublish_track` is atomic unless there is a publication whose track the engine does
not remove; and the events of a run tell of the publications in the map exactly as long as what is
unpublished is removed by the engine, and what is published has a sid that is not in the map. -/
theorem unpublish_atomic_iff (run : List Action) :
    (∀ s sid removed, Atomic s sid (s.unpublishTrack sid removed).1
        (s.unpublishTrack sid removed).2.1 (s.unpublishTrack sid removed).2.2 ↔
      ∀ n ∈ AList.lookup sid s.trackPublications, (s.sender n).isSome → removed = true) ∧
    ((EachStep State.step (fun s a _ => AtomicStep s a) .new run ∧
        Always State.step record Told .new run) ↔
      EachStep State.step (fun s a _ => Good s a) .new run) := by
  have hiff : Always step record Told .new run ↔
      EachStep step (fun s a _ => Good s a) .new run := by
    have hinit : Inv [] .new := ⟨fun _ => Switches.refl false, nofun⟩
    exact always_iff_eachStep (I := Inv) (fun _ _ hinv => hinv.told)
      (fun _ _ a _ hinv hstep => hinv.step (a := a) hstep) hinit run
  refine ⟨atomic_iff, fun hboth => hiff.mp hboth.2, fun hgood => ⟨?_, hiff.mpr hgood⟩⟩
  refine EachStep.of_invariant (I := fun _ => True) ?_ trivial hgood
  intro s a _ s' _ _ hgood
  exact ⟨trivial, hgood.atomicStep⟩

/-- A track that was published, and whose sender belongs to a session that has been replaced. -/
def replacedSession : List Action :=
  [.publishTrack 0, .addTrack 0 (some ⟨"TR_1", by decide⟩), .createSender 0 (some 0),
    .handleRestarted, .spawnTasks 0, .republish 1 false]

/-- The publication is gone, and no event says so. -/
theorem republish_forgets :
    ¬ ((∀ s sid removed, Atomic s sid (s.unpublishTrack sid removed).1
        (s.unpublishTrack sid removed).2.1 (s.unpublishTrack sid removed).2.2) ∧
      ∀ run, Always State.step record Told .new run) := by
  intro ⟨_, hall⟩
  have htold := hall replacedSession _ [] _ (List.append_nil _).symm rfl
  have hgone : true = false := (htold ⟨"TR_1", by decide⟩).2
  exact Bool.false_ne_true hgone.symm

end LiveKit.LocalPublications
