import LiveKit.Ffi.HandleStore
import LiveKit.Lib.Components

/-!
# When the store of handles is lawful

The senders of an id are those of the watchers of the id, so a sender goes with the vector of its
id alone. What each step does to the handles and the senders of an id decides if it is lawful.
-/

namespace LiveKit.HandleStore

open AList List Option TransitionSystem

variable {s s' : State} {id : FfiHandleId} {tyname : String} {i w number : ℕ}

/-! ## Handles and senders -/

variable {handle : Handle} {a : Action} {point : Point}

theorem stored_iff (hlookup : lookup id s.ffiHandles = some handle) :
    s.Stored id number ↔ handle.number = number := by
  constructor
  · rintro ⟨other, hother, hnumber⟩
    rw [hlookup, some.injEq] at hother
    rw [hother, hnumber]
  · intro hnumber
    exact ⟨handle, hlookup, hnumber⟩

theorem not_stored (hlookup : lookup id s.ffiHandles = none) : ¬ s.Stored id number := by
  rintro ⟨handle, hhandle, -⟩
  rw [hlookup] at hhandle
  cases hhandle

theorem stored_congr (hsame : lookup id s'.ffiHandles = lookup id s.ffiHandles) :
    s'.Stored id number ↔ s.Stored id number := by
  unfold State.Stored
  rw [hsame]

theorem senders_insert (txs : AssocMap FfiHandleId (List ℕ)) (id id' : FfiHandleId)
    (txVec : List ℕ) :
    (lookup id' (insert id txVec txs)).getD [] =
      if id' = id then txVec else (lookup id' txs).getD [] := by
  rw [AssocMap.lookup_insert_ite]
  split <;> rfl

theorem senders_erase (txs : AssocMap FfiHandleId (List ℕ)) (id id' : FfiHandleId) :
    (lookup id' (erase id txs)).getD [] =
      if id' = id then [] else (lookup id' txs).getD [] := by
  rw [AssocMap.lookup_erase_ite]
  split <;> rfl

/-! ## The invariant -/

structure Inv (s : State) : Prop where
  fresh : ∀ id handle, AList.lookup id s.ffiHandles = some handle → handle.number < s.stores
  watchedFresh : ∀ (w : ℕ) id number,
    s.watchers[w]? = some ⟨id, some number⟩ → number < s.stores
  sendersOf : ∀ id, ∀ w ∈ s.senders id, ∃ handle, s.watchers[w]? = some ⟨id, handle⟩
  watched : s.Watched

theorem Inv.new : Inv .new :=
  { fresh := fun _ _ hlookup => nomatch hlookup
    watchedFresh := fun _ _ _ hwatcher => nomatch hwatcher
    sendersOf := fun _ _ hsender => absurd hsender not_mem_nil
    watched := fun _ _ _ hwatcher => nomatch hwatcher }

/-- The sender of a watcher that was not notified is among those of its id. -/
theorem Inv.mem_senders (hinv : Inv s) {handle : Option ℕ}
    (hwatcher : s.watchers[w]? = some ⟨id, handle⟩) (hnot : ¬ s.Notified w) :
    w ∈ s.senders id := by
  unfold State.Notified at hnot
  rw [not_forall] at hnot
  obtain ⟨id', hsender⟩ := hnot
  rw [not_not] at hsender
  obtain ⟨handle', hwatcher'⟩ := hinv.sendersOf id' w hsender
  rw [hwatcher, some.injEq, Watcher.mk.injEq] at hwatcher'
  rw [hwatcher'.1]
  exact hsender

/-- A watcher of a handle that is stored has its sender among those of the id. -/
theorem Inv.sender_of_stored (hinv : Inv s)
    (hwatcher : s.watchers[w]? = some ⟨id, some number⟩) (hstored : s.Stored id number) :
    w ∈ s.senders id :=
  hinv.mem_senders hwatcher ((hinv.watched w id number hwatcher).1 hstored)

/-! ## Steps that only change the handles -/

/-- A step that keeps the handles, and whose watchers are watched. -/
theorem Lawful.of_same {a : Action} (hhandles : s'.ffiHandles = s.ffiHandles)
    (hpanics : ∀ i : ℕ, s'.operations[i]? = some Point.panicked →
      s.operations[i]? = some Point.panicked)
    (hwatched : s'.Watched) : Lawful s a s' :=
  { atomic := fun _ _ => hhandles
    leaves := fun id handle hlookup hnot => by
      rw [hhandles] at hnot
      exact absurd hlookup hnot
    neverPanics := hpanics
    watched := hwatched }

theorem storeHandle_lawful_iff (hinv : Inv s) :
    Lawful s (.storeHandle id tyname) (s.storeHandle id tyname) ↔
      Regular s (.storeHandle id tyname) := by
  have hlookup : ∀ id', lookup id' (s.storeHandle id tyname).ffiHandles =
      if id' = id then some ⟨tyname, s.stores⟩ else lookup id' s.ffiHandles :=
    fun id' => AssocMap.lookup_insert_ite _ _ _ _
  constructor
  · intro hlawful
    cases hstored : lookup id s.ffiHandles with
    | none => exact hstored
    | some handle =>
      -- the handle that was stored is replaced
      have hreplaced : lookup id (s.storeHandle id tyname).ffiHandles ≠ some handle := by
        rw [hlookup, if_pos rfl]
        intro hsame
        have hfresh := hinv.fresh id handle hstored
        rw [← some.inj hsame] at hfresh
        exact Nat.lt_irrefl _ hfresh
      cases hlawful.leaves id handle hstored hreplaced with
      | inl hdrop => cases hdrop
      | inr htake =>
        obtain ⟨_, htake, -⟩ := htake
        cases htake
  · intro hfree
    have hnone : lookup id s.ffiHandles = none := hfree
    refine ⟨fun _ hresult => (nomatch hresult), ?_, fun _ hpanics => hpanics, ?_⟩
    · intro id' handle hstored hnot
      rw [hlookup] at hnot
      split at hnot
      next hid =>
        rw [hid, hnone] at hstored
        cases hstored
      next hid => exact absurd hstored hnot
    · intro w id' number hwatcher
      have hstill : (s.storeHandle id tyname).Stored id' number ↔ s.Stored id' number := by
        by_cases hid : id' = id
        · have hnew : lookup id' (s.storeHandle id tyname).ffiHandles =
              some ⟨tyname, s.stores⟩ := by rw [hlookup, if_pos hid]
          rw [stored_iff hnew]
          have hfresh := hinv.watchedFresh w id' number hwatcher
          refine iff_of_false ?_ (not_stored (by rw [hid]; exact hnone))
          intro hsame
          have hsame' : s.stores = number := hsame
          omega
        · refine stored_congr ?_
          rw [hlookup, if_neg hid]
      have hbefore := hinv.watched w id' number hwatcher
      rw [hstill]
      exact hbefore

theorem takeHandle_lawful_iff (hinv : Inv s) :
    Lawful s (.takeHandle id tyname) (s.takeHandle id tyname).1 ↔
      Regular s (.takeHandle id tyname) := by
  by_cases hinvalid : id = INVALID_HANDLE
  · have hsame : (s.takeHandle id tyname).1 = s := by
      unfold State.takeHandle
      rw [if_pos hinvalid]
    rw [hsame]
    exact iff_of_true (Lawful.of_same rfl (fun _ hpanics => hpanics) hinv.watched)
      fun hvalid => absurd hinvalid hvalid
  cases hstored : lookup id s.ffiHandles with
  | none =>
    have hsame : (s.takeHandle id tyname).1 = s := by
      unfold State.takeHandle
      rw [if_neg hinvalid, hstored]
    rw [hsame]
    refine iff_of_true (Lawful.of_same rfl (fun _ hpanics => hpanics) hinv.watched) ?_
    intro _ handle hlookup
    rw [hstored] at hlookup
    cases hlookup
  | some handle =>
    have htake : s.takeHandle id tyname =
        ({ s with ffiHandles := erase id s.ffiHandles },
          if handle.tyname = tyname then .handle handle
          else .invalidRequest ("handle is not a " ++ tyname)) := by
      unfold State.takeHandle
      rw [if_neg hinvalid, hstored]
    have hresult : s.result (.takeHandle id tyname) =
        some (if handle.tyname = tyname then .handle handle
          else .invalidRequest ("handle is not a " ++ tyname)) := by
      show some (s.takeHandle id tyname).2 = _
      rw [htake]
    have hlookup : ∀ id', lookup id' (s.takeHandle id tyname).1.ffiHandles =
        if id' = id then none else lookup id' s.ffiHandles := by
      rw [htake]
      exact fun id' => AssocMap.lookup_erase_ite _ _ _
    have hwatchers : (s.takeHandle id tyname).1.watchers = s.watchers := by rw [htake]
    have hnotified : ∀ w, (s.takeHandle id tyname).1.Notified w ↔ s.Notified w := by
      rw [htake]
      exact fun _ => Iff.rfl
    have hdrops : ∀ id', (s.takeHandle id tyname).1.DropsNow id' ↔ s.DropsNow id' := by
      rw [htake]
      exact fun _ => Iff.rfl
    have hgone : ∀ number, ¬ (s.takeHandle id tyname).1.Stored id number :=
      fun number => not_stored (by rw [hlookup, if_pos rfl])
    constructor
    · intro hlawful _ handle' hhandle'
      rw [hstored, some.injEq] at hhandle'
      subst hhandle'
      -- a wrong type is refused, but the handle is gone
      have htype : handle.tyname = tyname := by
        by_contra hwrong
        have hunchanged := hlawful.atomic ("handle is not a " ++ tyname) (by
          rw [hresult, if_neg hwrong])
        have hremoved := hlookup id
        rw [hunchanged, hstored, if_pos rfl] at hremoved
        cases hremoved
      refine ⟨htype, ?_⟩
      by_contra hneither
      rw [not_or] at hneither
      obtain ⟨hdrop, hwaits⟩ := hneither
      refine hwaits ?_
      intro w hsender watcher hwatcher hhandle
      obtain ⟨other, hother⟩ := hinv.sendersOf id w hsender
      rw [hwatcher, some.injEq] at hother
      rw [hother] at hhandle hwatcher
      rw [show other = some handle.number from hhandle, ← hwatchers] at hwatcher
      cases (hlawful.watched w id handle.number hwatcher).2 (hgone _) with
      | inl hdone => exact absurd hsender ((hnotified w).mp hdone id)
      | inr hnow => exact hdrop ((hdrops id).mp hnow)
    · intro hregular
      obtain ⟨htype, hwaits⟩ := hregular hinvalid handle hstored
      rw [if_pos htype] at hresult
      refine ⟨?_, ?_, ?_, ?_⟩
      · intro message herror
        rw [hresult] at herror
        cases herror
      · intro id' handle' hlookup' hnot
        rw [hlookup] at hnot
        split at hnot
        next hid =>
          rw [hid, hstored, some.injEq] at hlookup'
          rw [hid, ← hlookup']
          exact .inr ⟨tyname, rfl, hresult⟩
        next hid => exact absurd hlookup' hnot
      · rw [htake]
        exact fun _ hpanics => hpanics
      · intro w id' number hwatcher
        rw [hwatchers] at hwatcher
        -- a watcher of this handle must be notified now, or not be there
        have hbefore := hinv.watched w id' number hwatcher
        rw [hnotified, hdrops]
        by_cases hid : id' = id
        · subst hid
          refine ⟨fun hstill => absurd hstill (hgone number), fun _ => ?_⟩
          by_cases hwas : s.Stored id' number
          · have hsender := hinv.sender_of_stored hwatcher hwas
            cases hwaits with
            | inl hnow => exact .inr hnow
            | inr hnone =>
              have hnumber := (stored_iff hstored).mp hwas
              refine absurd ?_ (hnone w hsender _ hwatcher)
              rw [hnumber]
          · exact hbefore.2 hwas
        · rw [stored_congr (s := s) (by rw [hlookup, if_neg hid])]
          exact hbefore

/-- A `drop_handle` that begins. -/
theorem dropHandle_lawful (hinv : Inv s) : Lawful s (.dropHandle id) (s.dropHandle id) := by
  have hlookup : ∀ id', lookup id' (s.dropHandle id).ffiHandles =
      if id' = id then none else lookup id' s.ffiHandles :=
    fun id' => AssocMap.lookup_erase_ite _ _ _
  have hnow : (s.dropHandle id).DropsNow id :=
    ⟨_, mem_append_right _ (mem_singleton.mpr rfl)⟩
  refine ⟨fun _ hresult => (nomatch hresult), ?_, ?_, ?_⟩
  · intro id' handle hstored hnot
    rw [hlookup] at hnot
    split at hnot
    next hid => exact .inl (by rw [hid])
    next hid => exact absurd hstored hnot
  · intro i hpanics
    have hpanics' : (s.operations ++
      [.dropping id (lookup id s.ffiHandles).isSome])[i]? = some Point.panicked := hpanics
    rcases Components.of_getElem?_concat hpanics' with ⟨-, hnew⟩ | hpanics'
    · cases hnew
    · exact hpanics'
  · intro w id' number hwatcher
    have hbefore := hinv.watched w id' number hwatcher
    by_cases hid : id' = id
    · rw [hid]
      exact ⟨fun hstill => absurd hstill (not_stored (by rw [hlookup, if_pos rfl])),
        fun _ => .inr hnow⟩
    · rw [stored_congr (s := s) (by rw [hlookup, if_neg hid])]
      refine ⟨hbefore.1, fun hgone => ?_⟩
      cases hbefore.2 hgone with
      | inl hdone => exact .inl hdone
      | inr hdrops =>
        obtain ⟨existed, hmem⟩ := hdrops
        exact .inr ⟨existed, mem_append_left _ hmem⟩

/-- A `watch_handle_dropped` that begins. -/
theorem watchHandleDropped_lawful (hinv : Inv s) :
    Lawful s (.watchHandleDropped id) (s.watchHandleDropped id) := by
  refine Lawful.of_same rfl ?_ ?_
  · intro i hpanics
    have hpanics' : (s.operations ++ [if (lookup id s.handleDroppedTxs).isSome then
      Point.pushing id else .inserting id])[i]? = some Point.panicked := hpanics
    rcases Components.of_getElem?_concat hpanics' with ⟨-, hnew⟩ | hpanics'
    · split at hnew <;> cases hnew
    · exact hpanics'
  · intro w id' number hwatcher
    have hbefore := hinv.watched w id' number hwatcher
    refine ⟨hbefore.1, fun hgone => ?_⟩
    cases hbefore.2 hgone with
    | inl hdone => exact .inl hdone
    | inr hdrops =>
      obtain ⟨existed, hmem⟩ := hdrops
      exact .inr ⟨existed, mem_append_left _ hmem⟩

/-! ## Operations that go on -/

/-- A step that drops the senders of the id, and nothing else. -/
theorem released_iff {a : Action} (hinv : Inv s) (hhandles : s'.ffiHandles = s.ffiHandles)
    (hwatchers : s'.watchers = s.watchers)
    (hsenders : ∀ id', s'.senders id' = if id' = id then [] else s.senders id')
    (hpanics : ∀ i : ℕ, s'.operations[i]? = some Point.panicked →
      s.operations[i]? = some Point.panicked)
    (hdrops : ∀ id', id' ≠ id → s.DropsNow id' → s'.DropsNow id') :
    Lawful s a s' ↔ s.Released id := by
  have hstill : ∀ id' number, s'.Stored id' number ↔ s.Stored id' number :=
    fun _ _ => stored_congr (by rw [hhandles])
  constructor
  · intro hlawful w hsender number hwatcher hstored
    rw [← hwatchers] at hwatcher
    refine (hlawful.watched w id number hwatcher).1 ((hstill id number).mpr hstored) ?_
    intro id' hsender'
    rw [hsenders] at hsender'
    split at hsender'
    next => cases hsender'
    next hid =>
      -- the sender is among those of its own id alone
      obtain ⟨_, hown⟩ := hinv.sendersOf id' w hsender'
      rw [← hwatchers, hwatcher, some.injEq, Watcher.mk.injEq] at hown
      exact hid hown.1.symm
  · intro hreleased
    refine Lawful.of_same hhandles hpanics ?_
    intro w id' number hwatcher
    rw [hwatchers] at hwatcher
    have hbefore := hinv.watched w id' number hwatcher
    rw [hstill]
    by_cases hid : id' = id
    · subst hid
      have hgone : ¬ s.Stored id' number := by
        intro hstored
        exact hreleased w (hinv.sender_of_stored hwatcher hstored) number hwatcher hstored
      refine ⟨fun hstored => absurd hstored hgone, fun _ => .inl ?_⟩
      intro other hsender
      rw [hsenders] at hsender
      split at hsender
      next => cases hsender
      next hne =>
        obtain ⟨_, hown⟩ := hinv.sendersOf other w hsender
        rw [hwatcher, some.injEq, Watcher.mk.injEq] at hown
        exact hne hown.1.symm
    · constructor
      · intro hstored hdone
        refine hbefore.1 hstored ?_
        intro other hsender
        obtain ⟨_, hown⟩ := hinv.sendersOf other w hsender
        rw [hwatcher, some.injEq, Watcher.mk.injEq] at hown
        refine hdone other ?_
        rw [hsenders, if_neg (by rw [← hown.1]; exact hid)]
        exact hsender
      · intro hgone
        refine (hbefore.2 hgone).imp ?_ (hdrops id' hid)
        intro hdone other hsender
        rw [hsenders] at hsender
        split at hsender
        next => cases hsender
        next => exact hdone other hsender

/-- Setting the point of an operation makes no other one panic. -/
theorem panicked_of_set (hpoint : point ≠ .panicked) {j : ℕ}
    (hpanics : (s.operations.set i point)[j]? = some Point.panicked) :
    s.operations[j]? = some Point.panicked := by
  rw [getElem?_set] at hpanics
  split at hpanics
  next =>
    split at hpanics
    · exact absurd (some.inj hpanics) hpoint
    · cases hpanics
  next => exact hpanics

/-- A `drop_handle` that is not the operation stays in progress. -/
theorem dropping_of_set {old : Point} (hi : s.operations[i]? = some old)
    (hold : ∀ existed, old ≠ .dropping id existed) (hdrops : s.DropsNow id) :
    ∃ existed, .dropping id existed ∈ s.operations.set i point := by
  obtain ⟨existed, hmem⟩ := hdrops
  obtain ⟨j, hj⟩ := mem_iff_getElem?.mp hmem
  refine ⟨existed, mem_iff_getElem?.mpr ⟨j, ?_⟩⟩
  rw [getElem?_set_ne]
  · exact hj
  · intro hij
    rw [hij, hj, some.injEq] at hi
    exact hold existed hi.symm

/-- A new watcher has its sender among those of the id. -/
theorem pushed_lawful {txVec : List ℕ} (hinv : Inv s)
    (hi : s.operations[i]? = some (.pushing id))
    (htxs : lookup id s.handleDroppedTxs = some txVec) :
    Lawful s (.goOn i) { s with
      handleDroppedTxs := insert id (txVec ++ [s.watchers.length]) s.handleDroppedTxs
      watchers := s.watchers ++ [⟨id, (lookup id s.ffiHandles).map Handle.number⟩]
      operations := s.operations.set i .done } := by
  refine Lawful.of_same rfl (fun _ hpanics => panicked_of_set (by simp) hpanics) ?_
  intro w id' number hwatcher
  have hold : s.senders id = txVec := by
    unfold State.senders
    rw [htxs]
    rfl
  rcases (Components.of_getElem?_concat hwatcher).symm with hwatcher | ⟨hw, hnew⟩
  · have hlt : w < s.watchers.length := (List.getElem?_eq_some_iff.mp hwatcher).1
    have hbefore := hinv.watched w id' number hwatcher
    refine ⟨fun hstored hdone => hbefore.1 hstored ?_, fun hgone => ?_⟩
    · intro other hsender
      refine hdone other ?_
      show w ∈ (lookup other (insert id _ s.handleDroppedTxs)).getD []
      rw [senders_insert]
      split
      next hother =>
        rw [hother, hold] at hsender
        exact mem_append_left _ hsender
      next => exact hsender
    · refine (hbefore.2 hgone).imp ?_ (dropping_of_set hi (by simp))
      intro hdone other hsender
      have hsender' : w ∈ (lookup other (insert id (txVec ++ [s.watchers.length])
        s.handleDroppedTxs)).getD [] := hsender
      rw [senders_insert] at hsender'
      split at hsender'
      next hother =>
        rw [mem_append, mem_singleton] at hsender'
        refine hdone id ?_
        rw [hold]
        exact hsender'.resolve_right (by omega)
      next => exact hdone other hsender'
  · -- the watcher that is new
    rw [Watcher.mk.injEq] at hnew
    obtain ⟨rfl, hnumber⟩ := hnew
    obtain ⟨handle, hlookup, hhandle⟩ := map_eq_some_iff.mp hnumber.symm
    refine ⟨fun _ hdone => hdone id' ?_, fun hgone => absurd ⟨handle, hlookup, hhandle⟩ hgone⟩
    show w ∈ (lookup id' (insert id' _ s.handleDroppedTxs)).getD []
    rw [senders_insert, if_pos rfl, hw]
    exact mem_append_right _ (mem_singleton.mpr rfl)

/-- An operation that goes on is lawful as long as it drops no sender of a handle that is stored,
and finds the vector that it adds a sender to. -/
theorem goOn_lawful_iff (hinv : Inv s) (hstep : s.step (.goOn i) = some s') :
    Lawful s (.goOn i) s' ↔ Regular s (.goOn i) := by
  have hgoOn : (s.goOn i).map Prod.fst = some s' := hstep
  unfold Regular
  dsimp only
  unfold State.goOn at hgoOn
  cases hi : s.operations[i]? with
  | none =>
    rw [hi] at hgoOn
    cases hgoOn
  | some point =>
    rw [hi] at hgoOn
    cases point with
    | dropping id existed =>
      cases hgoOn
      refine released_iff hinv rfl rfl (senders_erase s.handleDroppedTxs id)
        (fun _ hpanics => panicked_of_set (by simp) hpanics) ?_
      intro id' hid
      refine dropping_of_set hi ?_
      intro existed' hsame
      rw [Point.dropping.injEq] at hsame
      exact hid hsame.1.symm
    | inserting id =>
      cases hgoOn
      exact released_iff hinv rfl rfl (fun id' => senders_insert s.handleDroppedTxs id id' [])
        (fun _ hpanics => panicked_of_set (by simp) hpanics)
        fun _ _ => dropping_of_set hi (by simp)
    | pushing id =>
      dsimp only at hgoOn ⊢
      cases htxs : lookup id s.handleDroppedTxs with
      | none =>
        rw [htxs] at hgoOn
        cases hgoOn
        refine iff_of_false ?_ (by simp)
        intro hlawful
        have hlt := (List.getElem?_eq_some_iff.mp hi).1
        have hpanics := hlawful.neverPanics i (getElem?_set_self hlt)
        rw [hi] at hpanics
        cases hpanics
      | some txVec =>
        rw [htxs] at hgoOn
        cases hgoOn
        exact iff_of_true (pushed_lawful hinv hi htxs) rfl
    | done | panicked => cases hgoOn

/-! ## Runs -/

theorem step_lawful_iff (hinv : Inv s) (hstep : s.step a = some s') :
    Lawful s a s' ↔ Regular s a := by
  cases a with
  | storeHandle id tyname =>
    cases hstep
    exact storeHandle_lawful_iff hinv
  | retrieveHandle id tyname =>
    cases hstep
    exact iff_of_true (Lawful.of_same rfl (fun _ hpanics => hpanics) hinv.watched) trivial
  | takeHandle id tyname =>
    cases hstep
    exact takeHandle_lawful_iff hinv
  | dropHandle id =>
    cases hstep
    exact iff_of_true (dropHandle_lawful hinv) trivial
  | watchHandleDropped id =>
    cases hstep
    exact iff_of_true (watchHandleDropped_lawful hinv) trivial
  | goOn i => exact goOn_lawful_iff hinv hstep

theorem lookup_of_erase {handles : AssocMap FfiHandleId Handle} {id' : FfiHandleId}
    (hlookup : lookup id' (erase id handles) = some handle) :
    lookup id' handles = some handle := by
  exact (AssocMap.of_lookup_erase hlookup).2

/-- What the steps do to what the invariant is about, apart from the new watcher of a step. -/
theorem step_frame (hstep : s.step a = some s') :
    s.stores ≤ s'.stores ∧
      (∀ id handle, lookup id s'.ffiHandles = some handle →
        lookup id s.ffiHandles = some handle ∨ handle.number < s'.stores) ∧
      ((∀ id, s'.senders id ⊆ s.senders id) ∧ s'.watchers = s.watchers ∨
        ∃ id, (∀ id', s'.senders id' =
            if id' = id then s.senders id ++ [s.watchers.length] else s.senders id') ∧
          s'.watchers = s.watchers ++
            [⟨id, (lookup id s.ffiHandles).map Handle.number⟩]) := by
  have hsame : (∀ id, s.senders id ⊆ s.senders id) ∧ s.watchers = s.watchers :=
    ⟨fun _ => List.Subset.refl _, rfl⟩
  cases a with
  | storeHandle id tyname =>
    cases hstep
    refine ⟨Nat.le_succ _, ?_, .inl hsame⟩
    intro id' handle hlookup
    rcases AssocMap.of_lookup_insert hlookup with ⟨-, rfl⟩ | ⟨-, hlookup⟩
    · exact .inr (Nat.lt_succ_self _)
    · exact .inl hlookup
  | retrieveHandle | watchHandleDropped =>
    cases hstep
    exact ⟨Nat.le_refl _, fun _ _ hlookup => .inl hlookup, .inl hsame⟩
  | takeHandle id tyname =>
    cases hstep
    unfold State.takeHandle
    split
    · exact ⟨Nat.le_refl _, fun _ _ hlookup => .inl hlookup, .inl hsame⟩
    · split
      · exact ⟨Nat.le_refl _, fun _ _ hlookup => .inl hlookup, .inl hsame⟩
      · exact ⟨Nat.le_refl _, fun _ _ hlookup => .inl (lookup_of_erase hlookup),
          .inl hsame⟩
  | dropHandle id =>
    cases hstep
    exact ⟨Nat.le_refl _, fun _ _ hlookup => .inl (lookup_of_erase hlookup),
      .inl hsame⟩
  | goOn i =>
    have hgoOn : (s.goOn i).map Prod.fst = some s' := hstep
    unfold State.goOn at hgoOn
    -- the vector of an id is removed, or a new one takes its place
    have hcleared : ∀ (s' : State) (id : FfiHandleId),
        (∀ id', s'.senders id' = if id' = id then [] else s.senders id') →
        ∀ id', s'.senders id' ⊆ s.senders id' := by
      intro s' id hsenders id'
      rw [hsenders]
      split
      · exact nil_subset _
      · exact List.Subset.refl _
    split at hgoOn
    next id existed _ =>
      cases hgoOn
      exact ⟨Nat.le_refl _, fun _ _ hlookup => .inl hlookup,
        .inl ⟨hcleared _ id (senders_erase s.handleDroppedTxs id), rfl⟩⟩
    next id _ =>
      cases hgoOn
      exact ⟨Nat.le_refl _, fun _ _ hlookup => .inl hlookup,
        .inl ⟨hcleared _ id fun id' => senders_insert s.handleDroppedTxs id id' [], rfl⟩⟩
    next id _ =>
      split at hgoOn
      · cases hgoOn
        exact ⟨Nat.le_refl _, fun _ _ hlookup => .inl hlookup, .inl hsame⟩
      next txVec htxs =>
        cases hgoOn
        refine ⟨Nat.le_refl _, fun _ _ hlookup => .inl hlookup, .inr ⟨id, ?_, rfl⟩⟩
        intro id'
        have hold : s.senders id = txVec := by
          unfold State.senders
          rw [htxs]
          rfl
        rw [hold]
        exact senders_insert s.handleDroppedTxs id id' _
    next => cases hgoOn

theorem Inv.step (hinv : Inv s) (hstep : s.step a = some s') (hlawful : Lawful s a s') :
    Inv s' := by
  obtain ⟨hstores, hhandles, hsenders⟩ := step_frame hstep
  refine ⟨?_, ?_, ?_, hlawful.watched⟩
  · intro id handle hlookup
    cases hhandles id handle hlookup with
    | inl hold => exact Nat.lt_of_lt_of_le (hinv.fresh id handle hold) hstores
    | inr hnew => exact hnew
  · intro w id number hwatcher
    refine Nat.lt_of_lt_of_le ?_ hstores
    rcases hsenders with ⟨-, hwatchers⟩ | ⟨id', -, hwatchers⟩
    · rw [hwatchers] at hwatcher
      exact hinv.watchedFresh w id number hwatcher
    · rw [hwatchers] at hwatcher
      rcases Components.of_getElem?_concat hwatcher with ⟨-, hnew⟩ | hwatcher
      · rw [Watcher.mk.injEq] at hnew
        obtain ⟨handle, hlookup, hnumber⟩ := map_eq_some_iff.mp hnew.2.symm
        rw [← hnumber]
        exact hinv.fresh id' handle hlookup
      · exact hinv.watchedFresh w id number hwatcher
  · intro id w hsender
    rcases hsenders with ⟨hsubset, hwatchers⟩ | ⟨id', heach, hwatchers⟩
    · rw [hwatchers]
      exact hinv.sendersOf id w (hsubset id hsender)
    · have hkept : w ∈ s.senders id → ∃ handle, s'.watchers[w]? = some ⟨id, handle⟩ := by
        intro hold
        obtain ⟨handle, hwatcher⟩ := hinv.sendersOf id w hold
        refine ⟨handle, ?_⟩
        rw [hwatchers, Components.getElem?_concat, if_neg (Components.ne_length hwatcher)]
        exact hwatcher
      rw [heach] at hsender
      split at hsender
      next hid =>
        rw [mem_append, mem_singleton] at hsender
        cases hsender with
        | inl hold => exact hkept (by rw [hid]; exact hold)
        | inr hw =>
          rw [hwatchers, hw, hid]
          exact ⟨_, getElem?_concat_length⟩
      next => exact hkept hsender

/-- The store is lawful in exactly the runs all of whose steps are regular. -/
theorem lawful_iff (run : List Action) :
    EachStep State.step Lawful .new run ↔
      EachStep State.step (fun s a _ => Regular s a) .new run :=
  eachStep_iff (I := Inv) (fun _ a _ _ hinv hstep => step_lawful_iff (a := a) hinv hstep)
    (fun _ a _ _ hinv hstep hlawful => hinv.step (a := a) hstep hlawful) Inv.new

/-- A handle that is taken for one of another type is gone. -/
theorem wrong_type_destroys :
    ¬ ∀ run : List Action, EachStep State.step Lawful .new run := by
  intro h
  have hall := h [.storeHandle 1 "FfiRoom", .takeHandle 1 "FfiTrack"]
  obtain ⟨-, hrest⟩ := hall _ rfl
  obtain ⟨hlawful, -⟩ := hrest _ rfl
  have hatomic := hlawful.atomic _ rfl
  exact absurd (congrArg (AList.lookup 1) hatomic) (by decide)

end LiveKit.HandleStore
