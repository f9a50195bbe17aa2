import LiveKit.Room.KeyProvider

/-!
# The key of outgoing data

The latest index is that of the last call that set a key, for whomever. It is the index to be used
if and only if that call was the one that stored a key for the sender last.
-/

namespace LiveKit.E2eeKeys

open AList List
open LiveKit.DataStream (Bytes)
open LiveKit.DataStream.Directed (convertDataPacketToEncryptedValue)
open LiveKit.RtcSession (ParticipantIdentity EncryptedValue)

/-! ## What is on record -/

theorem lastRequested_append (h es : List Event) :
    lastRequested (h ++ es) = (lastRequested es).or (lastRequested h) := by
  unfold lastRequested
  rw [map_append, LastWrite.last_append]

/-! ## The invariant -/

/-- What is on record is what is in the key provider. -/
structure Inv (h : List Event) (s : State) : Prop where
  latest : s.keyProvider.latestKeyIndex = (lastRequested h).getD 0
  stored : ∀ owner keyIndex, .stored owner keyIndex ∈ h ↔
    AList.lookup (owner, keyIndex) s.keyProvider.handle.keys ≠ none
  renewed : ∀ owner keyIndex, .ratcheted owner keyIndex ∈ h →
    AList.lookup (owner, keyIndex) s.keyProvider.handle.keys ≠ none
  requested : ∀ owner keyIndex, .stored owner keyIndex ∈ h → lastRequested h ≠ none

theorem Inv.new (localIdentity : ParticipantIdentity) (sharedKey : Option Bytes) :
    Inv (created sharedKey) (State.new localIdentity sharedKey) := by
  cases sharedKey with
  | none =>
    refine ⟨rfl, ?_, ?_, ?_⟩
    · intro owner keyIndex
      exact ⟨fun hmem => absurd hmem not_mem_nil, fun hne => absurd rfl hne⟩
    · exact fun _ _ hmem => absurd hmem not_mem_nil
    · exact fun _ _ hmem => absurd hmem not_mem_nil
  | some key =>
    refine ⟨rfl, ?_, ?_, ?_⟩
    · intro owner keyIndex
      show _ ↔ lookup (owner, keyIndex) (insert (Owner.ring, (0 : Int32)) key
        (∅ : AssocMap (Owner × Int32) Bytes)) ≠ none
      rw [AssocMap.lookup_insert_ite]
      by_cases heq : (owner, keyIndex) = (Owner.ring, (0 : Int32))
      · rw [if_pos heq]
        cases heq
        exact ⟨fun _ => nofun, fun _ => mem_cons_of_mem _ (mem_singleton.mpr rfl)⟩
      · rw [if_neg heq]
        refine ⟨fun hmem => ?_, fun hne => absurd rfl hne⟩
        rcases mem_cons.mp hmem with hbad | hmem
        · cases hbad
        · cases mem_singleton.mp hmem
          exact absurd rfl heq
    · intro owner keyIndex hmem
      rcases mem_cons.mp hmem with hbad | hmem
      · cases hbad
      · cases mem_singleton.mp hmem
    · exact fun _ _ _ => nofun

section

variable {h : List Event} {s : State}

/-- A call that sets a key, which may be stored. -/
theorem Inv.set (hinv : Inv h s) (owner : Owner) (keyIndex : Int32) (key : Bytes)
    (accepted : Bool) :
    Inv (h ++ (.requested keyIndex :: if accepted then [.stored owner keyIndex] else []))
      { s with keyProvider :=
        ⟨if accepted then { s.keyProvider.handle with
            keys := insert (owner, keyIndex) key s.keyProvider.handle.keys }
          else s.keyProvider.handle, keyIndex⟩ } := by
  have hlast : lastRequested (h ++ (.requested keyIndex ::
      if accepted then [.stored owner keyIndex] else [])) = some keyIndex := by
    rw [lastRequested_append]
    cases accepted <;> rfl
  cases accepted with
  | false =>
    have hmem : ∀ e : Event, e ∈ h ++ [.requested keyIndex] ↔
        e ∈ h ∨ e = .requested keyIndex := by
      intro e
      rw [mem_append, mem_singleton]
    refine ⟨?_, ?_, ?_, ?_⟩
    · rw [hlast]
      rfl
    · intro owner' keyIndex'
      refine ((hmem _).trans ⟨?_, .inl⟩).trans (hinv.stored owner' keyIndex')
      exact fun hor => hor.resolve_right nofun
    · intro owner' keyIndex' hratcheted
      exact hinv.renewed owner' keyIndex' (((hmem _).mp hratcheted).resolve_right nofun)
    · intro owner' keyIndex' _
      rw [hlast]
      exact nofun
  | true =>
    have hmem : ∀ e : Event, e ∈ h ++ [.requested keyIndex, .stored owner keyIndex] ↔
        e ∈ h ∨ e = .requested keyIndex ∨ e = .stored owner keyIndex := by
      intro e
      rw [mem_append, mem_cons, mem_singleton]
    refine ⟨?_, ?_, ?_, ?_⟩
    · rw [hlast]
      rfl
    · intro owner' keyIndex'
      show _ ∈ h ++ [.requested keyIndex, .stored owner keyIndex] ↔
        lookup (owner', keyIndex') (insert (owner, keyIndex) key
          s.keyProvider.handle.keys) ≠ none
      rw [hmem, hinv.stored, AssocMap.lookup_insert_ite]
      -- the key just stored, or one stored before
      by_cases heq : (owner', keyIndex') = (owner, keyIndex)
      · rw [if_pos heq]
        cases heq
        exact ⟨fun _ => nofun, fun _ => .inr (.inr rfl)⟩
      · rw [if_neg heq]
        refine ⟨fun hor => ?_, .inl⟩
        rcases hor with hne | hbad | hbad
        · exact hne
        · cases hbad
        · cases hbad
          exact absurd rfl heq
    · intro owner' keyIndex' hratcheted
      show lookup (owner', keyIndex') (insert (owner, keyIndex) key
        s.keyProvider.handle.keys) ≠ none
      rw [AssocMap.lookup_insert_ite]
      split
      · exact nofun
      · rcases (hmem _).mp hratcheted with hold | hbad | hbad
        · exact hinv.renewed owner' keyIndex' hold
        · cases hbad
        · cases hbad
    · intro owner' keyIndex' _
      rw [hlast]
      exact nofun

/-- A key is ratcheted, if it is there. -/
theorem Inv.ratchet (hinv : Inv h s) (ratchet : Bytes → Bytes) (owner : Owner)
    (keyIndex : Int32) : Inv (h ++ ratcheted s owner keyIndex)
      { s with keyProvider := s.keyProvider.ratchetKey ratchet owner keyIndex } := by
  unfold KeyProvider.ratchetKey NativeKeyProvider.ratchetKey ratcheted
  cases hlookup : lookup (owner, keyIndex) s.keyProvider.handle.keys with
  | none =>
    rw [if_neg (by simp), append_nil]
    exact hinv
  | some key =>
    rw [if_pos (by simp)]
    -- there are the same keys as before
    have hsame : ∀ owner' keyIndex', lookup (owner', keyIndex')
        (insert (owner, keyIndex) (ratchet key) s.keyProvider.handle.keys) ≠ none ↔
          lookup (owner', keyIndex') s.keyProvider.handle.keys ≠ none := by
      intro owner' keyIndex'
      rw [AssocMap.lookup_insert_ite]
      by_cases heq : (owner', keyIndex') = (owner, keyIndex)
      · rw [if_pos heq, heq, hlookup]
        exact ⟨fun _ => nofun, fun _ => nofun⟩
      · rw [if_neg heq]
    have hmem : ∀ e : Event, e ∈ h ++ [.ratcheted owner keyIndex] ↔
        e ∈ h ∨ e = .ratcheted owner keyIndex := by
      intro e
      rw [mem_append, mem_singleton]
    have hlast : lastRequested (h ++ [.ratcheted owner keyIndex]) = lastRequested h := by
      rw [lastRequested_append]
      rfl
    refine ⟨?_, ?_, ?_, ?_⟩
    · rw [hlast]
      exact hinv.latest
    · intro owner' keyIndex'
      rw [hmem, hsame, ← hinv.stored]
      exact ⟨fun hor => hor.resolve_right nofun, .inl⟩
    · intro owner' keyIndex' hratcheted
      rw [hsame]
      rcases (hmem _).mp hratcheted with hold | hnew
      · exact hinv.renewed owner' keyIndex' hold
      · cases hnew
        rw [hlookup]
        exact nofun
    · intro owner' keyIndex' hstored
      rw [hlast]
      exact hinv.requested owner' keyIndex' (((hmem _).mp hstored).resolve_right nofun)

/-- What is encrypted leaves the keys as they are. -/
theorem Inv.encrypted (hinv : Inv h s) {es : List Event}
    (hes : ∀ e ∈ es, ∃ identity index data, e = .encrypted identity index data) :
    Inv (h ++ es) s := by
  have hmem : ∀ e : Event, (∀ identity index data, e ≠ .encrypted identity index data) →
      (e ∈ h ++ es ↔ e ∈ h) := by
    intro e hother
    rw [mem_append, or_iff_left]
    intro hnew
    obtain ⟨identity, index, data, heq⟩ := hes e hnew
    exact hother identity index data heq
  have hlast : lastRequested (h ++ es) = lastRequested h := by
    rw [lastRequested_append]
    have hnone : lastRequested es = none := by
      cases hsome : lastRequested es with
      | none => rfl
      | some keyIndex =>
        obtain ⟨e, he, hindex⟩ := mem_map.mp (LastWrite.mem_of_last hsome)
        obtain ⟨_, _, _, rfl⟩ := hes e he
        cases hindex
    rw [hnone, Option.none_or]
  refine ⟨?_, ?_, ?_, ?_⟩
  · rw [hlast]
    exact hinv.latest
  · intro owner keyIndex
    rw [hmem _ (fun _ _ _ hbad => by cases hbad)]
    exact hinv.stored owner keyIndex
  · intro owner keyIndex hold
    rw [hmem _ (fun _ _ _ hbad => by cases hbad)] at hold
    exact hinv.renewed owner keyIndex hold
  · intro owner keyIndex hold
    rw [hmem _ (fun _ _ _ hbad => by cases hbad)] at hold
    rw [hlast]
    exact hinv.requested owner keyIndex hold

/-- Every step keeps what is on record. -/
theorem Inv.step {s' : State} {a : Action} {ratchet : Bytes → Bytes}
    (encodePayload : EncryptedValue → Bytes) (hinv : Inv h s)
    (hstep : step ratchet s a = some s') : Inv (h ++ record encodePayload s a) s' := by
  cases a with
  | setKey identity keyIndex key accepted =>
    cases hstep
    exact hinv.set (.participant identity) keyIndex key accepted
  | setSharedKey key keyIndex =>
    cases hstep
    exact hinv.set .ring keyIndex key s.keyProvider.handle.sharedKey
  | ratchetKey identity keyIndex =>
    cases hstep
    exact hinv.ratchet ratchet (.participant identity) keyIndex
  | ratchetSharedKey keyIndex =>
    cases hstep
    exact hinv.ratchet ratchet .ring keyIndex
  | publishData isDcEncryptionEnabled value =>
    cases hstep
    refine hinv.encrypted ?_
    intro e he
    unfold record at he
    dsimp only at he
    split at he
    · split at he
      · exact ⟨_, _, _, mem_singleton.mp he⟩
      · cases he
    · cases he
  | encrypt payload =>
    cases hstep
    refine hinv.encrypted ?_
    intro e he
    exact ⟨_, _, _, mem_singleton.mp he⟩

/-! ## The index of the latest key -/

/-- No two indices are one when they are cast. -/
theorem toUInt32_inj {i j : Int32} (hij : i.toUInt32 = j.toUInt32) : i = j := by
  cases i
  cases j
  exact congrArg Int32.ofUInt32 hij

section

variable (hinv : Inv h s) (ratchetStores : Bool)
include hinv

/-- What was stored for the sender is there. -/
theorem Inv.lookup_lastStored {keyIndex : Int32}
    (hlast : lastStored ratchetStores s.owner h = some keyIndex) :
    lookup (s.owner, keyIndex) s.keyProvider.handle.keys ≠ none := by
  obtain ⟨e, he, hindex⟩ := mem_map.mp (LastWrite.mem_of_last hlast)
  cases e with
  | requested | encrypted => cases hindex
  | stored owner keyIndex' =>
    unfold storedIndex at hindex
    obtain ⟨howner, ⟨⟩⟩ := TransitionSystem.of_guard hindex
    rw [← howner]
    exact (hinv.stored owner keyIndex).mp he
  | ratcheted owner keyIndex' =>
    unfold storedIndex at hindex
    obtain ⟨howner, ⟨⟩⟩ := TransitionSystem.of_guard hindex
    rw [← howner.2]
    exact hinv.renewed owner keyIndex he

/-- The sender has a key if one was stored. -/
theorem Inv.hasKey_iff : s.HasKey ↔ lastStored ratchetStores s.owner h ≠ none := by
  constructor
  · rintro ⟨keyIndex, hlookup⟩
    have hstored := (hinv.stored s.owner keyIndex).mpr hlookup
    have hindex : storedIndex ratchetStores s.owner (.stored s.owner keyIndex) = some keyIndex :=
      if_pos rfl
    exact LastWrite.last_ne_none (mem_map.mpr ⟨_, hstored, hindex⟩)
  · intro hne
    obtain ⟨keyIndex, hlast⟩ := Option.ne_none_iff_exists'.mp hne
    exact ⟨keyIndex, hinv.lookup_lastStored ratchetStores hlast⟩

/-- Where the sender has a key, the latest index is that of the last call. -/
theorem Inv.lastRequested_eq (hkey : s.HasKey) :
    lastRequested h = some s.keyProvider.latestKeyIndex := by
  obtain ⟨keyIndex, hlookup⟩ := hkey
  have hne := hinv.requested s.owner keyIndex ((hinv.stored s.owner keyIndex).mpr hlookup)
  obtain ⟨last, hlast⟩ := Option.ne_none_iff_exists'.mp hne
  rw [hinv.latest, hlast]
  rfl

/-- The latest index is the right one if the last call stored a key for the sender. -/
theorem Inv.used_iff :
    (s.HasKey → ∃ keyIndex : Int32, s.keyIndex = keyIndex.toUInt32 ∧
        lookup (s.owner, keyIndex) s.keyProvider.handle.keys ≠ none ∧
        lastStored ratchetStores s.owner h = some keyIndex) ↔
      (lastStored ratchetStores s.owner h ≠ none →
        lastRequested h = lastStored ratchetStores s.owner h) := by
  rw [← hinv.hasKey_iff ratchetStores]
  constructor
  · intro hused hkey
    obtain ⟨keyIndex, hindex, -, hlast⟩ := hused hkey
    rw [hlast, hinv.lastRequested_eq hkey]
    exact congrArg some (toUInt32_inj hindex)
  · intro hsame hkey
    have hlast := (hsame hkey).symm.trans (hinv.lastRequested_eq hkey)
    exact ⟨_, rfl, hinv.lookup_lastStored ratchetStores hlast, hlast⟩

/-- The key of another participant. -/
theorem Inv.kept_iff (keyIndex : Int32) :
    (s.HasKey → keyIndex.toUInt32 = s.keyIndex) ↔
      (lastStored ratchetStores s.owner h ≠ none → lastRequested h = some keyIndex) := by
  rw [← hinv.hasKey_iff ratchetStores]
  constructor
  · intro hkept hkey
    rw [hinv.lastRequested_eq hkey]
    exact congrArg some (toUInt32_inj (hkept hkey)).symm
  · intro hlast hkey
    have heq := (hinv.lastRequested_eq hkey).symm.trans (hlast hkey)
    rw [Option.some.injEq] at heq
    rw [← heq]
    rfl

/-- The condition on a step is exact. -/
theorem Inv.rightKey_iff {s' : State} {a : Action} {ratchet : Bytes → Bytes}
    (encodePayload : EncryptedValue → Bytes) (hstep : E2eeKeys.step ratchet s a = some s') :
    RightKey ratchetStores encodePayload h s a s' ↔ OwnKeyLast ratchetStores h s a := by
  have hused := hinv.used_iff ratchetStores
  cases a with
  | setKey identity keyIndex key accepted =>
    cases hstep
    -- setting a key uses none; the key of the others must be kept
    have hkept := hinv.kept_iff ratchetStores keyIndex
    constructor
    · intro hright hother
      exact hkept.mp (hright.kept identity keyIndex key accepted rfl hother)
    · intro hown
      refine ⟨?_, ?_⟩
      · intro _ _ _ hmem
        unfold record at hmem
        cases accepted <;> simp at hmem
      · rintro identity' keyIndex' key' accepted' heq hother
        cases heq
        exact hkept.mpr (hown hother)
  | publishData isDcEncryptionEnabled value =>
    constructor
    · intro hright henabled hvalue
      -- only an encrypted packet uses a key
      obtain ⟨encrypted, hencrypted⟩ := Option.ne_none_iff_exists'.mp hvalue
      refine hused.mp (hright.used s.localIdentity s.keyIndex (encodePayload encrypted) ?_)
      unfold record
      dsimp only
      rw [if_pos henabled, hencrypted]
      exact mem_singleton.mpr rfl
    · intro hown
      refine ⟨?_, nofun⟩
      intro identity index data hmem
      unfold record at hmem
      dsimp only at hmem
      split at hmem
      · next henabled =>
        split at hmem
        · next encrypted hencrypted =>
          cases mem_singleton.mp hmem
          refine hused.mpr (hown henabled ?_)
          rw [hencrypted]
          exact nofun
        · cases hmem
      · cases hmem
  | encrypt payload =>
    constructor
    · intro hright
      exact hused.mp (hright.used s.localIdentity s.keyIndex payload (mem_singleton.mpr rfl))
    · intro hown
      refine ⟨?_, nofun⟩
      intro identity index data hmem
      cases mem_singleton.mp hmem
      exact hused.mpr hown
  | setSharedKey key keyIndex =>
    refine ⟨fun _ => trivial, fun _ => ⟨?_, nofun⟩⟩
    intro _ _ _ hmem
    unfold record at hmem
    dsimp only at hmem
    split at hmem <;> simp at hmem
  | ratchetKey | ratchetSharedKey =>
    refine ⟨fun _ => trivial, fun _ => ⟨?_, nofun⟩⟩
    intro _ _ _ hmem
    unfold record ratcheted at hmem
    dsimp only at hmem
    split at hmem <;> simp at hmem

end

end

/-- Whatever the key operations, what is sent is encrypted with the key that was stored last for the
sender if and only if the last call that set a key was the one that stored it; whether or not a key
that is ratcheted counts as stored anew. -/
theorem right_key_iff (ratchet : Bytes → Bytes) (encodePayload : EncryptedValue → Bytes)
    (ratchetStores : Bool) (localIdentity : ParticipantIdentity) (sharedKey : Option Bytes)
    (run : List Action) :
    TransitionSystem.EachStepOn (step ratchet) (record encodePayload)
        (RightKey ratchetStores encodePayload) (created sharedKey)
        (State.new localIdentity sharedKey) run ↔
      TransitionSystem.EachStepOn (step ratchet) (record encodePayload)
        (fun h s a _ => OwnKeyLast ratchetStores h s a) (created sharedKey)
        (State.new localIdentity sharedKey) run := by
  have hnew := Inv.new localIdentity sharedKey
  constructor
  · intro hright
    refine TransitionSystem.EachStepOn.of_invariant (I := Inv) ?_ hnew hright
    intro h s a s' hinv hstep hQ
    exact ⟨hinv.step encodePayload hstep,
      (hinv.rightKey_iff ratchetStores encodePayload hstep).mp hQ⟩
  · intro hown
    refine TransitionSystem.EachStepOn.of_invariant (I := Inv) ?_ hnew hown
    intro h s a s' hinv hstep hQ
    exact ⟨hinv.step encodePayload hstep,
      (hinv.rightKey_iff ratchetStores encodePayload hstep).mpr hQ⟩

/-- A key for the local participant, then one for another under the next index: a frame is to be
encrypted with a key that the local participant does not have. -/
theorem index_of_other :
    ¬ ∀ (ratchet : Bytes → Bytes) (encodePayload : EncryptedValue → Bytes) (ratchetStores : Bool)
      (localIdentity : ParticipantIdentity) (sharedKey : Option Bytes) (run : List Action),
        TransitionSystem.EachStepOn (step ratchet) (record encodePayload)
          (RightKey ratchetStores encodePayload) (created sharedKey)
          (State.new localIdentity sharedKey) run := by
  intro hall
  have hrun := hall id (fun _ => []) false "alice" none
    [.setKey "alice" 0 [1] true, .setKey "bob" 1 [2] true, .encrypt [3]]
  obtain ⟨-, hrun⟩ := hrun _ rfl
  obtain ⟨-, hrun⟩ := hrun _ rfl
  obtain ⟨hright, -⟩ := hrun _ rfl
  obtain ⟨keyIndex, hindex, -, hlast⟩ :=
    hright.used "alice" 1 [3] (mem_singleton.mpr rfl) ⟨0, by decide⟩
  have hzero : lastStored false (.participant "alice") [.requested 0,
      .stored (.participant "alice") 0, .requested 1, .stored (.participant "bob") 1] = some 0 := by
    decide
  cases hzero.symm.trans hlast
  exact absurd hindex (by decide)

end LiveKit.E2eeKeys
