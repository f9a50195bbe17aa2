import LiveKit.Room.E2eeManager

/-!
# When every cryptor is enabled as the manager is

The flag of the manager is read in one section and the cryptor inserted in another, so what is set
in between does not reach the cryptor.
-/

namespace LiveKit.E2ee

open List Option TransitionSystem

variable {s s' : State} {i : ℕ} {call call' : Call} {key : Key} {cryptor : ℕ}

/-! ## What the sections do -/

theorem mem_frameCryptors (s : State) (cryptor : ℕ) :
    s.frameCryptors.entries.any (fun entry => entry.2 = cryptor) = true ↔
      ∃ key, s.frameCryptors.lookup key = some cryptor := by
  rw [List.any_eq_true]
  constructor
  · rintro ⟨⟨key, cryptor'⟩, hmem, heq⟩
    obtain rfl : cryptor' = cryptor := of_decide_eq_true heq
    exact ⟨key, AList.mem_lookup_iff.mpr hmem⟩
  · rintro ⟨key, hlookup⟩
    exact ⟨⟨key, cryptor⟩, AList.mem_lookup_iff.mp hlookup, decide_eq_true rfl⟩

theorem length_setCryptors (s : State) (enabled : Bool) :
    (s.setCryptors enabled).length = s.cryptors.length := length_mapIdx

/-- What is known is enabled or disabled. -/
theorem enabled_setCryptors {enabled : Bool} (hknown : s.frameCryptors.lookup key = some cryptor)
    (hlt : cryptor < s.cryptors.length) :
    (s.setCryptors enabled)[cryptor]?.map FrameCryptor.enabled = some enabled := by
  unfold State.setCryptors
  rw [getElem?_mapIdx, getElem?_eq_getElem hlt, map_some, map_some,
    if_pos ((mem_frameCryptors s cryptor).mpr ⟨key, hknown⟩)]

/-- What a turn of a call can do. -/
theorem turn_cases (h : step s (.turn i) = some s') :
    ∃ call, s.calls[i]? = some call ∧
      ((∃ progress, call.progress = .called ∧
          (progress = .finished none ∧ (s.initialized = false ∨ call.encryptionType = .none) ∨
            progress = .initialized) ∧
          s' = { s with calls := s.calls.set i { call with progress } }) ∨
        (call.progress = .initialized ∧ s' = s.setup i call) ∨
        ∃ cryptor, call.progress = .setUp cryptor ∧ s' = s.insert i call cryptor) := by
  obtain ⟨call, hcall, h⟩ := bind_eq_some_iff.mp h
  refine ⟨call, hcall, ?_⟩
  cases hprogress : call.progress with
  | called =>
    rw [hprogress] at h
    obtain rfl := some.inj h
    refine .inl ⟨_, rfl, ?_, rfl⟩
    by_cases hnone : ¬ s.initialized = true ∨ call.encryptionType = .none
    · refine .inl ⟨if_pos hnone, hnone.imp_left eq_false_of_ne_true⟩
    · exact .inr (if_neg hnone)
  | initialized =>
    rw [hprogress] at h
    exact .inr (.inl ⟨rfl, (some.inj h).symm⟩)
  | setUp cryptor =>
    rw [hprogress] at h
    exact .inr (.inr ⟨cryptor, rfl, (some.inj h).symm⟩)
  | finished cryptor =>
    rw [hprogress] at h
    cases h

/-! ## Every call has a cryptor of its own -/

structure Numbered (s : State) : Prop where
  lt : ∀ (i : ℕ) call cryptor, s.calls[i]? = some call → call.cryptor = some cryptor →
    cryptor < s.cryptors.length
  distinct : ∀ (i j : ℕ) call call' cryptor, s.calls[i]? = some call → s.calls[j]? = some call' →
    call.cryptor = some cryptor → call'.cryptor = some cryptor → i = j

/-- A call that keeps its cryptor changes nothing. -/
theorem Numbered.set (h : Numbered s) (hcall : s.calls[i]? = some call)
    (hsame : call'.cryptor = call.cryptor) (hcalls : s'.calls = s.calls.set i call')
    (hlength : s'.cryptors.length = s.cryptors.length) : Numbered s' := by
  -- every call has the cryptor it had
  have hold : ∀ (j : ℕ) other, s'.calls[j]? = some other →
      ∃ other', s.calls[j]? = some other' ∧ other'.cryptor = other.cryptor := by
    intro j other hother
    rcases Components.of_getElem?_set hcall (hcalls ▸ hother) with ⟨rfl, rfl⟩ | ⟨-, hother⟩
    · exact ⟨call, hcall, hsame.symm⟩
    · exact ⟨other, hother, rfl⟩
  constructor
  · intro j other cryptor hother hcryptor
    obtain ⟨other', hother', heq⟩ := hold j other hother
    rw [hlength]
    exact h.lt j other' cryptor hother' (heq.trans hcryptor)
  · intro j k other₁ other₂ cryptor h₁ h₂ hcryptor₁ hcryptor₂
    obtain ⟨old₁, hold₁, heq₁⟩ := hold j other₁ h₁
    obtain ⟨old₂, hold₂, heq₂⟩ := hold k other₂ h₂
    exact h.distinct j k old₁ old₂ cryptor hold₁ hold₂ (heq₁.trans hcryptor₁)
      (heq₂.trans hcryptor₂)

/-- What does not change the calls. -/
theorem Numbered.same (h : Numbered s) (hcalls : s'.calls = s.calls)
    (hlength : s'.cryptors.length = s.cryptors.length) : Numbered s' := by
  constructor
  · intro j other cryptor hother hcryptor
    rw [hlength]
    exact h.lt j other cryptor (hcalls ▸ hother) hcryptor
  · intro j k other₁ other₂ cryptor h₁ h₂
    exact h.distinct j k other₁ other₂ cryptor (hcalls ▸ h₁) (hcalls ▸ h₂)

theorem Numbered.attach (h : Numbered s) (call : Call) (hnone : call.cryptor = none) :
    Numbered { s with calls := s.calls ++ [call] } := by
  -- the new call has none
  have hold : ∀ (j : ℕ) other cryptor, (s.calls ++ [call])[j]? = some other →
      other.cryptor = some cryptor → s.calls[j]? = some other := by
    intro j other cryptor hother hcryptor
    rcases Components.of_getElem?_concat hother with ⟨-, rfl⟩ | hother
    · cases hnone.symm.trans hcryptor
    · exact hother
  constructor
  · intro j other cryptor hother hcryptor
    exact h.lt j other cryptor (hold j other cryptor hother hcryptor) hcryptor
  · intro j k other₁ other₂ cryptor h₁ h₂ hcryptor₁ hcryptor₂
    exact h.distinct j k other₁ other₂ cryptor (hold j other₁ cryptor h₁ hcryptor₁)
      (hold k other₂ cryptor h₂ hcryptor₂) hcryptor₁ hcryptor₂

theorem Numbered.setup (h : Numbered s) (hcall : s.calls[i]? = some call) :
    Numbered (s.setup i call) := by
  have hlength : (s.setup i call).cryptors.length = s.cryptors.length + 1 := length_append
  -- a cryptor is that of an old call, or the new one
  have hold : ∀ (j : ℕ) other cryptor, (s.setup i call).calls[j]? = some other →
      other.cryptor = some cryptor → j = i ∧ cryptor = s.cryptors.length ∨
        s.calls[j]? = some other := by
    intro j other cryptor hother hcryptor
    change (s.calls.set i _)[j]? = some other at hother
    rcases Components.of_getElem?_set hcall hother with ⟨hj, rfl⟩ | ⟨-, hother⟩
    · exact .inl ⟨hj, (some.inj hcryptor).symm⟩
    · exact .inr hother
  constructor
  · intro j other cryptor hother hcryptor
    rw [hlength]
    rcases hold j other cryptor hother hcryptor with ⟨-, rfl⟩ | hother'
    · exact Nat.lt_succ_self _
    · exact Nat.lt_succ_of_lt (h.lt j other cryptor hother' hcryptor)
  · intro j k other₁ other₂ cryptor h₁ h₂ hcryptor₁ hcryptor₂
    rcases hold j other₁ cryptor h₁ hcryptor₁ with ⟨hj, hnew⟩ | hold₁
    · rcases hold k other₂ cryptor h₂ hcryptor₂ with ⟨hk, -⟩ | hold₂
      · exact hj.trans hk.symm
      · have hlt := h.lt k other₂ cryptor hold₂ hcryptor₂
        omega
    · rcases hold k other₂ cryptor h₂ hcryptor₂ with ⟨-, hnew⟩ | hold₂
      · have hlt := h.lt j other₁ cryptor hold₁ hcryptor₁
        omega
      · exact h.distinct j k other₁ other₂ cryptor hold₁ hold₂ hcryptor₁ hcryptor₂

theorem Call.Attached.cryptor_eq (h : call.Attached cryptor) : call.cryptor = some cryptor := by
  unfold Call.cryptor
  rw [h.2]

/-! ## What holds of every state -/

structure Base (s : State) : Prop where
  numbered : Numbered s
  complete : ∀ call ∈ s.calls, s.initialized = true → call.encryptionType ≠ .none →
    call.progress ≠ .finished none

theorem base_new (initialized : Bool) : Base (State.new initialized) := by
  refine ⟨⟨?_, ?_⟩, ?_⟩
  · intro j call cryptor hcall
    cases hcall
  · intro j k call call' cryptor hcall
    cases hcall
  · intro call hmem
    cases hmem

theorem Base.lt (h : Base s) (hmem : call ∈ s.calls) (hattached : call.Attached cryptor) :
    cryptor < s.cryptors.length := by
  obtain ⟨j, hj⟩ := getElem?_of_mem hmem
  exact h.numbered.lt j call cryptor hj hattached.cryptor_eq

theorem Base.set (h : Base s) (hnumbered : Numbered s') (hcalls : s'.calls = s.calls.set i call')
    (hinitialized : s'.initialized = s.initialized)
    (hcomplete : s.initialized = true → call'.encryptionType ≠ .none →
      call'.progress ≠ .finished none) : Base s' := by
  refine ⟨hnumbered, ?_⟩
  intro other hmem hinit
  rw [hinitialized] at hinit
  rw [hcalls] at hmem
  rcases mem_or_eq_of_mem_set hmem with hold | rfl
  · exact h.complete other hold hinit
  · exact hcomplete hinit

theorem Base.same (h : Base s) (hcalls : s'.calls = s.calls)
    (hlength : s'.cryptors.length = s.cryptors.length)
    (hinitialized : s'.initialized = s.initialized) : Base s' := by
  refine ⟨h.numbered.same hcalls hlength, ?_⟩
  rw [hcalls, hinitialized]
  exact h.complete

/-- Every step keeps the numbers of the cryptors. -/
theorem base_step {a : Action} (h : Base s) (hstep : step s a = some s') : Base s' := by
  cases a with
  | setEnabled enabled =>
    obtain rfl := some.inj hstep
    unfold State.setEnabled
    split
    · exact h
    · exact h.same rfl (length_setCryptors s enabled) rfl
  | cleanup =>
    obtain rfl := some.inj hstep
    exact h.same rfl (length_setCryptors s false) rfl
  | attach key encryptionType =>
    obtain rfl := some.inj hstep
    refine ⟨h.numbered.attach _ rfl, ?_⟩
    intro call hmem hinit
    rcases mem_append.mp hmem with hold | hnew
    · exact h.complete call hold hinit
    · obtain rfl := mem_singleton.mp hnew
      intro _ hprogress
      cases hprogress
  | turn i =>
    obtain ⟨call, hcall, hcases⟩ := turn_cases hstep
    rcases hcases with ⟨progress, hcalled, hprogress, rfl⟩ | ⟨hinit, rfl⟩ | ⟨cryptor, hsetUp, rfl⟩
    · have hsame : (Call.mk call.key call.encryptionType call.live progress).cryptor =
          call.cryptor := by
        unfold Call.cryptor
        rw [hcalled]
        rcases hprogress with ⟨rfl, -⟩ | rfl <;> rfl
      refine h.set (h.numbered.set hcall hsame rfl rfl) rfl rfl fun hinitialized hencrypted => ?_
      rcases hprogress with ⟨-, huninitialized | hplain⟩ | rfl
      · rw [huninitialized] at hinitialized
        cases hinitialized
      · exact absurd hplain hencrypted
      · intro hbad
        cases hbad
    · refine h.set (h.numbered.setup hcall) rfl rfl fun _ _ hbad => ?_
      cases hbad
    · have hsame : (Call.mk call.key call.encryptionType call.live
          (.finished (some cryptor))).cryptor = call.cryptor := by
        unfold Call.cryptor
        rw [hsetUp]
      refine h.set (h.numbered.set hcall hsame rfl rfl) rfl rfl fun _ _ hbad => ?_
      cases hbad
  | detach i =>
    obtain ⟨call, hcall, heq⟩ := bind_eq_some_iff.mp hstep
    obtain rfl := some.inj heq
    have hsame : (Call.mk call.key call.encryptionType false call.progress).cryptor =
        call.cryptor := rfl
    exact h.set (h.numbered.set hcall hsame rfl rfl) rfl rfl
      (h.complete call (mem_of_getElem? hcall))
  | remove key =>
    unfold step at hstep
    rw [ite_none_right_eq_some] at hstep
    obtain rfl := some.inj hstep.2
    exact h.same rfl rfl rfl

/-! ## Which steps keep what is promised -/

theorem Reached.of_eq (h : Reached s key cryptor) (hcryptors : s'.cryptors = s.cryptors)
    (henabled : s'.enabled = s.enabled)
    (hknown : s'.frameCryptors.lookup key = s.frameCryptors.lookup key) :
    Reached s' key cryptor := by
  refine ⟨hknown.trans h.known, ?_⟩
  rw [hcryptors, henabled]
  exact h.enabled

theorem reaches_setEnabled (enabled : Bool) (h : Base s) (hreaches : ReachesFinished s) :
    ReachesFinished (s.setEnabled enabled) := by
  unfold State.setEnabled
  split
  · exact hreaches
  · intro call hmem cryptor hattached
    have hreached := hreaches call hmem cryptor hattached
    exact ⟨hreached.known, enabled_setCryptors hreached.known (h.lt hmem hattached)⟩

/-- Clearing the map reaches all where nothing is attached. -/
theorem reaches_cleanup_iff :
    ReachesFinished s.cleanup ↔ ∀ call ∈ s.calls, ∀ cryptor, ¬ call.Attached cryptor := by
  constructor
  · intro hreaches call hmem cryptor hattached
    have hknown := (hreaches call hmem cryptor hattached).known
    cases hknown
  · intro hnone call hmem cryptor hattached
    exact absurd hattached (hnone call hmem cryptor)

/-- A call that is not attached does not count. -/
theorem reaches_set (hreaches : ReachesFinished s) (hcalls : s'.calls = s.calls.set i call')
    (hnone : ∀ cryptor, ¬ call'.Attached cryptor)
    (hkept : ∀ key cryptor, Reached s key cryptor → Reached s' key cryptor) :
    ReachesFinished s' := by
  intro other hmem cryptor hattached
  rw [hcalls] at hmem
  rcases mem_or_eq_of_mem_set hmem with hold | rfl
  · exact hkept _ _ (hreaches other hold cryptor hattached)
  · exact absurd hattached (hnone cryptor)

theorem reaches_setup (hreaches : ReachesFinished s) : ReachesFinished (s.setup i call) := by
  refine reaches_set hreaches rfl (fun cryptor hattached => ?_) fun key cryptor hreached => ?_
  · cases hattached.2
  · refine ⟨hreached.known, ?_⟩
    obtain ⟨c, hc, henabled⟩ := map_eq_some_iff.mp hreached.enabled
    have hlt := (List.getElem?_eq_some_iff.mp hc).1
    show (s.cryptors ++ [_])[cryptor]?.map FrameCryptor.enabled = some s.enabled
    rw [getElem?_append_left hlt]
    exact hreached.enabled

/-- An insertion reaches all if the cryptor is as enabled as the manager and takes no place. -/
theorem reaches_insert_iff (h : Base s) (hreaches : ReachesFinished s)
    (hcall : s.calls[i]? = some call) (hsetUp : call.progress = .setUp cryptor) :
    ReachesFinished (s.insert i call cryptor) ↔
      (call.live → s.cryptors[cryptor]?.map FrameCryptor.enabled = some s.enabled) ∧
        ∀ other ∈ s.calls, other.key = call.key → ∀ cryptor', ¬ other.Attached cryptor' := by
  have hlookup : ∀ key, (s.insert i call cryptor).frameCryptors.lookup key =
      if key = call.key then some cryptor else s.frameCryptors.lookup key :=
    fun key => AssocMap.lookup_insert_ite _ _ _ _
  constructor
  · intro hkept
    constructor
    · intro hlive
      have hmem : (Call.mk call.key call.encryptionType call.live (.finished (some cryptor))) ∈
          (s.insert i call cryptor).calls :=
        List.mem_set (List.getElem?_eq_some_iff.mp hcall).1 _
      exact (hkept _ hmem cryptor ⟨hlive, rfl⟩).enabled
    · intro other hmem hkey cryptor' hattached
      obtain ⟨j, hj⟩ := getElem?_of_mem hmem
      -- the call has not finished, so it is another one
      have hne : j ≠ i := by
        rintro rfl
        obtain rfl := some.inj (hcall.symm.trans hj)
        cases hsetUp.symm.trans hattached.2
      have hother : (s.insert i call cryptor).calls[j]? = some other := by
        show (s.calls.set i _)[j]? = some other
        rw [Components.getElem?_set hcall, if_neg hne]
        exact hj
      -- the key is that of the new cryptor now
      have hknown := (hkept other (mem_of_getElem? hother) cryptor' hattached).known
      rw [hlookup, if_pos hkey] at hknown
      obtain rfl := some.inj hknown
      have hcryptor : call.cryptor = some cryptor := by
        unfold Call.cryptor
        rw [hsetUp]
      exact hne (h.numbered.distinct j i other call cryptor hj hcall hattached.cryptor_eq hcryptor)
  · rintro ⟨henabled, hother⟩ other hmem cryptor' hattached
    rcases mem_or_eq_of_mem_set hmem with hold | rfl
    · refine (hreaches other hold cryptor' hattached).of_eq rfl rfl ?_
      rw [hlookup, if_neg fun hkey => hother other hold hkey cryptor' hattached]
    · obtain rfl : cryptor = cryptor' := some.inj (Progress.finished.inj hattached.2)
      refine ⟨?_, henabled hattached.1⟩
      rw [hlookup]
      exact if_pos rfl

/-- A removal reaches all where nothing is attached under the key. -/
theorem reaches_remove_iff (hreaches : ReachesFinished s) (removals : List Key) :
    ReachesFinished { s with removals, frameCryptors := s.frameCryptors.erase key } ↔
      ∀ call ∈ s.calls, call.key = key → ∀ cryptor, ¬ call.Attached cryptor := by
  constructor
  · intro hkept call hmem hkey cryptor hattached
    have hknown : (s.frameCryptors.erase key).lookup call.key = some cryptor :=
      (hkept call hmem cryptor hattached).known
    rw [AssocMap.lookup_erase_ite, if_pos hkey] at hknown
    cases hknown
  · intro hnone call hmem cryptor hattached
    refine (hreaches call hmem cryptor hattached).of_eq rfl rfl ?_
    show (s.frameCryptors.erase key).lookup call.key = _
    rw [AssocMap.lookup_erase_ite, if_neg fun hkey => hnone call hmem hkey cryptor hattached]

/-- A good step is one after which all that have finished are reached. -/
theorem good_iff {a : Action} (h : Base s) (hreaches : ReachesFinished s)
    (hstep : step s a = some s') : Good s a s' ↔ ReachesFinished s' := by
  cases a with
  | setEnabled enabled =>
    obtain rfl := some.inj hstep
    exact iff_of_true trivial (reaches_setEnabled enabled h hreaches)
  | cleanup =>
    obtain rfl := some.inj hstep
    exact reaches_cleanup_iff.symm
  | attach key encryptionType =>
    obtain rfl := some.inj hstep
    refine iff_of_true trivial ?_
    intro call hmem cryptor hattached
    rcases mem_append.mp hmem with hold | hnew
    · exact (hreaches call hold cryptor hattached).of_eq rfl rfl rfl
    · obtain rfl := mem_singleton.mp hnew
      cases hattached.2
  | turn i =>
    obtain ⟨call, hcall, hcases⟩ := turn_cases hstep
    -- of the sections of a call only the last can break anything
    have hgood : Good s (.turn i) s' ↔ ∀ cryptor, call.progress = .setUp cryptor →
        (call.live → s.cryptors[cryptor]?.map FrameCryptor.enabled = some s.enabled) ∧
          ∀ other ∈ s.calls, other.key = call.key → ∀ cryptor', ¬ other.Attached cryptor' := by
      constructor
      · intro hgood
        exact hgood call hcall
      · intro hgood call' hcall'
        obtain rfl := some.inj (hcall.symm.trans hcall')
        exact hgood
    rw [hgood]
    rcases hcases with ⟨progress, hcalled, hprogress, rfl⟩ | ⟨hinit, rfl⟩ | ⟨cryptor, hsetUp, rfl⟩
    · refine iff_of_true (fun cryptor hsetUp => ?_) ?_
      · cases hcalled.symm.trans hsetUp
      · refine reaches_set hreaches rfl (fun cryptor hattached => ?_)
          fun key cryptor hreached => hreached.of_eq rfl rfl rfl
        obtain ⟨-, heq⟩ := hattached
        rcases hprogress with ⟨rfl, -⟩ | rfl <;> cases heq
    · refine iff_of_true (fun cryptor hsetUp => ?_) (reaches_setup hreaches)
      cases hinit.symm.trans hsetUp
    · rw [reaches_insert_iff h hreaches hcall hsetUp]
      constructor
      · intro hgood'
        exact hgood' cryptor hsetUp
      · intro hgood' cryptor' hsetUp'
        obtain rfl := Progress.setUp.inj (hsetUp.symm.trans hsetUp')
        exact hgood'
  | detach i =>
    obtain ⟨call, hcall, heq⟩ := bind_eq_some_iff.mp hstep
    obtain rfl := some.inj heq
    refine iff_of_true trivial ?_
    refine reaches_set hreaches rfl (fun cryptor hattached => ?_)
      fun key cryptor hreached => hreached.of_eq rfl rfl rfl
    cases hattached.1
  | remove key =>
    unfold step at hstep
    rw [ite_none_right_eq_some] at hstep
    obtain rfl := some.inj hstep.2
    exact (reaches_remove_iff hreaches _).symm

/-- When no operation is in progress, all calls have finished. -/
theorem reachesAll_of_finished (h : Base s) (hreaches : ReachesFinished s) : ReachesAll s := by
  rintro ⟨-, hfinished⟩ hinitialized call hmem hlive hencrypted
  obtain ⟨cryptor, hprogress⟩ := hfinished call hmem
  cases cryptor with
  | none => exact absurd hprogress (h.complete call hmem hinitialized hencrypted)
  | some cryptor =>
    have hattached : call.Attached cryptor := ⟨hlive, hprogress⟩
    exact ⟨cryptor, hattached.cryptor_eq, hreaches call hmem cryptor hattached⟩

/-- In runs of good steps every cryptor is reached when no operation is in progress. The steps are
good exactly if the cryptors of all finished calls are reached in every state. -/
theorem enabled_iff (initialized : Bool) (run : List Action) :
    (EachStep step Good (State.new initialized) run →
      Throughout step ReachesAll (State.new initialized) run) ∧
    (EachStep step Good (State.new initialized) run ↔
      Throughout step ReachesFinished (State.new initialized) run) := by
  have hiff : Throughout step ReachesFinished (State.new initialized) run ↔
      EachStep step Good (State.new initialized) run := by
    refine throughout_iff_eachStep (I := fun s => Base s ∧ ReachesFinished s)
      (fun s hs => hs.2) ?_ ⟨base_new initialized, ?_⟩ run
    · rintro s a s' ⟨hbase, hreaches⟩ hstep
      have hgood := good_iff hbase hreaches hstep
      by_cases hkept : ReachesFinished s'
      · exact .inl ⟨hgood.mpr hkept, base_step hbase hstep, hkept⟩
      · exact .inr ⟨fun hbad => hkept (hgood.mp hbad), hkept⟩
    · intro call hmem
      cases hmem
  refine ⟨fun hsteps => ?_, hiff.symm⟩
  intro before after s hrun hexec
  have hreaches := hiff.mpr hsteps before after s hrun hexec
  have hbase : Base s := exec_invariant (fun _ _ _ => base_step) (base_new initialized) hexec
  exact reachesAll_of_finished hbase hreaches

/-- The manager is enabled again before the cryptor that was made while it was not is inserted. -/
theorem missed_cryptor_is_disabled :
    let key : Key := ("alice", ⟨"TR_1", by decide⟩)
    let run : List Action := [.setEnabled false, .attach key .gcm, .turn 0, .turn 0,
      .setEnabled true, .turn 0]
    ∃ s, exec step (State.new true) run = some s ∧ Quiet s ∧ s.enabled = true ∧
      s.cryptors.map FrameCryptor.enabled = [false] ∧ ¬ ReachesAll s := by
  intro key run
  refine ⟨_, rfl, ⟨rfl, ?_⟩, rfl, rfl, ?_⟩
  · intro call hmem
    obtain rfl := mem_singleton.mp hmem
    exact ⟨some 0, rfl⟩
  · intro hreaches
    obtain ⟨cryptor, hcryptor, hreached⟩ := hreaches ⟨rfl, fun call hmem => by
      obtain rfl := mem_singleton.mp hmem
      exact ⟨some 0, rfl⟩⟩ rfl _ (mem_singleton_self _) rfl nofun
    obtain rfl := some.inj hcryptor
    cases some.inj hreached.enabled

end LiveKit.E2ee
