import LiveKit.PeerTransport.Basic
import LiveKit.Lib.Components

/-!
# An offer that was put off

`set_remote_description` makes the offer that was put off while it has the lock, and the offer takes
the same lock first. So the flag that puts an offer off must not be found set when a description
has been applied: everything is in order up to there, and nothing moves after it.
-/

namespace LiveKit.PeerTransport

open List Option

namespace Call

/-- The call has the guard of the lock. -/
def Holds (call : Call) : Prop :=
  match call with
  | .candidate _ => True
  | .applying => True
  | .draining _ => True
  | .offer _ _ => True
  | .renegotiating _ => True
  | _ => False

variable {call : Call}

/-- A call that has the guard and is no offer of `set_remote_description` does not wait. -/
theorem not_waits_of_holds (h : call.Holds) (hplain : ¬ call.Renegotiates) :
    ¬ call.Waits := by
  cases call with
  | waiting => exact absurd h id
  | renegotiating => exact absurd trivial hplain
  | _ => exact id

/-- A call that is at the candidates has the guard. -/
theorem Drains.holds (h : call.Drains) : call.Holds := by
  cases call with
  | draining => trivial
  | _ => exact absurd h id

/-- What the call does next is the end of a description that was applied: there is no candidate
left, or the peer connection refuses one. -/
def endsDescription (reply : Reply) : Call → Bool
  | .draining [] => true
  | .draining (_ :: _) => !reply.ok
  | _ => false

end Call

theorem Request.start_holds (request : Request) : request.start.Holds := by
  cases request <;> trivial

theorem Request.start_plain (request : Request) : ¬ request.start.Renegotiates := by
  cases request <;> exact id

theorem Request.start_not_drains (request : Request) : ¬ request.start.Drains := by
  cases request <;> exact id

namespace State

/-- No request for an offer is put off where the processing of a description ends. -/
def NonePutOff (s : State) : Action → Prop
  | .proceed i reply => s.calls[i]?.any (Call.endsDescription reply) = true →
      s.inner.renegotiate = false
  | _ => True

/-! ## Descriptions that are being processed -/

variable {i : ℕ} {s : State}

/-- A call that is at no candidates before and after makes no difference. -/
theorem draining_set {call call' : Call} {inner : TransportInner} {owner : Option ℕ}
    (hcall : s.calls[i]? = some call) (hbefore : ¬ call.Drains) (hafter : ¬ call'.Drains) :
    Draining ⟨inner, owner, s.calls.set i call'⟩ ↔ s.Draining := by
  constructor
  · intro ⟨other, hmem, hdrains⟩
    rcases mem_or_eq_of_mem_set hmem with hmem | rfl
    · exact ⟨other, hmem, hdrains⟩
    · exact absurd hdrains hafter
  · intro ⟨other, hmem, hdrains⟩
    obtain ⟨j, hj⟩ := mem_iff_getElem?.mp hmem
    have hij : i ≠ j := by
      intro hij
      rw [← hij, hcall, some.injEq] at hj
      exact hbefore (hj ▸ hdrains)
    refine ⟨other, mem_iff_getElem?.mpr ⟨j, ?_⟩, hdrains⟩
    show (s.calls.set i call')[j]? = some other
    rw [getElem?_set_ne hij, hj]

/-- What holds as long as no description ends with a request put off. The description that is
being processed is the one of the call that has the lock. -/
structure Inv (records : List Record) (s : State) : Prop where
  holder : ∀ i, s.owner = some i → ∃ call, s.calls[i]? = some call ∧ call.Holds
  owner : ∀ i call, s.calls[i]? = some call → call.Holds → s.owner = some i
  plain : ∀ (i : ℕ) (call : Call), s.calls[i]? = some call → ¬ call.Renegotiates
  sent : Record.sent true ∉ records
  applied : Record.applied true ∈ records ↔ s.inner.renegotiate = true ∧ s.Draining
  cleared : s.inner.renegotiate = true → ¬ s.Draining →
    Since (fun record => record = .deferred) (fun record => ∃ d, record = .applied d) records

theorem Inv.new : Inv [] new where
  holder _ h := by cases h
  owner _ _ h := by cases h
  plain _ _ h := by cases h
  sent := not_mem_nil
  applied := iff_of_false not_mem_nil fun h => Bool.noConfusion h.1
  cleared h := by cases h

theorem Inv.renegotiated {records : List Record} (h : Inv records s) :
    Renegotiated records s where
  free i call howner hcall := by
    obtain ⟨call', hcall', hholds⟩ := h.holder i howner
    rw [hcall', some.injEq] at hcall
    subst hcall
    exact Call.not_waits_of_holds hholds (h.plain i call' hcall')
  sent hdone _ := by
    have happlied : Record.applied true ∉ records := fun hmem => hdone (h.applied.mp hmem).2
    rw [count_eq_zero.mpr h.sent, count_eq_zero.mpr happlied]
  cleared := h.cleared

/-- Of the calls only the one that has the lock can be at the candidates. -/
theorem Inv.draining_iff {records : List Record} (h : Inv records s)
    (hcall : s.calls[i]? = some call) (hholds : call.Holds) :
    s.Draining ↔ call.Drains := by
  constructor
  · intro ⟨other, hmem, hdrains⟩
    obtain ⟨j, hj⟩ := mem_iff_getElem?.mp hmem
    have hsame := (h.owner j other hj hdrains.holds).symm.trans (h.owner i call hcall hholds)
    rw [some.inj hsame, hcall, some.injEq] at hj
    rw [hj]
    exact hdrains
  · intro hdrains
    exact ⟨call, mem_iff_getElem?.mpr ⟨i, hcall⟩, hdrains⟩

/-! ## What a call does -/

/-- What a call records on its way from one place to another is in order, with what becomes of the
flag. -/
structure Noted (s : State) (call : Call) (inner : TransportInner) (call' : Call)
    (rs : List Record) : Prop where
  sent : Record.sent true ∉ rs
  applied : s.inner.renegotiate = true ∧ call.Drains ∨ Record.applied true ∈ rs ↔
    inner.renegotiate = true ∧ call'.Drains
  cleared : inner.renegotiate = true → ¬ call'.Drains → rs = [.deferred] ∨
    s.inner.renegotiate = true ∧ ¬ call.Drains ∧ ∀ record ∈ rs, ¬ ∃ d, record = .applied d

/-- A call that has nothing to do with a description, and leaves the flag alone. -/
theorem Noted.nil {call call' : Call} {inner : TransportInner}
    (h : inner.renegotiate = s.inner.renegotiate) (hbefore : ¬ call.Drains)
    (hafter : ¬ call'.Drains) : Noted s call inner call' [] where
  sent := not_mem_nil
  applied := iff_of_false (fun h => h.elim (fun hd => hbefore hd.2) not_mem_nil)
    fun hd => hafter hd.2
  cleared hset _ := .inr ⟨h ▸ hset, hbefore, fun _ hr => absurd hr not_mem_nil⟩

/-- What `create_and_send_offer` records for a request of its own. -/
theorem noted_createAndSendOffer (s : State) (iceRestart : Bool) (reply : Reply)
    (stage : OfferStage) (call call' : Call) (hbefore : ¬ call.Drains) (hafter : ¬ call'.Drains) :
    Noted s call (s.inner.createAndSendOffer iceRestart reply stage).1 call'
      (recordOffer false (s.inner.createAndSendOffer iceRestart reply stage).2) := by
  unfold TransportInner.createAndSendOffer
  cases stage with
  | checking =>
    have hflag : (if iceRestart then { s.inner with restartingIce := true }
        else s.inner).renegotiate = s.inner.renegotiate := by
      split <;> rfl
    simp only
    generalize (if iceRestart then { s.inner with restartingIce := true } else s.inner) = inner
      at hflag ⊢
    split_ifs
    · exact Noted.nil hflag hbefore hafter
    · exact ⟨by simp [recordOffer], by simp [recordOffer, hbefore, hafter], fun _ _ => .inl rfl⟩
    · exact Noted.nil hflag hbefore hafter
    · exact Noted.nil hflag hbefore hafter
  | cancelling | creating =>
    simp only
    split
    · exact Noted.nil rfl hbefore hafter
    · exact Noted.nil rfl hbefore hafter
  | settingLocal =>
    simp only
    split
    · exact ⟨by simp [recordOffer], by simp [recordOffer, hbefore, hafter],
        fun hset _ => .inr ⟨hset, hbefore, by simp [recordOffer]⟩⟩
    · exact Noted.nil rfl hbefore hafter

/-- Every way in which a call goes on, as long as no description ends with a request put off. -/
inductive Proceeded (s : State) (i : ℕ) (call : Call) (rs : List Record) : State → Prop
  | goOn (inner : TransportInner) (call' : Call) (hholds : call'.Holds)
    (hplain : ¬ call'.Renegotiates) (hnoted : Noted s call inner call' rs) :
    Proceeded s i call rs (s.goOn inner i call')
  | release (inner : TransportInner) (call' : Call) (hholds : ¬ call'.Holds)
    (hplain : ¬ call'.Renegotiates) (hnoted : Noted s call inner call' rs) :
    Proceeded s i call rs (s.release inner i call')

/-- What a call does that goes on, as long as no description ends with a request put off. -/
theorem proceed_cases {s s' : State} {reply : Reply} (hplain : ¬ call.Renegotiates)
    (hnone : call.endsDescription reply = true → s.inner.renegotiate = false)
    (hstep : s.proceed i reply call = some s') :
    call.Holds ∧ Proceeded s i call (recordCall s reply call) s' ∨
      ¬ call.Holds ∧ recordCall s reply call = [] ∧
        s' = { s with calls := s.calls.set i .returned } := by
  unfold proceed at hstep
  cases call with
  | waiting | returned => cases hstep
  | addingCandidate =>
    cases hstep
    exact .inr ⟨id, rfl, rfl⟩
  | renegotiating => exact absurd trivial hplain
  | candidate c =>
    refine .inl ⟨trivial, ?_⟩
    simp only at hstep
    split at hstep
    · cases hstep
      exact .release _ _ id id (Noted.nil rfl id id)
    · cases hstep
      exact .release _ _ id id (Noted.nil rfl id id)
  | applying =>
    refine .inl ⟨trivial, ?_⟩
    unfold recordCall
    simp only at hstep ⊢
    split at hstep
    · next hok =>
      -- the description is applied, and the flag says whether it has met a request
      rw [if_pos hok]
      cases hstep
      refine .goOn _ _ trivial id ⟨by simp, ?_, fun _ hdrains => absurd trivial hdrains⟩
      rw [mem_singleton, Record.applied.injEq]
      constructor
      · rintro (⟨-, hdrains⟩ | hflag)
        · exact absurd hdrains id
        · exact ⟨hflag.symm, trivial⟩
      · intro hflag
        exact .inr hflag.1.symm
    · next hfail =>
      rw [if_neg hfail]
      cases hstep
      exact .release _ _ id id (Noted.nil rfl id id)
  | draining candidates =>
    refine .inl ⟨trivial, ?_⟩
    -- where the description ends, no request is put off
    have hend {inner : TransportInner} (hsame : inner.renegotiate = s.inner.renegotiate)
        (hflag : s.inner.renegotiate = false) :
        Noted s (.draining candidates) inner .returned [] := by
      refine ⟨not_mem_nil, ?_, ?_⟩
      · simp [hflag, hsame]
      · intro hset _
        rw [hsame, hflag] at hset
        cases hset
    cases candidates with
    | nil =>
      have hflag := hnone rfl
      simp only at hstep
      rw [if_neg (by simp [hflag])] at hstep
      cases hstep
      exact .release _ _ id id (hend rfl hflag)
    | cons c candidates =>
      simp only at hstep
      split at hstep
      · cases hstep
        refine .goOn _ _ trivial id ⟨not_mem_nil, ?_, fun _ hdrains => absurd trivial hdrains⟩
        simp [Call.Drains, recordCall]
      · next hfail =>
        cases hstep
        exact .release _ _ id id (hend rfl (hnone (by simpa [Call.endsDescription] using hfail)))
  -- an offer awaits its next answer, or the call returns and gives the lock back
  | offer iceRestart stage =>
    refine .inl ⟨trivial, ?_⟩
    simp only at hstep
    unfold recordCall
    simp only
    split at hstep
    · next inner stage' hoffer =>
      have hnoted := noted_createAndSendOffer s iceRestart reply stage
        (.offer iceRestart stage) (.offer iceRestart stage') id id
      cases hstep
      rw [hoffer] at hnoted ⊢
      exact .goOn _ _ trivial id hnoted
    · next inner outcome hoffer =>
      have hnoted := noted_createAndSendOffer s iceRestart reply stage
        (.offer iceRestart stage) .returned id id
      cases hstep
      rw [hoffer] at hnoted ⊢
      exact .release _ _ id id hnoted

/-! ## What a step does -/

section

variable {call' : Call} {owner : Option ℕ} (hcall : s.calls[i]? = some call)
include hcall

/-- Where one call moves, a call that has the guard is the owner of the lock still. -/
theorem owner_set (howner : ∀ j other, s.calls[j]? = some other → other.Holds → s.owner = some j)
    (hkeep : call.Holds ∨ s.owner = none ∨ owner = s.owner) (hnew : call'.Holds → owner = some i) :
    ∀ j other, (s.calls.set i call')[j]? = some other → other.Holds → owner = some j := by
  intro j other hj hholds
  rcases Components.of_getElem?_set hcall hj with ⟨rfl, rfl⟩ | ⟨hne, hj⟩
  · exact hnew hholds
  · have hother := howner j other hj hholds
    rcases hkeep with hheld | hfree | hsame
    · -- the call that moves has the guard, and no other
      rw [howner i call hcall hheld, some.injEq] at hother
      exact absurd hother.symm hne
    · rw [hfree] at hother
      cases hother
    · exact hsame.trans hother

/-- The call that moves is found at its place. -/
theorem getElem?_moved : (s.calls.set i call')[i]? = some call' := by
  rw [Components.getElem?_set hcall, if_pos rfl]

end

section

variable {records : List Record} {s : State} (h : Inv records s)
include h

/-- A call that has the lock goes on. -/
theorem Inv.proceeded {s' : State} {rs : List Record} (hcall : s.calls[i]? = some call)
    (hholds : call.Holds) (hs' : Proceeded s i call rs s') :
    Inv (records ++ rs) s' := by
  have howner := h.owner i call hcall hholds
  have hinv : ∀ (inner : TransportInner) (call' : Call) (owner : Option ℕ),
      Noted s call inner call' rs → ¬ call'.Renegotiates →
      (call'.Holds → owner = some i) → (owner = none ∨ owner = some i ∧ call'.Holds) →
      Inv (records ++ rs) ⟨inner, owner, s.calls.set i call'⟩ := by
    intro inner call' owner hnoted hplain hkeeps howns
    have hdrains : Draining ⟨inner, owner, s.calls.set i call'⟩ ↔ call'.Drains := by
      constructor
      · intro ⟨other, hmem, hother⟩
        obtain ⟨j, hj⟩ := mem_iff_getElem?.mp hmem
        rcases Components.of_getElem?_set hcall hj with ⟨-, rfl⟩ | ⟨hne, hj⟩
        · exact hother
        · have hsame := h.owner j other hj hother.holds
          rw [howner, some.injEq] at hsame
          exact absurd hsame.symm hne
      · intro hother
        exact ⟨call', mem_of_getElem? (getElem?_moved hcall), hother⟩
    refine ⟨?_, owner_set hcall h.owner (.inl hholds) hkeeps,
      Components.forall_set hcall h.plain hplain, ?_, ?_, ?_⟩
    · intro j hj
      rcases howns with hnone | ⟨hsome, hholds'⟩
      · rw [hnone] at hj
        cases hj
      · cases hsome.symm.trans hj
        exact ⟨call', getElem?_moved hcall, hholds'⟩
    · intro hmem
      rcases mem_append.mp hmem with hmem | hmem
      · exact h.sent hmem
      · exact hnoted.sent hmem
    · rw [mem_append, h.applied, h.draining_iff hcall hholds, hdrains]
      exact hnoted.applied
    · intro hset hafter
      rw [hdrains] at hafter
      rcases hnoted.cleared hset hafter with hrs | ⟨hbefore, hnot, hrs⟩
      · rw [hrs]
        exact Since.concat_self records rfl
      · rw [← h.draining_iff hcall hholds] at hnot
        exact (h.cleared hbefore hnot).append hrs
  cases hs' with
  | goOn inner call' hholds' hplain hnoted =>
    exact hinv inner call' s.owner hnoted hplain (fun _ => howner) (.inr ⟨howner, hholds'⟩)
  | release inner call' hholds' hplain hnoted =>
    exact hinv inner call' none hnoted hplain (fun hh => absurd hh hholds') (.inl rfl)

/-- A call that has dropped the guard returns. -/
theorem Inv.returned (hcall : s.calls[i]? = some call) (hholds : ¬ call.Holds) :
    Inv records { s with calls := s.calls.set i .returned } := by
  have hsame : Draining { s with calls := s.calls.set i .returned } ↔ s.Draining :=
    draining_set hcall (fun hdrains => hholds hdrains.holds) id
  refine ⟨?_, owner_set hcall h.owner (.inr (.inr rfl)) (fun hbad => absurd hbad id),
    Components.forall_set hcall h.plain id, h.sent,
    h.applied.trans (and_congr_right fun _ => hsame.symm),
    fun hset hdone => h.cleared hset (mt hsame.mpr hdone)⟩
  intro j hj
  obtain ⟨call', hcall', hholds'⟩ := h.holder j hj
  have hne : j ≠ i := by
    intro hji
    rw [hji, hcall, some.injEq] at hcall'
    exact hholds (hcall' ▸ hholds')
  refine ⟨call', ?_, hholds'⟩
  show (s.calls.set i .returned)[j]? = some call'
  rw [Components.getElem?_set hcall, if_neg hne, hcall']

/-- A call that waited has the lock. -/
theorem Inv.acquired {request : Request} (howner : s.owner = none)
    (hcall : s.calls[i]? = some (.waiting request)) :
    Inv records { s with owner := some i, calls := s.calls.set i request.start } := by
  have hsame : Draining { s with owner := some i, calls := s.calls.set i request.start } ↔
      s.Draining := draining_set hcall id request.start_not_drains
  refine ⟨?_, owner_set hcall h.owner (.inr (.inl howner)) fun _ => rfl,
    Components.forall_set hcall h.plain request.start_plain, h.sent,
    h.applied.trans (and_congr_right fun _ => hsame.symm),
    fun hset hdone => h.cleared hset (mt hsame.mpr hdone)⟩
  intro j hj
  cases hj
  exact ⟨request.start, getElem?_moved hcall, request.start_holds⟩

/-- A new call. -/
theorem Inv.called (request : Request) :
    Inv records { s with calls := s.calls ++ [.waiting request] } := by
  have hsame : Draining { s with calls := s.calls ++ [.waiting request] } ↔ s.Draining := by
    constructor
    · intro ⟨call, hmem, hdrains⟩
      rcases mem_append.mp hmem with hmem | hmem
      · exact ⟨call, hmem, hdrains⟩
      · rw [mem_singleton.mp hmem] at hdrains
        exact absurd hdrains id
    · intro ⟨call, hmem, hdrains⟩
      exact ⟨call, mem_append_left _ hmem, hdrains⟩
  refine ⟨?_, ?_, ?_, h.sent, h.applied.trans (and_congr_right fun _ => hsame.symm),
    fun hset hdone => h.cleared hset (mt hsame.mpr hdone)⟩
  · intro j hj
    obtain ⟨call', hcall', hholds'⟩ := h.holder j hj
    refine ⟨call', ?_, hholds'⟩
    show (s.calls ++ [Call.waiting request])[j]? = some call'
    rw [List.getElem?_append_left (List.getElem?_eq_some_iff.mp hcall').1, hcall']
  · intro j call' hj hholds'
    rcases Components.of_getElem?_concat hj with ⟨-, rfl⟩ | hj
    · exact absurd hholds' id
    · exact h.owner j call' hj hholds'
  · intro j call' hj
    rcases Components.of_getElem?_concat hj with ⟨-, rfl⟩ | hj
    · exact id
    · exact h.plain j call' hj

/-- A step in which no description ends with a request put off. -/
theorem Inv.step {s' : State} {a : Action} (hstep : s.step a = some s') (hnone : s.NonePutOff a) :
    Inv (records ++ record s a) s' := by
  cases a with
  | call request =>
    cases hstep
    show Inv (records ++ []) _
    rw [append_nil]
    exact h.called request
  | acquire i =>
    show Inv (records ++ []) _
    rw [append_nil]
    unfold State.step at hstep
    simp only at hstep
    split at hstep
    · next howner =>
      obtain ⟨call, hcall, hacquire⟩ := bind_eq_some_iff.mp hstep
      unfold State.acquire at hacquire
      split at hacquire
      · cases hacquire
        exact h.acquired howner hcall
      · -- no call waits for the lock in the middle of a description
        exact absurd trivial (h.plain i _ hcall)
      · cases hacquire
    · cases hstep
  | proceed i reply =>
    obtain ⟨call, hcall, hproceed⟩ := bind_eq_some_iff.mp hstep
    have hrecord : record s (.proceed i reply) = recordCall s reply call := by
      unfold record
      simp only
      rw [hcall]
      rfl
    have hend : call.endsDescription reply = true → s.inner.renegotiate = false := by
      intro hends
      apply hnone
      rw [hcall]
      exact hends
    rw [hrecord]
    rcases proceed_cases (h.plain i call hcall) hend hproceed with
      ⟨hholds, hs'⟩ | ⟨hholds, hrs, rfl⟩
    · exact h.proceeded hcall hholds hs'
    · rw [hrs, append_nil]
      exact h.returned hcall hholds

/-- Where a description ends with a request put off, its call comes to wait for itself, or returns
without the offer. -/
theorem Inv.not_renegotiated {s' : State} {a : Action} (hstep : s.step a = some s')
    (hputOff : ¬ s.NonePutOff a) : ¬ Renegotiated (records ++ record s a) s' := by
  cases a with
  | call | acquire => exact absurd trivial hputOff
  | proceed i reply =>
    obtain ⟨call, hcall, hproceed⟩ := bind_eq_some_iff.mp hstep
    unfold NonePutOff at hputOff
    simp only [Classical.not_imp, Bool.not_eq_false] at hputOff
    obtain ⟨hends, hset⟩ := hputOff
    rw [hcall] at hends
    have hends : call.endsDescription reply = true := hends
    unfold State.proceed at hproceed
    cases call with
    | draining candidates =>
      have howner := h.owner i _ hcall trivial
      cases candidates with
      | nil =>
        simp only at hproceed
        rw [if_pos hset] at hproceed
        cases hproceed
        intro hgood
        exact hgood.free i (.renegotiating none) howner (getElem?_moved hcall) trivial
      | cons c candidates =>
        have hfail : ¬ reply.ok = true := by simpa [Call.endsDescription] using hends
        simp only at hproceed
        rw [if_neg hfail] at hproceed
        cases hproceed
        intro hgood
        -- the description that met the request has been recorded, and there is no offer for it
        have happlied : Record.applied true ∈ records :=
          h.applied.mpr ⟨hset, _, mem_of_getElem? hcall, trivial⟩
        have hother : ∀ call ∈ s.calls.set i .returned, ¬ call.Drains ∧ ¬ call.Renegotiates := by
          intro call hmem
          obtain ⟨j, hj⟩ := mem_iff_getElem?.mp hmem
          rcases Components.of_getElem?_set hcall hj with ⟨-, rfl⟩ | ⟨hne, hj⟩
          · exact ⟨id, id⟩
          · refine ⟨?_, h.plain j call hj⟩
            intro hdrains
            have hsame := h.owner j call hj hdrains.holds
            rw [howner, some.injEq] at hsame
            exact hne hsame.symm
        have hrecord : record s (.proceed i reply) = [] := by
          unfold record
          simp only
          rw [hcall]
          rfl
        rw [hrecord, append_nil] at hgood
        have hcount := hgood.sent (fun ⟨call, hmem, hdrains⟩ => (hother call hmem).1 hdrains)
          fun call hmem => (hother call hmem).2
        rw [count_eq_zero.mpr h.sent] at hcount
        exact count_pos_iff.mpr happlied |>.ne hcount
    | _ => cases hends

end

/-- A request for an offer that was put off is kept if and only if the processing of no description
ends while there is one. -/
theorem renegotiated_iff (run : List Action) :
    TransitionSystem.Always step record Renegotiated new run ↔
      TransitionSystem.EachStep step (fun s a _ => s.NonePutOff a) new run := by
  apply TransitionSystem.always_iff_eachStep (I := Inv)
  · intro records s h
    exact h.renegotiated
  · intro records s a s' h hstep
    by_cases hnone : s.NonePutOff a
    · exact .inl ⟨hnone, h.step hstep hnone⟩
    · exact .inr ⟨hnone, h.not_renegotiated hstep hnone⟩
  · exact Inv.new

/-- Two requests for an offer and an answer to the first: the answer is never done. -/
theorem answer_blocked :
    ¬ TransitionSystem.Always step record Renegotiated new
        [.call (.createAndSendOffer false), .acquire 0, .proceed 0 ⟨false, false, false, true⟩,
          .proceed 0 ⟨false, false, false, true⟩, .proceed 0 ⟨false, false, false, true⟩,
          .call (.createAndSendOffer false), .acquire 1, .proceed 1 ⟨true, false, false, true⟩,
          .call .setRemoteDescription, .acquire 2, .proceed 2 ⟨true, false, false, true⟩,
          .proceed 2 ⟨false, false, true, true⟩] := by
  intro h
  have hend := h _ [] _ (append_nil _).symm rfl
  exact hend.free 2 (.renegotiating none) rfl rfl trivial

end State

end LiveKit.PeerTransport
