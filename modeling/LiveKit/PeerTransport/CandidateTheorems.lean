import LiveKit.PeerTransport.Candidates
import LiveKit.PeerTransport.Renegotiation

/-!
# No candidate is lost

As long as nothing fails but the last of the candidates that were pending, each candidate is
accounted for: what was passed is what was added, what is pending and what the calls under way have
in their hands. One that fails earlier takes those after it with it.
-/

namespace LiveKit.PeerTransport.Candidates

open List

/-! ## The record -/

/-- The entry is about the `i`-th call. -/
def Record.IsOf (i : ℕ) (r : Record) : Prop :=
  match r with
  | .passed _ => False
  | .attempted j _ => j = i
  | .described j _ => j = i
  | .returned j _ => j = i

theorem passed_append (h rs : List Record) : passed (h ++ rs) = passed h ++ passed rs :=
  filterMap_append

theorem attempted_append (h rs : List Record) :
    attempted (h ++ rs) = attempted h ++ attempted rs :=
  filterMap_append

theorem attemptedBy_append (h rs : List Record) (i : ℕ) :
    attemptedBy (h ++ rs) i = attemptedBy h i ++ attemptedBy rs i :=
  filterMap_append

/-- What is recorded of one call says nothing of another. -/
theorem Record.IsOf.other {r : Record} {i j : ℕ} (hr : r.IsOf i) (hij : i ≠ j) :
    ¬ r.IsOf j := by
  intro hj
  apply hij
  cases r with
  | passed => exact hr.elim
  | attempted k | described k | returned k => exact (show k = i from hr).symm.trans hj

/-- A call has not added what others have. -/
theorem attemptedBy_other {rs : List Record} {j : ℕ} (hrs : ∀ r ∈ rs, ¬ r.IsOf j) :
    attemptedBy rs j = [] := by
  unfold attemptedBy
  rw [filterMap_eq_nil_iff]
  intro r hr
  have hnot := hrs r hr
  cases r with
  | attempted k c =>
    have hne : ¬ k = j := hnot
    show (if k = j then some c else none) = none
    rw [if_neg hne]
  | _ => rfl

theorem isOf_singleton {r : Record} {i : ℕ} (hr : r.IsOf i) : ∀ r' ∈ [r], r'.IsOf i := by
  intro r' hr'
  rw [mem_singleton.mp hr']
  exact hr

/-! ## What is told of a call -/

/-- The call has not returned after a description was applied. -/
def Unreturned (h : List Record) (i : ℕ) : Prop := ∀ inner, .returned i inner ∉ h

/-- Nothing has been told of the call. -/
structure Untold (h : List Record) (i : ℕ) : Prop where
  unreturned : Unreturned h i
  attempted : attemptedBy h i = []
  described : ∀ pending, .described i pending ∉ h

/-- Of what was pending, the call has these candidates left. -/
structure Left (h : List Record) (i : ℕ) (candidates : List IceCandidate) : Prop where
  unreturned : Unreturned h i
  drained : ∀ pending, .described i pending ∈ h → attemptedBy h i ++ candidates = pending

/-- What is told of a call that is at this place. -/
def Told (h : List Record) (i : ℕ) : Call → Prop
  | .waiting _ => Untold h i
  | .candidate _ => Untold h i
  | .applying => Untold h i
  | .draining candidates => Left h i candidates
  | .renegotiating none => Left h i []
  -- the lock is not reentrant
  | .renegotiating (some _) => False
  | _ => True

section

variable {h rs : List Record} {j : ℕ} (hrs : ∀ r ∈ rs, ¬ r.IsOf j)
include hrs

theorem Unreturned.append_other (hun : Unreturned h j) : Unreturned (h ++ rs) j := by
  intro inner hmem
  rcases mem_append.mp hmem with hmem | hmem
  · exact hun inner hmem
  · exact hrs _ hmem rfl

theorem Untold.append_other (hun : Untold h j) : Untold (h ++ rs) j where
  unreturned := hun.unreturned.append_other hrs
  attempted := by
    rw [attemptedBy_append, hun.attempted, attemptedBy_other hrs, append_nil]
  described := by
    intro pending hmem
    rcases mem_append.mp hmem with hmem | hmem
    · exact hun.described pending hmem
    · exact hrs _ hmem rfl

theorem Left.append_other {candidates : List IceCandidate} (hleft : Left h j candidates) :
    Left (h ++ rs) j candidates where
  unreturned := hleft.unreturned.append_other hrs
  drained := by
    intro pending hmem
    rw [attemptedBy_append, attemptedBy_other hrs, append_nil]
    rcases mem_append.mp hmem with hmem | hmem
    · exact hleft.drained pending hmem
    · exact absurd rfl (hrs _ hmem)

/-- What is told of a call stays so while others go on. -/
theorem Told.append_other {call : Call} (htold : Told h j call) : Told (h ++ rs) j call := by
  cases call with
  | waiting | candidate | applying => exact Untold.append_other hrs htold
  | draining => exact Left.append_other hrs htold
  | renegotiating stage =>
    cases stage with
    | none => exact Left.append_other hrs htold
    | some => exact htold
  | _ => trivial

end

/-! ## The invariant -/

/-- What holds as long as only the last of the pending candidates fails. -/
structure Inv (h : List Record) (s : State) : Prop where
  settled : Settled h s
  /-- A call that has the guard is the owner of the lock. -/
  owner : ∀ i call, s.calls[i]? = some call → call.Holds → s.owner = some i
  /-- While candidates are added, none is pending. -/
  emptied : ∀ (i : ℕ) (candidates : List IceCandidate),
    s.calls[i]? = some (.draining candidates) → s.inner.pendingCandidates = []
  told : ∀ i call, s.calls[i]? = some call → Told h i call
  /-- Nothing has been told of calls that have yet to come. -/
  fresh : ∀ i, s.calls.length ≤ i → Untold h i

theorem Inv.new : Inv [] State.new where
  settled := ⟨List.Perm.refl _, fun _ _ h => absurd h not_mem_nil,
    fun _ _ _ h => absurd h not_mem_nil⟩
  owner _ _ h := by cases h
  emptied _ _ h := by cases h
  told _ _ h := by cases h
  fresh _ _ := ⟨fun _ => not_mem_nil, rfl, fun _ => not_mem_nil⟩

/-! ## What a call that goes on does -/

/-- The candidates in the hands of the calls, where one of them has moved. -/
theorem exists_carried {s : State} {i : ℕ} {call : Call} (hcall : s.calls[i]? = some call) :
    ∃ as bs : List IceCandidate, s.calls.flatMap carried = as ++ (carried call ++ bs) ∧
      ∀ call', (s.calls.set i call').flatMap carried = as ++ (carried call' ++ bs) := by
  obtain ⟨hlt, hget⟩ := List.getElem?_eq_some_iff.mp hcall
  refine ⟨(s.calls.take i).flatMap carried, (s.calls.drop (i + 1)).flatMap carried, ?_, ?_⟩
  · have hsplit : s.calls = s.calls.take i ++ call :: s.calls.drop (i + 1) := by
      rw [← hget, ← drop_eq_getElem_cons hlt, take_append_drop]
    conv_lhs => rw [hsplit]
    rw [flatMap_append, flatMap_cons]
  · intro call'
    rw [set_eq_take_append_cons_drop, if_pos hlt, flatMap_append, flatMap_cons]

section

variable {h rs : List Record} {s : State} {i : ℕ} {call call' : Call} {inner : TransportInner}
  {owner : Option ℕ}

/-- What a call takes from the pending candidates and from its hands it adds, leaves pending or
keeps. -/
theorem Settled.conserved_set (hs : Settled h s) (hcall : s.calls[i]? = some call)
    (hpassed : passed rs = [])
    (hbalance : (attempted rs ++ (inner.pendingCandidates ++ carried call')).Perm
      (s.inner.pendingCandidates ++ carried call)) :
    (passed (h ++ rs)).Perm (attempted (h ++ rs) ++
      (inner.pendingCandidates ++ (s.calls.set i call').flatMap carried)) := by
  obtain ⟨as, bs, hbefore, hafter⟩ := exists_carried hcall
  have hconserved := hs.conserved
  rw [hbefore] at hconserved
  rw [passed_append, hpassed, append_nil, attempted_append, hafter]
  rw [perm_iff_count] at hconserved hbalance ⊢
  intro c
  have h₁ := hconserved c
  have h₂ := hbalance c
  simp only [count_append] at h₁ h₂ ⊢
  omega

/-- What is told of the calls that have returned stays true, and must be true of the one that
goes on. -/
theorem Settled.append (hs : Settled h s) {s' : State} (hof : ∀ r ∈ rs, r.IsOf i)
    (hconserved : (passed (h ++ rs)).Perm (attempted (h ++ rs) ++
      (s'.inner.pendingCandidates ++ s'.calls.flatMap carried)))
    (hun : rs ≠ [] → Unreturned h i)
    (hnew : ∀ inner', .returned i inner' ∈ rs → inner'.pendingCandidates = [] ∧
      inner'.restartingIce = false ∧
        ∀ pending, .described i pending ∈ h ++ rs → attemptedBy (h ++ rs) i = pending) :
    Settled (h ++ rs) s' := by
  have hreturned : ∀ (j : ℕ) (inner' : TransportInner), .returned j inner' ∈ rs → j = i := by
    intro j inner' hmem
    exact hof _ hmem
  refine ⟨hconserved, ?_, ?_⟩
  · intro j inner' hmem
    rcases mem_append.mp hmem with hmem | hmem
    · exact hs.cleared j inner' hmem
    · have hj := hreturned j inner' hmem
      subst hj
      have hright := hnew inner' hmem
      exact ⟨hright.1, hright.2.1⟩
  · intro j inner' pending hmem hdescribed
    rcases mem_append.mp hmem with hmem | hmem
    · by_cases hrs : rs = []
      · rw [hrs, append_nil] at hdescribed ⊢
        exact hs.drained j inner' pending hmem hdescribed
      · have hij : i ≠ j := by
          intro hij
          subst hij
          exact hun hrs inner' hmem
        have hnot : ∀ r ∈ rs, ¬ r.IsOf j := fun r hr => Record.IsOf.other (hof r hr) hij
        rw [attemptedBy_append, attemptedBy_other hnot, append_nil]
        apply hs.drained j inner' pending hmem
        rcases mem_append.mp hdescribed with hdescribed | hdescribed
        · exact hdescribed
        · exact absurd rfl (hnot _ hdescribed)
    · have hj := hreturned j inner' hmem
      subst hj
      exact (hnew inner' hmem).2.2 pending hdescribed

/-- A call goes on. One that has no guard leaves the lock and the list as they are. -/
theorem Inv.goes (hinv : Inv h s) (hcall : s.calls[i]? = some call) (hof : ∀ r ∈ rs, r.IsOf i)
    (hsettled : Settled (h ++ rs) ⟨inner, owner, s.calls.set i call'⟩)
    (hkeep : call.Holds ∨ s.owner = none ∨ inner = s.inner ∧ owner = s.owner)
    (howner : call'.Holds → owner = some i)
    (hemptied : ∀ candidates, call' = .draining candidates → inner.pendingCandidates = [])
    (htold : Told (h ++ rs) i call') :
    Inv (h ++ rs) ⟨inner, owner, s.calls.set i call'⟩ := by
  refine ⟨hsettled, State.owner_set hcall hinv.owner
    (hkeep.imp_right (Or.imp_right And.right)) howner, ?_, ?_, ?_⟩
  · intro j candidates hj
    rcases Components.of_getElem?_set hcall hj with ⟨-, heq⟩ | ⟨hne, hj⟩
    · exact hemptied candidates heq.symm
    · show inner.pendingCandidates = []
      have hother := hinv.owner j _ hj trivial
      rcases hkeep with hheld | hfree | ⟨hsame, -⟩
      · -- no other call has the guard of a call that has it
        rw [hinv.owner i call hcall hheld, Option.some.injEq] at hother
        exact absurd hother.symm hne
      · rw [hfree] at hother
        cases hother
      · rw [hsame]
        exact hinv.emptied j candidates hj
  · intro j call'' hj
    rcases Components.of_getElem?_set hcall hj with ⟨rfl, rfl⟩ | ⟨hne, hj⟩
    · exact htold
    · exact (hinv.told j call'' hj).append_other fun r hr => Record.IsOf.other (hof r hr) hne.symm
  · intro j hj
    have hj : (s.calls.set i call').length ≤ j := hj
    rw [length_set] at hj
    have hlt := (List.getElem?_eq_some_iff.mp hcall).1
    exact (hinv.fresh j hj).append_other fun r hr => Record.IsOf.other (hof r hr) (by omega)

/-- A call goes on, and nothing is recorded of it. -/
theorem Inv.goes_quietly (hinv : Inv h s) (hcall : s.calls[i]? = some call)
    (hbalance : (inner.pendingCandidates ++ carried call').Perm
      (s.inner.pendingCandidates ++ carried call))
    (hkeep : call.Holds ∨ s.owner = none ∨ inner = s.inner ∧ owner = s.owner)
    (howner : call'.Holds → owner = some i)
    (hemptied : ∀ candidates, call' = .draining candidates → inner.pendingCandidates = [])
    (htold : Told h i call') :
    Inv (h ++ []) ⟨inner, owner, s.calls.set i call'⟩ := by
  have hof : ∀ r ∈ ([] : List Record), r.IsOf i := fun r hr => absurd hr not_mem_nil
  refine hinv.goes hcall hof ?_ hkeep howner hemptied (by rw [append_nil]; exact htold)
  apply hinv.settled.append hof
  · exact hinv.settled.conserved_set hcall rfl hbalance
  · exact fun hne => absurd rfl hne
  · exact fun inner' hmem => absurd hmem not_mem_nil

/-- An offer does not touch the candidates. -/
theorem createAndSendOffer_pending (inner : TransportInner) (iceRestart : Bool) (reply : Reply)
    (stage : OfferStage) :
    (inner.createAndSendOffer iceRestart reply stage).1.pendingCandidates =
      inner.pendingCandidates := by
  cases stage with
  | checking =>
    unfold TransportInner.createAndSendOffer
    have hflag : (if iceRestart then { inner with restartingIce := true }
        else inner).pendingCandidates = inner.pendingCandidates := by
      split <;> rfl
    simp only
    split_ifs at hflag ⊢ <;> exact hflag
  | _ => rfl

/-! ## The candidates of a description -/

variable {c : IceCandidate} {candidates : List IceCandidate}

theorem Left.next (hleft : Left h i (c :: candidates)) :
    Left (h ++ [.attempted i c]) i candidates where
  unreturned := by
    intro inner hmem
    rcases mem_append.mp hmem with hmem | hmem
    · exact hleft.unreturned inner hmem
    · cases mem_singleton.mp hmem
  drained := by
    intro pending hmem
    have hown : attemptedBy [.attempted i c] i = [c] := by simp [attemptedBy]
    rw [attemptedBy_append, hown, append_assoc]
    rcases mem_append.mp hmem with hmem | hmem
    · exact hleft.drained pending hmem
    · cases mem_singleton.mp hmem

theorem Untold.to_left (hun : Untold h i) (pending : List IceCandidate) :
    Left (h ++ [.described i pending]) i pending where
  unreturned := by
    intro inner hmem
    rcases mem_append.mp hmem with hmem | hmem
    · exact hun.unreturned inner hmem
    · cases mem_singleton.mp hmem
  drained := by
    intro pending' hmem
    rcases mem_append.mp hmem with hmem | hmem
    · exact absurd hmem (hun.described pending')
    · cases mem_singleton.mp hmem
      rw [attemptedBy_append, hun.attempted]
      rfl

/-- All that was pending has been added when the call returns. -/
theorem Left.all (hleft : Left h i []) (inner' : TransportInner) :
    ∀ pending, .described i pending ∈ h ++ [.returned i inner'] →
      attemptedBy (h ++ [.returned i inner']) i = pending := by
  intro pending hmem
  rcases mem_append.mp hmem with hmem | hmem
  · have hdrained := hleft.drained pending hmem
    rw [append_nil] at hdrained
    rw [attemptedBy_append, hdrained]
    exact append_nil pending
  · cases mem_singleton.mp hmem

/-! ## What a step does -/

/-- A call that adds the candidates of its description: the list was emptied before, and what
fails is the last. -/
theorem Inv.drains (hinv : Inv h s) {reply : Reply} {s' : State}
    (hcall : s.calls[i]? = some (.draining candidates))
    (hlast : FailsLast s (.proceed i reply))
    (hstep : s.proceed i reply (.draining candidates) = some s') :
    Inv (h ++ recordCall s i reply (.draining candidates)) s' := by
  have hpending := hinv.emptied i candidates hcall
  have hleft : Left h i candidates := hinv.told i _ hcall
  cases candidates with
  | nil =>
    unfold State.proceed at hstep
    unfold recordCall
    simp only at hstep ⊢
    split at hstep
    · next hset =>
      cases hstep
      rw [if_pos hset]
      exact hinv.goes_quietly hcall (List.Perm.refl _) (.inl trivial)
        (fun _ => hinv.owner i _ hcall trivial) nofun hleft
    · next hset =>
      cases hstep
      rw [if_neg hset]
      have hof : ∀ r ∈ [Record.returned i { s.inner with restartingIce := false }], r.IsOf i :=
        isOf_singleton rfl
      refine hinv.goes hcall hof ?_ (.inl trivial) (fun hbad => hbad.elim)
        nofun trivial
      apply hinv.settled.append hof
      · exact hinv.settled.conserved_set hcall rfl (List.Perm.refl _)
      · exact fun _ => hleft.unreturned
      · intro inner' hmem
        cases mem_singleton.mp hmem
        exact ⟨hpending, rfl, hleft.all _⟩
  | cons c candidates =>
    unfold State.proceed at hstep
    unfold recordCall
    simp only at hstep ⊢
    split at hstep
    · next hok =>
      cases hstep
      rw [if_pos hok]
      have hof : ∀ r ∈ [Record.attempted i c], r.IsOf i := isOf_singleton rfl
      refine hinv.goes hcall hof ?_ (.inl trivial) (fun _ => hinv.owner i _ hcall trivial)
        (fun _ _ => hpending) hleft.next
      apply hinv.settled.append hof
      · refine hinv.settled.conserved_set hcall rfl ?_
        rw [hpending]
        exact List.Perm.refl _
      · exact fun _ => hleft.unreturned
      · exact fun inner' hmem => by cases mem_singleton.mp hmem
    · next hfails =>
      cases hstep
      rw [if_neg hfails]
      -- the candidate that fails is the last one, so that none goes with it
      obtain ⟨hnil, hrestart⟩ := hlast c candidates hcall (Bool.eq_false_iff.mpr hfails)
      subst hnil
      have hof : ∀ r ∈ [Record.attempted i c, .returned i s.inner], r.IsOf i := by
        intro r hr
        rcases mem_cons.mp hr with rfl | hr
        · rfl
        · rw [mem_singleton.mp hr]
          rfl
      refine hinv.goes hcall hof ?_ (.inl trivial) (fun hbad => hbad.elim)
        nofun trivial
      apply hinv.settled.append hof
      · refine hinv.settled.conserved_set hcall rfl ?_
        rw [hpending]
        exact List.Perm.refl _
      · exact fun _ => hleft.unreturned
      · intro inner' hmem
        rcases mem_cons.mp hmem with hbad | hmem
        · cases hbad
        · cases mem_singleton.mp hmem
          refine ⟨hpending, hrestart, ?_⟩
          intro pending hdescribed
          rw [append_cons] at hdescribed ⊢
          exact hleft.next.all _ pending hdescribed

/-- A call goes on in one of the other places. -/
theorem Inv.proceeds (hinv : Inv h s) {reply : Reply} {s' : State}
    (hcall : s.calls[i]? = some call) (hlast : FailsLast s (.proceed i reply))
    (hstep : s.proceed i reply call = some s') :
    Inv (h ++ recordCall s i reply call) s' := by
  have htold := hinv.told i call hcall
  cases call with
  | draining candidates => exact hinv.drains hcall hlast hstep
  | waiting | returned => cases hstep
  | addingCandidate =>
    cases hstep
    exact hinv.goes_quietly hcall (List.Perm.refl _) (.inr (.inr ⟨rfl, rfl⟩))
      (fun hbad => hbad.elim)
      nofun trivial
  | candidate c =>
    have hun : Untold h i := htold
    unfold State.proceed at hstep
    unfold recordCall
    simp only at hstep ⊢
    split at hstep
    · next hdirect =>
      cases hstep
      rw [if_pos hdirect]
      -- there is a description: the candidate goes to the peer connection
      have hof : ∀ r ∈ [Record.attempted i c], r.IsOf i := isOf_singleton rfl
      refine hinv.goes hcall hof ?_ (.inl trivial) (fun hbad => hbad.elim)
        nofun trivial
      apply hinv.settled.append hof
      · refine hinv.settled.conserved_set hcall rfl ?_
        show ([c] ++ (s.inner.pendingCandidates ++ [])).Perm (s.inner.pendingCandidates ++ [c])
        rw [append_nil]
        exact perm_append_comm
      · exact fun _ => hun.unreturned
      · exact fun inner' hmem => by cases mem_singleton.mp hmem
    · next hdirect =>
      cases hstep
      rw [if_neg hdirect]
      -- there is none yet: the candidate is put aside
      refine hinv.goes_quietly hcall ?_ (.inl trivial) (fun hbad => hbad.elim)
        nofun trivial
      show ((s.inner.pendingCandidates ++ [c]) ++ []).Perm (s.inner.pendingCandidates ++ [c])
      rw [append_nil]
  | applying =>
    have hun : Untold h i := htold
    unfold State.proceed at hstep
    unfold recordCall
    simp only at hstep ⊢
    split at hstep
    · next hok =>
      cases hstep
      rw [if_pos hok]
      -- the description takes over the candidates put aside
      have hof : ∀ r ∈ [Record.described i s.inner.pendingCandidates], r.IsOf i :=
        isOf_singleton rfl
      refine hinv.goes hcall hof ?_ (.inl trivial) (fun _ => hinv.owner i _ hcall trivial)
        (fun _ _ => rfl) (hun.to_left _)
      apply hinv.settled.append hof
      · refine hinv.settled.conserved_set hcall rfl ?_
        show s.inner.pendingCandidates.Perm (s.inner.pendingCandidates ++ [])
        rw [append_nil]
      · exact fun _ => hun.unreturned
      · exact fun inner' hmem => by cases mem_singleton.mp hmem
    · next hfails =>
      cases hstep
      rw [if_neg hfails]
      exact hinv.goes_quietly hcall (List.Perm.refl _) (.inl trivial) (fun hbad => hbad.elim)
        nofun trivial
  | offer iceRestart stage =>
    -- an offer leaves the candidates alone
    have hpending := createAndSendOffer_pending s.inner iceRestart reply stage
    unfold State.proceed at hstep
    simp only at hstep
    split at hstep
    · next inner stage' hoffer =>
      cases hstep
      rw [hoffer] at hpending
      exact hinv.goes_quietly hcall (by rw [hpending]; exact List.Perm.refl _) (.inl trivial)
        (fun _ => hinv.owner i _ hcall trivial) nofun trivial
    · next inner outcome hoffer =>
      cases hstep
      rw [hoffer] at hpending
      exact hinv.goes_quietly hcall (by rw [hpending]; exact List.Perm.refl _) (.inl trivial)
        (fun hbad => hbad.elim) nofun trivial
  | renegotiating stage =>
    cases stage with
    | none => cases hstep
    | some => exact htold.elim

end

variable {h : List Record}

/-- A new call. -/
theorem Inv.called {s : State} (hinv : Inv h s) (request : Request) :
    Inv (h ++ record s (.call request)) { s with calls := s.calls ++ [.waiting request] } := by
  -- what is recorded is of no call in particular
  have hnot : ∀ i, ∀ r ∈ record s (.call request), ¬ r.IsOf i := by
    intro i r hr
    cases request with
    | addIceCandidate c =>
      rw [mem_singleton.mp hr]
      exact id
    | _ => cases hr
  have hnew : ∀ (j : ℕ) (call : Call), (s.calls ++ [.waiting request])[j]? = some call →
      s.calls[j]? = some call ∨ call = .waiting request ∧ s.calls.length ≤ j := by
    intro j call hj
    by_cases hlt : j < s.calls.length
    · rw [getElem?_append_left hlt] at hj
      exact .inl hj
    · rw [getElem?_append_right (by omega)] at hj
      exact .inr ⟨mem_singleton.mp (mem_of_getElem? hj), by omega⟩
  refine ⟨⟨?_, ?_, ?_⟩, ?_, ?_, ?_, ?_⟩
  · have hconserved := hinv.settled.conserved
    have hbalance : attempted (record s (.call request)) = [] ∧
        passed (record s (.call request)) = carried (.waiting request) := by
      cases request <;> exact ⟨rfl, rfl⟩
    show (passed (h ++ _)).Perm (attempted (h ++ _) ++
      (s.inner.pendingCandidates ++ (s.calls ++ [Call.waiting request]).flatMap carried))
    rw [passed_append, attempted_append, hbalance.1, hbalance.2, flatMap_append,
      flatMap_singleton, append_nil, ← append_assoc, ← append_assoc]
    rw [← append_assoc] at hconserved
    exact hconserved.append_right _
  · intro i inner hmem
    rcases mem_append.mp hmem with hmem | hmem
    · exact hinv.settled.cleared i inner hmem
    · exact absurd rfl (hnot i _ hmem)
  · intro i inner pending hmem hdescribed
    rw [attemptedBy_append, attemptedBy_other (hnot i), append_nil]
    rcases mem_append.mp hmem with hmem | hmem
    · rcases mem_append.mp hdescribed with hdescribed | hdescribed
      · exact hinv.settled.drained i inner pending hmem hdescribed
      · exact absurd rfl (hnot i _ hdescribed)
    · exact absurd rfl (hnot i _ hmem)
  · intro j call hj hholds
    rcases hnew j call hj with hj | ⟨rfl, -⟩
    · exact hinv.owner j call hj hholds
    · exact hholds.elim
  · intro j candidates hj
    rcases hnew j _ hj with hj | ⟨hbad, -⟩
    · exact hinv.emptied j candidates hj
    · cases hbad
  · intro j call hj
    rcases hnew j call hj with hj | ⟨rfl, hle⟩
    · exact (hinv.told j call hj).append_other (hnot j)
    · exact (hinv.fresh j hle).append_other (hnot j)
  · intro j hj
    have hj : (s.calls ++ [Call.waiting request]).length ≤ j := hj
    rw [length_append] at hj
    exact (hinv.fresh j (by omega)).append_other (hnot j)

/-- A call that waited has the lock. -/
theorem Inv.acquired {s : State} {i : ℕ} {request : Request} (hinv : Inv h s)
    (hfree : s.owner = none) (hcall : s.calls[i]? = some (.waiting request)) :
    Inv (h ++ []) ⟨s.inner, some i, s.calls.set i request.start⟩ := by
  have htold : Untold h i := hinv.told i _ hcall
  refine hinv.goes_quietly hcall ?_ (.inr (.inl hfree)) (fun _ => rfl) ?_ ?_
  · cases request <;> exact List.Perm.refl _
  · intro candidates hstart
    cases request <;> cases hstart
  · cases request with
    | addIceCandidate | setRemoteDescription => exact htold
    | createAndSendOffer => trivial

/-- A step in which nothing fails but the last of the candidates. -/
theorem Inv.step {s s' : State} {a : Action} (hinv : Inv h s) (hstep : s.step a = some s')
    (hlast : FailsLast s a) : Inv (h ++ record s a) s' := by
  cases a with
  | call request =>
    cases hstep
    exact hinv.called request
  | acquire i =>
    show Inv (h ++ []) s'
    unfold State.step at hstep
    simp only at hstep
    split at hstep
    · next hfree =>
      obtain ⟨call, hcall, hacquire⟩ := Option.bind_eq_some_iff.mp hstep
      unfold State.acquire at hacquire
      split at hacquire
      · cases hacquire
        exact hinv.acquired hfree hcall
      · -- a description that makes an offer has the lock already
        have howner := hinv.owner i _ hcall trivial
        rw [hfree] at howner
        cases howner
      · cases hacquire
    · cases hstep
  | proceed i reply =>
    obtain ⟨call, hcall, hproceed⟩ := Option.bind_eq_some_iff.mp hstep
    have hrecord : record s (.proceed i reply) = recordCall s i reply call := by
      unfold record
      simp only
      rw [hcall]
      rfl
    rw [hrecord]
    exact hinv.proceeds hcall hlast hproceed

/-- Where another candidate fails, those after it are gone, or ICE goes on restarting. -/
theorem Inv.not_settled {s s' : State} {a : Action} (hinv : Inv h s) (hstep : s.step a = some s')
    (hlast : ¬ FailsLast s a) : ¬ Settled (h ++ record s a) s' := by
  cases a with
  | call | acquire => exact absurd trivial hlast
  | proceed i reply =>
    unfold FailsLast at hlast
    push Not at hlast
    obtain ⟨c, candidates, hcall, hfails, hlost⟩ := hlast
    obtain ⟨call, hcall', hproceed⟩ := Option.bind_eq_some_iff.mp hstep
    rw [hcall, Option.some.injEq] at hcall'
    subst hcall'
    have hrecord : record s (.proceed i reply) = [.attempted i c, .returned i s.inner] := by
      unfold record recordCall
      simp only
      rw [hcall]
      simp [hfails]
    unfold State.proceed at hproceed
    simp only [hfails, Bool.false_eq_true, if_false] at hproceed
    cases hproceed
    rw [hrecord]
    intro hsettled
    by_cases hnil : candidates = []
    · apply hlost hnil
      exact (hsettled.cleared i s.inner (by simp)).2
    · -- fewer candidates are accounted for than were passed
      have hbefore := hinv.settled.conserved.length_eq
      have hafter := hsettled.conserved.length_eq
      obtain ⟨as, bs, hcarried, hset⟩ := exists_carried hcall
      have hreleased : (s.release s.inner i .returned).calls = s.calls.set i .returned := rfl
      have hinner : (s.release s.inner i .returned).inner = s.inner := rfl
      rw [hreleased, hinner, hset, passed_append, attempted_append] at hafter
      rw [hcarried] at hbefore
      have hpos : 0 < candidates.length := length_pos_iff.mpr hnil
      simp only [length_append, carried, passed, attempted, filterMap_cons,
        filterMap_nil, length_cons, length_nil] at hbefore hafter
      omega

/-- No candidate is lost or left pending if and only if no candidate fails but the last of those
that were pending, while ICE is not being restarted. -/
theorem candidates_settled_iff (run : List Action) :
    TransitionSystem.Always State.step record Settled State.new run ↔
      TransitionSystem.EachStep State.step (fun s a _ => FailsLast s a) State.new run := by
  refine TransitionSystem.always_iff_eachStep (I := Inv) ?_ ?_ Inv.new run
  · intro h s hinv
    exact hinv.settled
  · intro h s a s' hinv hstep
    by_cases hlast : FailsLast s a
    · exact .inl ⟨hlast, hinv.step hstep hlast⟩
    · exact .inr ⟨hlast, hinv.not_settled hstep hlast⟩

/-- Two candidates come before the description, and the first cannot be added: the second is
gone. -/
theorem second_candidate_lost :
    ¬ TransitionSystem.Always State.step record Settled State.new
        [.call (.addIceCandidate "bad"), .acquire 0, .proceed 0 ⟨false, false, false, true⟩,
          .call (.addIceCandidate "good"), .acquire 1, .proceed 1 ⟨false, false, false, true⟩,
          .call .setRemoteDescription, .acquire 2, .proceed 2 ⟨false, false, false, true⟩,
          .proceed 2 ⟨false, false, true, false⟩] := by
  intro halways
  have hend := halways _ [] _ (append_nil _).symm rfl
  have hlength := hend.conserved.length_eq
  exact absurd hlength (by decide)

end LiveKit.PeerTransport.Candidates
