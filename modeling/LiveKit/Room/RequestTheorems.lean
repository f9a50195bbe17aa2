import LiveKit.Room.Requests

/-!
# Responses to the updates of the local participant

`Sound` holds in every run: the channels that are registered are those of calls that wait, and what
is in a channel has come in for the call. That nothing is missed and nothing is left behind holds in
the runs that `requests_iff` describes.
-/

namespace LiveKit.Requests

open Components List Option State TransitionSystem

/-! ## What is promised -/

def Point.Returned (point : Point) : Prop := ∃ result, point = .returned result

structure NothingMissed (records : List Record) (s : State) : Prop where
  /-- The first response since the message was written is in the channel of the call. -/
  heard : ∀ (i : ℕ) call, s.calls[i]? = some call → ¬ call.point.Returned → call.written = true →
    ∀ response, (responsesTo i call records).head? = some response → call.response = some response
  /-- Nothing is left of a call that has returned. -/
  clean : ∀ (i : ℕ) call, s.calls[i]? = some call → call.point.Returned →
    ∀ session requestId, s.pending session requestId ≠ some i

/-- What every step does: a call that returns does so with the first response to it, and a response
does nothing to the calls with other ids. -/
structure StepCorrect (records : List Record) (s : State) (a : Action) (s' : State) : Prop where
  answered : ∀ (i : ℕ) call' result, s'.calls[i]? = some call' → call'.point = .returned result →
    (∀ call, s.calls[i]? = some call → ¬ call.point.Returned) →
    (call'.written = true → ∀ response, (responsesTo i call' records).head? = some response →
      result = outcome response) ∧
    (result = .error .timeout ∨ ∃ session response, Record.handled session response ∈ records ∧
      response.requestId = call'.message.requestId ∧ result = outcome response)
  isolated : ∀ session response, a = .requestResponse session response →
    ∀ (i : ℕ) call, s.calls[i]? = some call → call.message.requestId ≠ response.requestId →
      s'.calls[i]? = some call

/-- The step is no timeout, and no response to a call whose message was written to the session but
whose channel is not registered there. -/
def Registered (records : List Record) (s : State) : Action → State → Prop
  | .timeout _, _ => False
  | .requestResponse session response, _ =>
    ∀ (i : ℕ) call, s.calls[i]? = some call → ¬ call.point.Returned → call.written = true →
      call.session = some session → call.message.requestId = response.requestId →
      responsesTo i call records = [] →
      s.pending session response.requestId = some i ∧ response.isForDataTrack = false ∨
        call.response = some response
  | _, _ => True

/-! ## What holds in every run -/

/-- The call has not registered its channel. -/
def Point.early : Point → Bool
  | .drawn => true
  | .sending => true
  | .sent => true
  | .registering _ => true
  | _ => false

structure Sound (records : List Record) (s : State) : Prop where
  /-- Whoever is registered has an open channel. -/
  registered : ∀ session requestId (i : ℕ), s.pending session requestId = some i →
    ∃ call, s.calls[i]? = some call ∧ call.message.requestId = requestId ∧ call.response = none ∧
      (call.point = .waiting session ∨ call.point = .returned (.error .timeout))
  once : ∀ session session' requestId requestId' (i : ℕ), s.pending session requestId = some i →
    s.pending session' requestId' = some i → session = session'
  early : ∀ (i : ℕ) call, s.calls[i]? = some call → call.point.early = true → call.response = none
  unsent : ∀ (i : ℕ) call, s.calls[i]? = some call → call.point = .drawn → call.session = none
  handed : ∀ (i : ℕ) call, s.calls[i]? = some call → call.written = true → call.session ≠ none
  /-- What is in a channel has been handled. -/
  came : ∀ (i : ℕ) call response, s.calls[i]? = some call → call.response = some response →
    response.requestId = call.message.requestId ∧
      ∃ session, Record.handled session response ∈ records
  written : ∀ (i : ℕ) call, s.calls[i]? = some call →
    (call.written = true ↔ ∃ record ∈ records, record.isWrite i = true)
  unknown : ∀ i : ℕ, s.calls[i]? = none → ∀ record ∈ records, record.isWrite i = false

theorem pending_new (session : ℕ) (requestId : UInt32) :
    new.pending session requestId = none := by
  cases hpending : new.pending session requestId with
  | none => rfl
  | some i =>
    obtain ⟨t, ht, hlookup⟩ := bind_eq_some_iff.mp hpending
    have hmem := mem_of_getElem? ht
    rw [new, mem_singleton] at hmem
    rw [hmem] at hlookup
    cases hlookup

theorem sound_new : Sound [] new where
  registered := by
    intro session requestId i hpending
    rw [pending_new] at hpending
    cases hpending
  once := by
    intro session session' requestId requestId' i hpending
    rw [pending_new] at hpending
    cases hpending
  early := fun _ _ hcall => by cases hcall
  unsent := fun _ _ hcall => by cases hcall
  handed := fun _ _ hcall => by cases hcall
  came := fun _ _ _ hcall => by cases hcall
  written := fun _ _ hcall => by cases hcall
  unknown := fun _ _ _ hmem => by cases hmem

/-! ## The channels that are registered -/

variable {i session : ℕ} {requestId : UInt32} {s : State}

variable {k j : ℕ} {requestId' : UInt32} {response : RequestResponse} {call' : Call}

theorem pending_setPending {change : AssocMap UInt32 ℕ → AssocMap UInt32 ℕ}
    (h : (s.setPending session change).pending k requestId = some i) :
    ∃ t, s.sessions[k]? = some t ∧
      AList.lookup requestId (if session = k then change t.pendingRequests else t.pendingRequests) =
        some i := by
  obtain ⟨t', ht', hlookup⟩ := bind_eq_some_iff.mp h
  have hget : (s.sessions.modify session fun t =>
      { t with pendingRequests := change t.pendingRequests })[k]? = some t' := ht'
  rw [getElem?_modify] at hget
  obtain ⟨t, ht, rfl⟩ := map_eq_some_iff.mp hget
  refine ⟨t, ht, ?_⟩
  rw [← hlookup]
  split <;> rfl

theorem pending_insert
    (h : (s.setPending session (AList.insert requestId i)).pending k requestId' = some j) :
    k = session ∧ requestId' = requestId ∧ j = i ∨ s.pending k requestId' = some j := by
  obtain ⟨t, ht, hlookup⟩ := pending_setPending h
  by_cases hk : session = k
  · rw [if_pos hk] at hlookup
    rcases AssocMap.of_lookup_insert hlookup with ⟨hid, hj⟩ | ⟨-, hlookup⟩
    · exact .inl ⟨hk.symm, hid, hj⟩
    · exact .inr (bind_eq_some_iff.mpr ⟨t, ht, hlookup⟩)
  · rw [if_neg hk] at hlookup
    exact .inr (bind_eq_some_iff.mpr ⟨t, ht, hlookup⟩)

theorem pending_erase
    (h : (s.setPending session (AList.erase requestId)).pending k requestId' = some j) :
    ¬ (k = session ∧ requestId' = requestId) ∧ s.pending k requestId' = some j := by
  obtain ⟨t, ht, hlookup⟩ := pending_setPending h
  by_cases hk : session = k
  · rw [if_pos hk] at hlookup
    obtain ⟨hid, hlookup⟩ := AssocMap.of_lookup_erase hlookup
    exact ⟨fun hboth => hid hboth.2, bind_eq_some_iff.mpr ⟨t, ht, hlookup⟩⟩
  · rw [if_neg hk] at hlookup
    exact ⟨fun hboth => hk hboth.1.symm, bind_eq_some_iff.mpr ⟨t, ht, hlookup⟩⟩

/-! ## The steps of a call -/

variable {call : Call} {records : List Record}

/-- A call is replaced by another. -/
theorem Sound.replace (h : Sound records s) (call' : Call) (new : List Record) (s' : State)
    (hcall : s.calls[i]? = some call) (hcalls : s'.calls = s.calls.set i call')
    (hpending : ∀ session requestId j, s'.pending session requestId = some j → j ≠ i →
      s.pending session requestId = some j)
    (hself : ∀ session requestId, s'.pending session requestId = some i →
      call'.message.requestId = requestId ∧ call'.response = none ∧
        (call'.point = .waiting session ∨ call'.point = .returned (.error .timeout)))
    (honce : ∀ session session' requestId requestId', s'.pending session requestId = some i →
      s'.pending session' requestId' = some i → session = session')
    (hearly : call'.point.early = true → call'.response = none)
    (hunsent : call'.point = .drawn → call'.session = none)
    (hhanded : call'.written = true → call'.session ≠ none)
    (hcame : ∀ response, call'.response = some response →
      response.requestId = call'.message.requestId ∧
        ∃ session, Record.handled session response ∈ records ++ new)
    (hwritten : call'.written = true ↔ ∃ record ∈ records ++ new, record.isWrite i = true)
    (hnew : ∀ record ∈ new, ∀ j, j ≠ i → record.isWrite j = false) : Sound (records ++ new) s' := by
  -- only the call `i` is another one
  have hget : ∀ j : ℕ, s'.calls[j]? = if j = i then some call' else s.calls[j]? := by
    intro j
    rw [hcalls, getElem?_set hcall]
  refine ⟨?_, ?_, ?_, ?_, ?_, ?_, ?_, ?_⟩
  · intro session requestId j hj
    rw [hget]
    by_cases hji : j = i
    · rw [if_pos hji]
      exact ⟨call', rfl, hself session requestId (hji ▸ hj)⟩
    · rw [if_neg hji]
      exact h.registered session requestId j (hpending session requestId j hj hji)
  · intro k k' requestId requestId' j hj hj'
    by_cases hji : j = i
    · exact honce k k' requestId requestId' (hji ▸ hj) (hji ▸ hj')
    · exact h.once k k' requestId requestId' j (hpending k requestId j hj hji)
        (hpending k' requestId' j hj' hji)
  · rw [hcalls]
    exact forall_set hcall h.early hearly
  · rw [hcalls]
    exact forall_set hcall h.unsent hunsent
  · rw [hcalls]
    exact forall_set hcall h.handed hhanded
  · intro j c response hc hresponse
    rw [hcalls] at hc
    rcases of_getElem?_set hcall hc with ⟨-, rfl⟩ | ⟨-, hc⟩
    · exact hcame response hresponse
    · obtain ⟨hid, session, hmem⟩ := h.came j c response hc hresponse
      exact ⟨hid, session, mem_append_left new hmem⟩
  · intro j c hc
    rw [hcalls] at hc
    rcases of_getElem?_set hcall hc with ⟨rfl, rfl⟩ | ⟨hji, hc⟩
    · exact hwritten
    · rw [h.written j c hc]
      constructor
      · rintro ⟨record, hmem, hwrite⟩
        exact ⟨record, mem_append_left new hmem, hwrite⟩
      · rintro ⟨record, hmem, hwrite⟩
        rcases mem_append.mp hmem with hmem | hmem
        · exact ⟨record, hmem, hwrite⟩
        · rw [hnew record hmem j hji] at hwrite
          cases hwrite
  · intro j hj record hmem
    rw [hget] at hj
    split at hj
    · cases hj
    · next hji =>
      rcases mem_append.mp hmem with hmem | hmem
      · exact h.unknown j hj record hmem
      · exact hnew record hmem j hji

/-- A call goes to another point, and the channels that are registered stay. -/
theorem Sound.goto (h : Sound records s) (call' : Call) (hcall : s.calls[i]? = some call)
    (hmessage : call'.message = call.message) (hresponse : call'.response = call.response)
    (hwritten : call'.written = call.written)
    (hearly : call'.point.early = true → call.point.early = true)
    (hunsent : call'.point = .drawn → call'.session = none)
    (hhanded : call.session ≠ none → call'.session ≠ none)
    (hentries : ∀ session requestId, s.pending session requestId = some i →
      call'.point = .waiting session ∨ call'.point = .returned (.error .timeout)) :
    Sound records (s.put i call') := by
  have hnext := h.replace call' [] (s.put i call') hcall rfl (fun _ _ _ hj _ => hj) ?_
    (fun k k' requestId requestId' => h.once k k' requestId requestId' i) ?_ hunsent ?_ ?_ ?_
    (fun _ hmem => by cases hmem)
  · rwa [append_nil] at hnext
  · intro session requestId hpending
    obtain ⟨c, hc, hid, hnone, -⟩ := h.registered session requestId i hpending
    rw [hcall, some.injEq] at hc
    rw [hmessage, hresponse, hc]
    exact ⟨hid, hnone, hentries session requestId hpending⟩
  · intro hpoint
    rw [hresponse]
    exact h.early i call hcall (hearly hpoint)
  · intro hwrite
    exact hhanded (h.handed i call hcall (hwritten ▸ hwrite))
  · intro response hsome
    rw [hresponse] at hsome
    rw [hmessage, append_nil]
    exact h.came i call response hcall hsome
  · rw [hwritten, append_nil]
    exact h.written i call hcall

/-- A call whose channel is not open is not registered. -/
theorem Sound.not_registered (h : Sound records s) (hcall : s.calls[i]? = some call)
    (hnot : call.response ≠ none ∨ call.point.early = true) (session : ℕ) (requestId : UInt32) :
    s.pending session requestId ≠ some i := by
  intro hpending
  obtain ⟨c, hc, -, hnone, hpoint⟩ := h.registered session requestId i hpending
  rw [hcall, some.injEq] at hc
  rw [← hc] at hnone hpoint
  rcases hnot with hnot | hnot
  · exact hnot hnone
  · rcases hpoint with hpoint | hpoint
    · rw [hpoint] at hnot
      cases hnot
    · rw [hpoint] at hnot
      cases hnot

variable {s' : State}

section

variable (h : Sound records s)

include h

/-- A call begins. -/
theorem Sound.begin {operation : Operation} {metadata name : String}
    (hstep : s.begin operation metadata name = some s') :
    Sound records s' ∧ ∃ call, s'.calls = s.calls ++ [call] ∧ call.point = .drawn ∧
      call.written = false ∧ ∀ session requestId, s'.pending session requestId =
        s.pending session requestId := by
  obtain ⟨t, ht, rfl⟩ := map_eq_some_iff.mp hstep
  have hpending : ∀ (session : ℕ) (requestId : UInt32),
      ((s.sessions.set s.running { t with requestId := t.requestId + 1 })[session]?.bind
        fun t => AList.lookup requestId t.pendingRequests) = s.pending session requestId := by
    intro session requestId
    unfold pending
    rw [getElem?_set ht]
    by_cases hsession : session = s.running
    · rw [if_pos hsession, hsession, ht]
      rfl
    · rw [if_neg hsession]
  refine ⟨?_, _, rfl, rfl, rfl, hpending⟩
  have hget := getElem?_concat s.calls
    ⟨operation.message metadata name t.requestId, none, false, none, .drawn⟩
  refine ⟨?_, ?_, ?_, ?_, ?_, ?_, ?_, ?_⟩
  · intro session requestId i hi
    obtain ⟨c, hc, hrest⟩ := h.registered session requestId i ((hpending _ _).symm.trans hi)
    exact ⟨c, by rw [hget, if_neg (ne_length hc), hc], hrest⟩
  · intro k k' requestId requestId' i hi hi'
    exact h.once k k' requestId requestId' i ((hpending _ _).symm.trans hi)
      ((hpending _ _).symm.trans hi')
  · exact forall_concat h.early fun _ => rfl
  · exact forall_concat h.unsent fun _ => rfl
  · exact forall_concat h.handed nofun
  · intro i c response hc hresponse
    rcases of_getElem?_concat hc with ⟨-, rfl⟩ | hc
    · cases hresponse
    · exact h.came i c response hc hresponse
  · refine forall_concat h.written ⟨nofun, ?_⟩
    rintro ⟨record, hmem, hwrite⟩
    rw [h.unknown _ (getElem?_eq_none (le_refl _)) record hmem] at hwrite
    cases hwrite
  · intro i hi record hmem
    rw [hget] at hi
    split at hi
    · cases hi
    · exact h.unknown i hi record hmem

/-- The message of a call is written. -/
theorem Sound.write (hcall : s.calls[i]? = some call) (hsession : call.session ≠ none) :
    Sound (records ++ [.written i]) (s.put i { call with written := true }) := by
  refine h.replace _ _ (s.put i { call with written := true }) hcall rfl (fun _ _ _ hj _ => hj) ?_
    (fun k k' requestId requestId' => h.once k k' requestId requestId' i) (h.early i call hcall)
    (h.unsent i call hcall) (fun _ => hsession) ?_ ?_ ?_
  · intro session requestId hpending
    obtain ⟨c, hc, hrest⟩ := h.registered session requestId i hpending
    rw [hcall, some.injEq] at hc
    rw [hc]
    exact hrest
  · intro response hresponse
    obtain ⟨hid, session, hmem⟩ := h.came i call response hcall hresponse
    exact ⟨hid, session, mem_append_left _ hmem⟩
  · exact ⟨fun _ => ⟨.written i, mem_append_right _ mem_cons_self, decide_eq_true rfl⟩,
      fun _ => rfl⟩
  · intro record hmem j hj
    rw [mem_singleton.mp hmem]
    exact decide_eq_false (Ne.symm hj)

/-- A call registers its channel. -/
theorem Sound.register (hcall : s.calls[i]? = some call)
    (hpoint : call.point = .registering session) :
    Sound records ((s.setPending session (AList.insert call.message.requestId i)).put i
      { call with point := .waiting session }) := by
  have hearly : call.point.early = true := by
    rw [hpoint]
    rfl
  have hnext := h.replace { call with point := .waiting session } []
    ((s.setPending session (AList.insert call.message.requestId i)).put i
      { call with point := .waiting session }) hcall rfl ?_ ?_ ?_ nofun
    nofun (h.handed i call hcall) ?_ ?_ (fun _ hmem => by cases hmem)
  · rwa [append_nil] at hnext
  · intro k requestId j hj hne
    rcases pending_insert hj with ⟨-, -, hji⟩ | hbefore
    · exact absurd hji hne
    · exact hbefore
  · intro k requestId hj
    rcases pending_insert hj with ⟨rfl, rfl, -⟩ | hbefore
    · exact ⟨rfl, h.early i call hcall hearly, .inl rfl⟩
    · exact absurd hbefore (h.not_registered hcall (.inr hearly) k requestId)
  · intro k k' requestId requestId' hj hj'
    rcases pending_insert hj with ⟨rfl, -, -⟩ | hbefore
    · rcases pending_insert hj' with ⟨rfl, -, -⟩ | hbefore'
      · rfl
      · exact absurd hbefore' (h.not_registered hcall (.inr hearly) k' requestId')
    · exact absurd hbefore (h.not_registered hcall (.inr hearly) k requestId)
  · intro response hresponse
    rw [append_nil]
    exact h.came i call response hcall hresponse
  · rw [append_nil]
    exact h.written i call hcall

/-- A response that reaches nobody. -/
theorem Sound.ignored (session : ℕ) (response : RequestResponse) :
    Sound (records ++ [.handled session response]) s := by
  have hmem : ∀ i, (∃ record ∈ records ++ [.handled session response], record.isWrite i = true) ↔
      ∃ record ∈ records, record.isWrite i = true := by
    intro i
    constructor
    · rintro ⟨record, hmem, hwrite⟩
      rcases mem_append.mp hmem with hmem | hmem
      · exact ⟨record, hmem, hwrite⟩
      · rw [mem_singleton.mp hmem] at hwrite
        cases hwrite
    · rintro ⟨record, hmem, hwrite⟩
      exact ⟨record, mem_append_left _ hmem, hwrite⟩
  refine ⟨h.registered, h.once, h.early, h.unsent, h.handed, ?_, ?_, ?_⟩
  · intro i call r hcall hr
    obtain ⟨hid, k, hk⟩ := h.came i call r hcall hr
    exact ⟨hid, k, mem_append_left _ hk⟩
  · intro i call hcall
    rw [hmem]
    exact h.written i call hcall
  · intro i hi record hrecord
    rcases mem_append.mp hrecord with hrecord | hrecord
    · exact h.unknown i hi record hrecord
    · rw [mem_singleton.mp hrecord]
      rfl

/-- The state after a session has handled a response for the call. -/
def State.deliver (s : State) (session : ℕ) (response : RequestResponse) (i : ℕ) (call : Call) :
    State :=
  { s.setPending session (AList.erase response.requestId) with
    calls := s.calls.set i { call with response := some response } }

/-- A response reaches the call that is registered, or nobody. -/
theorem Sound.handle_cases (session : ℕ) (response : RequestResponse) :
    (s.onRequestResponse session response = s ∧
      (response.isForDataTrack = true ∨ s.pending session response.requestId = none)) ∨
    ∃ (i : ℕ) (call : Call), s.calls[i]? = some call ∧
      call.message.requestId = response.requestId ∧ call.response = none ∧
      s.pending session response.requestId = some i ∧ response.isForDataTrack = false ∧
      s.onRequestResponse session response = s.deliver session response i call := by
  unfold onRequestResponse
  cases hdata : response.isForDataTrack with
  | true => exact .inl ⟨rfl, .inl rfl⟩
  | false =>
    rw [if_neg (by decide)]
    cases hpending : s.pending session response.requestId with
    | none => exact .inl ⟨rfl, .inr rfl⟩
    | some i =>
      obtain ⟨call, hcall, hid, hnone, -⟩ := h.registered session response.requestId i hpending
      refine .inr ⟨i, call, hcall, hid, hnone, rfl, rfl, ?_⟩
      dsimp only
      rw [modify_eq_set hcall]
      rfl

/-- A response reaches the call that is registered. -/
theorem Sound.deliver (hcall : s.calls[i]? = some call)
    (hid : call.message.requestId = response.requestId)
    (hpending : s.pending session response.requestId = some i) :
    Sound (records ++ [.handled session response]) (s.deliver session response i call) := by
  -- the call is registered once, and that is erased
  have hgone : ∀ k requestId, (s.deliver session response i call).pending k requestId ≠ some i := by
    intro k requestId hk
    obtain ⟨hnot, hbefore⟩ := pending_erase hk
    obtain ⟨c, hc, hcid, -⟩ := h.registered k requestId i hbefore
    rw [hcall, some.injEq] at hc
    refine hnot ⟨h.once k session requestId response.requestId i hbefore hpending, ?_⟩
    rw [← hcid, ← hc, hid]
  obtain ⟨c, hc, -, -, hpoint⟩ := h.registered session response.requestId i hpending
  rw [hcall, some.injEq] at hc
  rw [← hc] at hpoint
  refine h.replace { call with response := some response } [.handled session response] _ hcall rfl
    (fun k requestId j hj _ => (pending_erase hj).2)
    (fun k requestId hk => absurd hk (hgone k requestId))
    (fun k _ requestId _ hk => absurd hk (hgone k requestId)) ?_ (h.unsent i call hcall)
    (h.handed i call hcall) ?_ ?_ ?_
  · intro hearly
    rcases hpoint with hpoint | hpoint
    · have hearly' : call.point.early = true := hearly
      rw [hpoint] at hearly'
      cases hearly'
    · have hearly' : call.point.early = true := hearly
      rw [hpoint] at hearly'
      cases hearly'
  · intro r hr
    rw [← some.inj hr]
    exact ⟨hid.symm, session, mem_append_right _ mem_cons_self⟩
  · exact (h.ignored session response).written i call hcall
  · intro record hmem j hj
    rw [mem_singleton.mp hmem]
    rfl

end

/-- What the first response to a call is stays as long as none is recorded. -/
theorem responsesTo_append {new : List Record}
    (hwritten : ∃ record ∈ records, record.isWrite i = true) :
    responsesTo i call (records ++ new) = responsesTo i call records ++
      match call.session with
      | none => []
      | some session => new.filterMap (Record.responseTo session call.message.requestId) := by
  unfold responsesTo
  cases call.session with
  | none => rfl
  | some session =>
    dsimp only
    rw [fromFirst_append_of_ne, filterMap_append]
    intro hnil
    obtain ⟨record, hmem, hwrite⟩ := hwritten
    rw [fromFirst_eq_nil.mp hnil record hmem] at hwrite
    cases hwrite

/-! ## What a step can do -/

inductive Turn (s : State) : Action → State → Prop
  | call {operation : Operation} {metadata name : String} {s' : State}
      (hbegin : s.begin operation metadata name = some s') :
      Turn s (.call operation metadata name) s'
  | send {i : ℕ} {call : Call} (hcall : s.calls[i]? = some call) (hpoint : call.point = .drawn) :
      Turn s (.send i) (s.put i { call with session := some s.running, point := .sending })
  | write {i : ℕ} {call : Call} (hcall : s.calls[i]? = some call) (hsession : call.session ≠ none)
      (hwritten : call.written = false) : Turn s (.write i) (s.put i { call with written := true })
  | sendReturns {i : ℕ} {call : Call} (hcall : s.calls[i]? = some call)
      (hpoint : call.point = .sending) :
      Turn s (.sendReturns i) (s.put i { call with point := .sent })
  | getResponse {i : ℕ} {call : Call} (hcall : s.calls[i]? = some call)
      (hpoint : call.point = .sent) :
      Turn s (.getResponse i) (s.put i { call with point := .registering s.running })
  | register {i session : ℕ} {call : Call} (hcall : s.calls[i]? = some call)
      (hpoint : call.point = .registering session) :
      Turn s (.register i) ((s.setPending session (AList.insert call.message.requestId i)).put i
        { call with point := .waiting session })
  | takeResponse {i session : ℕ} {call : Call} {response : RequestResponse}
      (hcall : s.calls[i]? = some call) (hpoint : call.point = .waiting session)
      (hresponse : call.response = some response) :
      Turn s (.takeResponse i) (s.put i { call with point := .returned (outcome response) })
  | timeout {i session : ℕ} {call : Call} (hcall : s.calls[i]? = some call)
      (hpoint : call.point = .waiting session) (hnone : call.response = none)
      (hpending : s.pending session call.message.requestId = some i) :
      Turn s (.timeout i) (s.put i { call with point := .returned (.error .timeout) })
  | unwrap {i session : ℕ} {call : Call} (hcall : s.calls[i]? = some call)
      (hpoint : call.point = .waiting session) (hnone : call.response = none)
      (hpending : s.pending session call.message.requestId ≠ some i) :
      Turn s (.unwrap i) (s.put i { call with point := .panicked })
  | handle (session : ℕ) (response : RequestResponse) :
      Turn s (.requestResponse session response) (s.onRequestResponse session response)
  | restart :
      Turn s .restart { s with sessions := s.sessions ++ [.new], running := s.sessions.length }

variable {a : Action}

theorem step_cases (h : s.step a = some s') : Turn s a s' := by
  cases a with
  | call operation metadata name => exact .call h
  | send i =>
    obtain ⟨call, hcall, h⟩ := bind_eq_some_iff.mp h
    unfold send at h
    split at h
    · next hpoint => exact some.inj h ▸ .send hcall hpoint
    · cases h
  | write i =>
    obtain ⟨call, hcall, h⟩ := bind_eq_some_iff.mp h
    unfold write at h
    rw [ite_none_right_eq_some, some.injEq, Bool.not_eq_true] at h
    obtain ⟨⟨hsession, hwritten⟩, rfl⟩ := h
    exact .write hcall (isSome_iff_ne_none.mp hsession) hwritten
  | sendReturns i =>
    obtain ⟨call, hcall, h⟩ := bind_eq_some_iff.mp h
    unfold sendReturns at h
    split at h
    · next hpoint => exact some.inj h ▸ .sendReturns hcall hpoint
    · cases h
  | getResponse i =>
    obtain ⟨call, hcall, h⟩ := bind_eq_some_iff.mp h
    unfold getResponse at h
    split at h
    · next hpoint => exact some.inj h ▸ .getResponse hcall hpoint
    · cases h
  | register i =>
    obtain ⟨call, hcall, h⟩ := bind_eq_some_iff.mp h
    unfold register at h
    split at h
    · next session hpoint => exact some.inj h ▸ .register hcall hpoint
    · cases h
  | takeResponse i =>
    obtain ⟨call, hcall, h⟩ := bind_eq_some_iff.mp h
    unfold takeResponse at h
    split at h
    · next session hpoint =>
      obtain ⟨response, hresponse, rfl⟩ := map_eq_some_iff.mp h
      exact .takeResponse hcall hpoint hresponse
    · cases h
  | timeout i =>
    obtain ⟨call, hcall, h⟩ := bind_eq_some_iff.mp h
    unfold timeout at h
    split at h
    · next session hpoint =>
      unfold isOpen at h
      rw [ite_none_right_eq_some, some.injEq, Bool.and_eq_true, decide_eq_true_eq,
        isNone_iff_eq_none] at h
      obtain ⟨⟨hnone, hpending⟩, rfl⟩ := h
      exact .timeout hcall hpoint hnone hpending
    · cases h
  | unwrap i =>
    obtain ⟨call, hcall, h⟩ := bind_eq_some_iff.mp h
    unfold unwrap at h
    split at h
    · next session hpoint =>
      unfold isOpen at h
      obtain ⟨⟨hnone, hopen⟩, rfl⟩ := of_guard h
      rw [hnone, Bool.true_and, decide_eq_true_eq] at hopen
      exact .unwrap hcall hpoint (isNone_iff_eq_none.mp hnone) hopen
    · cases h
  | requestResponse session response =>
    unfold step at h
    rw [ite_none_right_eq_some, some.injEq] at h
    exact h.2 ▸ .handle session response
  | restart => exact some.inj h ▸ .restart

/-- A new session has no channels. -/
theorem pending_restart (s : State) (session : ℕ) (requestId : UInt32) (running : ℕ) :
    pending { s with sessions := s.sessions ++ [.new], running } session requestId =
      s.pending session requestId := by
  unfold pending
  dsimp only
  rw [getElem?_concat]
  by_cases hsession : session = s.sessions.length
  · rw [if_pos hsession, hsession, getElem?_eq_none (le_refl _)]
    rfl
  · rw [if_neg hsession]

/-- Every step keeps what holds in every run. -/
theorem Sound.step (h : Sound records s) (hturn : Turn s a s') :
    Sound (records ++ record s a) s' := by
  cases hturn with
  | call hbegin =>
    show Sound (records ++ []) _
    rw [append_nil]
    exact (h.begin hbegin).1
  | @send i call hcall hpoint =>
    show Sound (records ++ []) _
    rw [append_nil]
    refine h.goto _ hcall rfl rfl rfl (fun _ => by rw [hpoint]; rfl) nofun
      (fun _ => some_ne_none _) fun session requestId hpending => ?_
    exact absurd hpending (h.not_registered hcall (.inr (by rw [hpoint]; rfl)) session requestId)
  | write hcall hsession hwritten => exact h.write hcall hsession
  | @sendReturns i call hcall hpoint | @getResponse i call hcall hpoint =>
    show Sound (records ++ []) _
    rw [append_nil]
    refine h.goto _ hcall rfl rfl rfl (fun _ => by rw [hpoint]; rfl) nofun
      (fun hsession => hsession) fun session requestId hpending => ?_
    exact absurd hpending (h.not_registered hcall (.inr (by rw [hpoint]; rfl)) session requestId)
  | register hcall hpoint =>
    show Sound (records ++ []) _
    rw [append_nil]
    exact h.register hcall hpoint
  | @takeResponse i session call response hcall hpoint hresponse =>
    show Sound (records ++ []) _
    rw [append_nil]
    refine h.goto _ hcall rfl rfl rfl nofun nofun
      (fun hsession => hsession) fun k requestId hpending => ?_
    have hsome : call.response ≠ none := by
      rw [hresponse]
      exact some_ne_none _
    exact absurd hpending (h.not_registered hcall (.inl hsome) k requestId)
  | timeout hcall hpoint hnone hpending =>
    show Sound (records ++ []) _
    rw [append_nil]
    exact h.goto _ hcall rfl rfl rfl nofun nofun
      (fun hsession => hsession) fun _ _ _ => .inr rfl
  | @unwrap i session call hcall hpoint hnone hpending =>
    show Sound (records ++ []) _
    rw [append_nil]
    refine h.goto _ hcall rfl rfl rfl nofun nofun
      (fun hsession => hsession) fun k requestId hk => ?_
    -- a call whose sender is gone is registered nowhere else
    obtain ⟨c, hc, hid, -, hc'⟩ := h.registered k requestId i hk
    rw [hcall, some.injEq] at hc
    rw [← hc, hpoint] at hc'
    rcases hc' with hc' | hc'
    · cases hc'
      rw [← hid, ← hc] at hk
      exact absurd hk hpending
    · cases hc'
  | handle session response =>
    show Sound (records ++ [.handled session response]) _
    rcases h.handle_cases session response with
      ⟨hsame, -⟩ | ⟨i, call, hcall, hid, -, hpending, -, heq⟩
    · rw [hsame]
      exact h.ignored session response
    · rw [heq]
      exact h.deliver hcall hid hpending
  | restart =>
    show Sound (records ++ []) _
    rw [append_nil]
    have hpending := pending_restart s
    refine ⟨?_, ?_, h.early, h.unsent, h.handed, h.came, h.written, h.unknown⟩
    · intro session requestId i hi
      exact h.registered session requestId i ((hpending _ _ _).symm.trans hi)
    · intro k k' requestId requestId' i hi hi'
      exact h.once k k' requestId requestId' i ((hpending _ _ _).symm.trans hi)
        ((hpending _ _ _).symm.trans hi')

/-! ## Nothing is missed -/

theorem nothingMissed_new : NothingMissed [] new where
  heard := fun _ _ hcall => by cases hcall
  clean := fun _ _ hcall => by cases hcall

/-- A call goes to another point, and nothing is recorded. -/
theorem NothingMissed.goto (h : NothingMissed records s) (call' : Call)
    (hcall : s.calls[i]? = some call) (hcalls : s'.calls = s.calls.set i call')
    (hmessage : call'.message = call.message) (hresponse : call'.response = call.response)
    (hwritten : call'.written = true → call.written = true ∧ call'.session = call.session)
    (hreturned : ¬ call.point.Returned)
    (hpending : ∀ session requestId j, s'.pending session requestId = some j → j ≠ i →
      s.pending session requestId = some j)
    (hclean : call'.point.Returned → ∀ session requestId, s'.pending session requestId ≠ some i) :
    NothingMissed records s' := by
  constructor
  · intro j c hc hpoint hwrite response hfirst
    rw [hcalls] at hc
    rcases of_getElem?_set hcall hc with ⟨rfl, rfl⟩ | ⟨-, hc⟩
    · obtain ⟨hwrite, hsession⟩ := hwritten hwrite
      rw [hresponse]
      refine h.heard j call hcall hreturned hwrite response ?_
      unfold responsesTo at hfirst ⊢
      rw [hsession, hmessage] at hfirst
      exact hfirst
    · exact h.heard j c hc hpoint hwrite response hfirst
  · intro j c hc hpoint session requestId hj
    rw [hcalls] at hc
    rcases of_getElem?_set hcall hc with ⟨rfl, rfl⟩ | ⟨hji, hc⟩
    · exact hclean hpoint session requestId hj
    · exact h.clean j c hc hpoint session requestId (hpending session requestId j hj hji)

/-- The message of a call is written, and no response has come yet. -/
theorem NothingMissed.write (h : NothingMissed records s) (hsound : Sound records s)
    (hcall : s.calls[i]? = some call) (hwritten : call.written = false) :
    NothingMissed (records ++ [.written i]) (s.put i { call with written := true }) := by
  constructor
  · intro j c hc hpoint hwrite response hfirst
    rcases of_getElem?_set hcall hc with ⟨rfl, rfl⟩ | ⟨-, hc'⟩
    · -- the record of the call begins here
      have hnil : fromFirst (Record.isWrite j) records = [] := by
        apply fromFirst_eq_nil.mpr
        intro record hmem
        cases hwrite' : record.isWrite j with
        | false => rfl
        | true =>
          have hbad := (hsound.written j call hcall).mpr ⟨record, hmem, hwrite'⟩
          rw [hwritten] at hbad
          cases hbad
      have hself : Record.isWrite j (.written j) = true := decide_eq_true rfl
      unfold responsesTo at hfirst
      rw [fromFirst_append_of_nil _ hnil, fromFirst_cons hself] at hfirst
      split at hfirst
      · cases hfirst
      · cases hfirst
    · refine h.heard j c hc' hpoint hwrite response ?_
      rw [responsesTo_append ((hsound.written j c hc').mp hwrite)] at hfirst
      cases hsession : c.session with
      | none => simpa only [hsession, append_nil] using hfirst
      | some session =>
        simp only [hsession] at hfirst
        rw [filterMap_cons_none rfl, filterMap_nil, append_nil] at hfirst
        exact hfirst
  · intro j c hc hpoint session requestId hj
    rcases of_getElem?_set hcall hc with ⟨rfl, rfl⟩ | ⟨-, hc'⟩
    · exact h.clean j call hcall hpoint session requestId hj
    · exact h.clean j c hc' hpoint session requestId hj

/-- The responses to a call after one more has been handled. -/
theorem responsesTo_handled (hwritten : ∃ record ∈ records, record.isWrite i = true) :
    responsesTo i call (records ++ [.handled session response]) =
      responsesTo i call records ++
        if call.session = some session ∧ response.requestId = call.message.requestId then [response]
        else [] := by
  rw [responsesTo_append hwritten]
  cases hsession : call.session with
  | none =>
    rw [if_neg]
    rintro ⟨hbad, -⟩
    cases hbad
  | some k =>
    dsimp only
    by_cases hto : k = session ∧ response.requestId = call.message.requestId
    · have hrecord : Record.responseTo k call.message.requestId (.handled session response) =
          some response := if_pos ⟨hto.1.symm, hto.2⟩
      rw [filterMap_cons_some hrecord, if_pos ⟨by rw [hto.1], hto.2⟩]
      rfl
    · have hrecord : Record.responseTo k call.message.requestId (.handled session response) =
          none := if_neg fun hboth => hto ⟨hboth.1.symm, hboth.2⟩
      rw [filterMap_cons_none hrecord, if_neg fun hboth =>
        hto ⟨some.inj hboth.1, hboth.2⟩]
      rfl

/-- A call before a response is handled, and after it: the response is in its channel if it was
registered, and nothing is changed if it was not. -/
theorem Sound.handled_call (h : Sound records s) (session : ℕ) (response : RequestResponse)
    (hcall' : (s.onRequestResponse session response).calls[i]? = some call') :
    ∃ call, s.calls[i]? = some call ∧ (call' = call ∧
        ¬ (s.pending session response.requestId = some i ∧ response.isForDataTrack = false) ∨
      call' = { call with response := some response } ∧ call.response = none ∧
        call.message.requestId = response.requestId ∧
        s.pending session response.requestId = some i ∧ response.isForDataTrack = false) := by
  rcases h.handle_cases session response with
    ⟨hsame, hnot⟩ | ⟨j, call, hcall, hid, hnone, hpending, hdata, heq⟩
  · rw [hsame] at hcall'
    refine ⟨call', hcall', .inl ⟨rfl, ?_⟩⟩
    rintro ⟨hpending, hdata⟩
    rcases hnot with hnot | hnot
    · rw [hnot] at hdata
      cases hdata
    · rw [hnot] at hpending
      cases hpending
  · rw [heq] at hcall'
    rcases of_getElem?_set hcall hcall' with ⟨rfl, hset⟩ | ⟨hij, hget⟩
    · exact ⟨call, hcall, .inr ⟨hset, hnone, hid, hpending, hdata⟩⟩
    · refine ⟨call', hget, .inl ⟨rfl, ?_⟩⟩
      rintro ⟨hi, -⟩
      rw [hpending, some.injEq] at hi
      exact hij hi.symm

/-- Nothing is missed by a step that handles a response just when every call that waits for it is
registered. -/
theorem NothingMissed.handle_iff (h : NothingMissed records s) (hsound : Sound records s)
    (session : ℕ) (response : RequestResponse) :
    NothingMissed (records ++ [.handled session response]) (s.onRequestResponse session response) ↔
      Registered records s (.requestResponse session response)
        (s.onRequestResponse session response) := by
  constructor
  · intro hnext i call hcall hreturned hwrite hsession hid hfirst
    have hlast : (responsesTo i call (records ++ [.handled session response])).head? =
        some response := by
      rw [responsesTo_handled ((hsound.written i call hcall).mp hwrite), hfirst,
        if_pos ⟨hsession, hid.symm⟩]
      rfl
    by_contra hnot
    obtain ⟨hopen, hother⟩ := not_or.mp hnot
    -- the response does not reach the call
    have hcall' : (s.onRequestResponse session response).calls[i]? = some call := by
      rcases hsound.handle_cases session response with
        ⟨hsame, -⟩ | ⟨j, c, hc, -, -, hpending, hdata, heq⟩
      · rw [hsame, hcall]
      · rw [heq]
        show (s.calls.set j _)[i]? = _
        rw [getElem?_set hc, if_neg, hcall]
        rintro rfl
        exact hopen ⟨hpending, hdata⟩
    exact hother (hnext.heard i call hcall' hreturned hwrite response hlast)
  · intro hregistered
    constructor
    · intro i call' hcall' hreturned hwrite first hfirst
      obtain ⟨call, hcall, hcases⟩ := hsound.handled_call session response hcall'
      have hsame : call'.point = call.point ∧ call'.written = call.written ∧
          call'.session = call.session ∧ call'.message = call.message := by
        rcases hcases with ⟨rfl, -⟩ | ⟨rfl, -⟩ <;> exact ⟨rfl, rfl, rfl, rfl⟩
      obtain ⟨hpoint, hwritten, hsession, hmessage⟩ := hsame
      rw [hpoint] at hreturned
      rw [hwritten] at hwrite
      have hresponses : responsesTo i call' (records ++ [.handled session response]) =
          responsesTo i call (records ++ [.handled session response]) := by
        unfold responsesTo
        rw [hsession, hmessage]
      rw [hresponses, responsesTo_handled ((hsound.written i call hcall).mp hwrite)] at hfirst
      cases hbefore : responsesTo i call records with
      | cons r rest =>
        -- it is not the first response
        rw [hbefore, cons_append, head?_cons, some.injEq] at hfirst
        have hheard := h.heard i call hcall hreturned hwrite r (by rw [hbefore]; rfl)
        rcases hcases with ⟨rfl, -⟩ | ⟨-, hnone, -⟩
        · rw [hheard, hfirst]
        · rw [hheard] at hnone
          cases hnone
      | nil =>
        rw [hbefore, nil_append] at hfirst
        split at hfirst
        · next hto =>
          rw [head?_cons, some.injEq] at hfirst
          have hreg := hregistered i call hcall hreturned hwrite hto.1 hto.2.symm hbefore
          rcases hcases with ⟨rfl, hclosed⟩ | ⟨rfl, -⟩
          · rw [hreg.resolve_left hclosed, hfirst]
          · rw [hfirst]
        · cases hfirst
    · intro i call' hcall' hreturned k requestId hk
      obtain ⟨call, hcall, hcases⟩ := hsound.handled_call session response hcall'
      have hpoint : call'.point = call.point := by
        rcases hcases with ⟨rfl, -⟩ | ⟨rfl, -⟩ <;> rfl
      rw [hpoint] at hreturned
      refine h.clean i call hcall hreturned k requestId ?_
      rcases hsound.handle_cases session response with ⟨hsame, -⟩ | ⟨j, c, -, -, -, -, -, heq⟩
      · rw [hsame] at hk
        exact hk
      · rw [heq] at hk
        exact (pending_erase hk).2

/-- A new call misses nothing. -/
theorem NothingMissed.begin (h : NothingMissed records s) (hcalls : s'.calls = s.calls ++ [call])
    (hpoint : call.point = .drawn) (hwritten : call.written = false)
    (hpending : ∀ session requestId, s'.pending session requestId = s.pending session requestId) :
    NothingMissed records s' := by
  constructor
  · intro i c hc hreturned hwrite response hfirst
    rcases of_getElem?_concat (hcalls ▸ hc) with ⟨-, rfl⟩ | hc
    · rw [hwritten] at hwrite
      cases hwrite
    · exact h.heard i c hc hreturned hwrite response hfirst
  · intro i c hc hreturned session requestId
    rw [hpending]
    rcases of_getElem?_concat (hcalls ▸ hc) with ⟨-, rfl⟩ | hc
    · obtain ⟨result, hresult⟩ := hreturned
      rw [hpoint] at hresult
      cases hresult
    · exact h.clean i c hc hreturned session requestId

/-- Every step either leaves nothing missed, or is one that is not registered. -/
theorem NothingMissed.step_iff (h : NothingMissed records s) (hsound : Sound records s)
    (hturn : Turn s a s') :
    NothingMissed (records ++ record s a) s' ↔ Registered records s a s' := by
  -- the steps that record nothing and are excluded by nothing
  have hquiet : NothingMissed records s' → record s a = [] → Registered records s a s' →
      (NothingMissed (records ++ record s a) s' ↔ Registered records s a s') := by
    intro hnext hnil hregistered
    rw [hnil, append_nil]
    exact ⟨fun _ => hregistered, fun _ => hnext⟩
  have hnot : ∀ {point : Point}, (∀ result, point ≠ .returned result) → ¬ point.Returned := by
    rintro point hpoint ⟨result, hresult⟩
    exact hpoint result hresult
  cases hturn with
  | call hbegin =>
    obtain ⟨-, call, hcalls, hpoint, hwritten, hpending⟩ := hsound.begin hbegin
    exact hquiet (h.begin hcalls hpoint hwritten hpending) rfl trivial
  | @send i call hcall hpoint =>
    refine hquiet (h.goto _ hcall rfl rfl rfl (fun hwrite => ?_) (hnot fun _ => by simp [hpoint])
      (fun _ _ _ hj _ => hj) fun hbad => ?_) rfl trivial
    · exact absurd (hsound.unsent i call hcall hpoint) (hsound.handed i call hcall hwrite)
    · exact absurd hbad (hnot fun _ => Point.noConfusion)
  | @write i call hcall hsession hwritten =>
    exact ⟨fun _ => trivial, fun _ => h.write hsound hcall hwritten⟩
  | @sendReturns i call hcall hpoint | @getResponse i call hcall hpoint
  | @unwrap i session call hcall hpoint hnone hpending =>
    exact hquiet (h.goto _ hcall rfl rfl rfl (fun hwrite => ⟨hwrite, rfl⟩)
      (hnot fun _ => by simp [hpoint]) (fun _ _ _ hj _ => hj)
      fun hbad => absurd hbad (hnot fun _ => Point.noConfusion)) rfl trivial
  | @register i session call hcall hpoint =>
    refine hquiet (h.goto _ hcall rfl rfl rfl (fun hwrite => ⟨hwrite, rfl⟩)
      (hnot fun _ => by simp [hpoint]) (fun k requestId j hj hne => ?_)
      fun hbad => absurd hbad (hnot fun _ => Point.noConfusion)) rfl trivial
    rcases pending_insert hj with ⟨-, -, hji⟩ | hbefore
    · exact absurd hji hne
    · exact hbefore
  | @takeResponse i session call response hcall hpoint hresponse =>
    refine hquiet (h.goto _ hcall rfl rfl rfl (fun hwrite => ⟨hwrite, rfl⟩)
      (hnot fun _ => by simp [hpoint]) (fun _ _ _ hj _ => hj) fun _ k requestId => ?_) rfl trivial
    exact hsound.not_registered hcall (.inl (by simp [hresponse])) k requestId
  | @timeout i session call hcall hpoint hnone hpending =>
    refine ⟨fun hnext => ?_, fun hbad => hbad.elim⟩
    refine hnext.clean i { call with point := .returned (.error .timeout) } ?_ ⟨_, rfl⟩ session
      call.message.requestId hpending
    show (s.calls.set i _)[i]? = _
    rw [getElem?_set hcall, if_pos rfl]
  | handle session response => exact h.handle_iff hsound session response
  | restart =>
    refine hquiet ⟨h.heard, fun i call hcall hreturned session requestId => ?_⟩ rfl trivial
    rw [pending_restart]
    exact h.clean i call hcall hreturned session requestId

/-! ## What a step does -/

/-- A step that replaces one call at most. -/
theorem stepCorrect_of_set {call' : Call} (hcall : s.calls[i]? = some call)
    (hcalls : s'.calls = s.calls.set i call')
    (ha : ∀ session response, a ≠ .requestResponse session response)
    (hanswered : ∀ result, call'.point = .returned result → ¬ call.point.Returned →
      (call'.written = true → ∀ response, (responsesTo i call' records).head? = some response →
        result = outcome response) ∧
      (result = .error .timeout ∨ ∃ session response, Record.handled session response ∈ records ∧
        response.requestId = call'.message.requestId ∧ result = outcome response)) :
    StepCorrect records s a s' where
  answered := by
    intro j c result hc hreturned hbefore
    rcases of_getElem?_set hcall (hcalls ▸ hc) with ⟨rfl, rfl⟩ | ⟨-, hc⟩
    · exact hanswered result hreturned (hbefore call hcall)
    · exact absurd ⟨result, hreturned⟩ (hbefore c hc)
  isolated := fun session response hbad => absurd hbad (ha session response)

theorem stepCorrect (hsound : Sound records s) (h : NothingMissed records s) (hturn : Turn s a s') :
    StepCorrect records s a s' := by
  cases hturn with
  | call hbegin =>
    obtain ⟨-, call, hcalls, hpoint, -⟩ := hsound.begin hbegin
    refine ⟨fun i c result hc hreturned hbefore => ?_, nofun⟩
    rcases of_getElem?_concat (hcalls ▸ hc) with ⟨-, rfl⟩ | hc
    · rw [hpoint] at hreturned
      cases hreturned
    · exact absurd ⟨result, hreturned⟩ (hbefore c hc)
  | send hcall | sendReturns hcall | getResponse hcall | register hcall | unwrap hcall =>
    exact stepCorrect_of_set hcall rfl nofun fun _ hbad => by cases hbad
  | @write i call hcall hsession hwritten =>
    exact stepCorrect_of_set hcall rfl nofun
      fun result hresult hnot => absurd ⟨result, hresult⟩ hnot
  | @takeResponse i session call response hcall hpoint hresponse =>
    refine stepCorrect_of_set hcall rfl nofun
      fun result hresult hnot => ?_
    cases hresult
    refine ⟨fun hwrite first hfirst => ?_, .inr ?_⟩
    · have hheard := h.heard i call hcall hnot hwrite first hfirst
      rw [hresponse, some.injEq] at hheard
      rw [hheard]
    · obtain ⟨hid, k, hmem⟩ := hsound.came i call response hcall hresponse
      exact ⟨k, response, hmem, hid, rfl⟩
  | @timeout i session call hcall hpoint hnone hpending =>
    refine stepCorrect_of_set hcall rfl nofun
      fun result hresult hnot => ?_
    cases hresult
    refine ⟨fun hwrite first hfirst => ?_, .inl rfl⟩
    have hheard := h.heard i call hcall hnot hwrite first hfirst
    rw [hnone] at hheard
    cases hheard
  | handle session response =>
    refine ⟨fun i call' result hcall' hreturned hbefore => ?_, ?_⟩
    · obtain ⟨call, hcall, hcases⟩ := hsound.handled_call session response hcall'
      have hpoint : call'.point = call.point := by
        rcases hcases with ⟨rfl, -⟩ | ⟨rfl, -⟩ <;> rfl
      exact absurd ⟨result, hpoint ▸ hreturned⟩ (hbefore call hcall)
    · intro k r heq i call hcall hid
      cases heq
      rcases hsound.handle_cases session response with
        ⟨hsame, -⟩ | ⟨j, c, hc, hcid, -, -, -, hdeliver⟩
      · rw [hsame, hcall]
      · rw [hdeliver]
        show (s.calls.set j _)[i]? = _
        rw [getElem?_set hc, if_neg, hcall]
        rintro rfl
        rw [hcall, some.injEq] at hc
        rw [← hc] at hcid
        exact hid hcid
  | restart =>
    exact ⟨fun i c result hc hreturned hbefore => absurd ⟨result, hreturned⟩ (hbefore c hc),
      fun _ _ hbad => by cases hbad⟩

/-! ## Every run -/

/-- Nothing is missed and nothing is left behind in the runs without timeouts in which every call
that a response is for is registered where its message was written, and in no others; there every
call returns the outcome of the first response to it. -/
theorem requests_iff (run : List Action) :
    (Always State.step record NothingMissed State.new run ∧
      EachStepOn State.step record StepCorrect [] State.new run) ↔
    EachStepOn State.step record Registered [] State.new run := by
  have hiff : Always step record NothingMissed new run ↔
      EachStepOn step record Registered [] new run := by
    refine always_iff_eachStepOn (I := fun records s => Sound records s ∧ NothingMissed records s)
      (fun _ _ hinv => hinv.2) ?_ ⟨sound_new, nothingMissed_new⟩ run
    intro records s a s' hinv hstep
    have hturn := step_cases hstep
    have hstepIff := hinv.2.step_iff hinv.1 hturn
    by_cases hregistered : Registered records s a s'
    · exact .inl ⟨hregistered, hinv.1.step hturn, hstepIff.mpr hregistered⟩
    · exact .inr ⟨hregistered, fun hnext => hregistered (hstepIff.mp hnext)⟩
  constructor
  · exact fun hboth => hiff.mp hboth.1
  · intro hregistered
    refine ⟨hiff.mpr hregistered, EachStepOn.of_invariant
      (I := fun records s => Sound records s ∧ NothingMissed records s) ?_
      ⟨sound_new, nothingMissed_new⟩ hregistered⟩
    intro records s a s' hinv hstep hreg
    have hturn := step_cases hstep
    exact ⟨⟨hinv.1.step hturn, (hinv.2.step_iff hinv.1 hturn).mpr hreg⟩,
      stepCorrect hinv.1 hinv.2 hturn⟩

/-- The response comes before the channel is registered, and the call times out. -/
theorem early_response_is_missed :
    ∃ run s, exec State.step State.new run = some s ∧
      s.calls.map (fun call => call.response.isSome) = [false] ∧
      s.calls[0]?.map Call.point = some (.returned (.error .timeout)) ∧
      s.pending 0 1 = some 0 ∧ ¬ Always State.step record NothingMissed State.new run := by
  refine ⟨[.call (.setName "me") "" "", .send 0, .write 0, .requestResponse 0 ⟨1, 0, "", none⟩,
    .sendReturns 0, .getResponse 0, .register 0, .timeout 0], _, rfl, rfl, rfl, rfl, ?_⟩
  intro halways
  have hmissed := halways [.call (.setName "me") "" "", .send 0, .write 0,
    .requestResponse 0 ⟨1, 0, "", none⟩] _ _ rfl rfl
  have hheard := hmissed.heard 0 _ rfl (by rintro ⟨result, hbad⟩; cases hbad) rfl _ rfl
  cases hheard

end LiveKit.Requests
