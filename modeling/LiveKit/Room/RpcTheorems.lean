import LiveKit.Lib.Components
import LiveKit.Room.Rpc

/-!
# Calls of methods are answered

The two tables agree with the calls that wait, so an answer reaches the call that it is for and
nothing is left of a call that has returned; `Answered` connects what is in the channels of a call
with what has come in since it began. A response without a plain payload and without an error is
taken for an empty payload, which is excluded in `rpc_correct`.
-/

namespace LiveKit.Rpc

open Record Components AList List Option State TransitionSystem Waiters
open RtcSession (Value SessionEvent RpcResponseValue emitPlainPacket)

/-! ## What is promised -/

/-- What a response says to the call. -/
inductive Says : Option RpcResponseValue → RpcResult → Prop
  | payload (payload : String) : Says (some (.payload payload)) (.ok payload)
  | error (err : RtcSession.RpcError) : Says (some (.error err)) (.error (.fromProto err))

/-- Why a call returns with a result in a step, given what has been recorded before. -/
inductive Explained (belowMinimum : String → Option Bool) (records : List Record) (i : ℕ)
    (call : Call) : Action → RpcResult → Prop
  /-- The payload is too large, so nothing is sent. -/
  | tooLarge {serverVersion : Option String} {id : String}
      (hlarge : MAX_PAYLOAD_BYTES < call.data.payload.utf8ByteSize) :
      Explained belowMinimum records i call (.perform call.data serverVersion id)
        (.error (.builtIn .requestPayloadTooLarge none))
  /-- The server is too old, so nothing is sent. -/
  | unsupported {version id : String} (hversion : version ≠ "")
      (hbelow : belowMinimum version = some true) :
      Explained belowMinimum records i call (.perform call.data (some version) id)
        (.error (.builtIn .unsupportedServer none))
  /-- The request has failed to be sent. -/
  | notSent (e : String) : Explained belowMinimum records i call (.published i (some e))
      (.error (.builtIn .sendFailed (some e)))
  | ackTimeout (hacked : acked call.id records = false) :
      Explained belowMinimum records i call (.ackTimeout i)
        (.error (.builtIn .connectionTimeout none))
  | responseTimeout (hresponses : responsesTo call.id records = []) :
      Explained belowMinimum records i call (.responseTimeout i)
        (.error (.builtIn .responseTimeout none))
  /-- The first response decides. -/
  | answered {value : Option RpcResponseValue} {result : RpcResult}
      (hfirst : (responsesTo call.id records).head? = some value) (hmeans : Says value result) :
      Explained belowMinimum records i call (.takeResponse i) result

def Point.Returned (point : Point) : Prop := ∃ result, point = .returned result

/-- How many awaits a call has before it. -/
def Point.remaining : Point → ℕ
  | .publishing => 3
  | .awaitingAck => 2
  | .awaitingResponse => 1
  | .returned _ => 0
  | .panicked => 0

/-- What a packet is for. -/
def idOf : Value → Option String
  | .rpcResponse response => some response.requestId
  | .rpcAck ack => some ack.requestId
  | _ => none

variable (belowMinimum : String → Option Bool)

/-- What every step does: a call that has returned stays as it returned, one that returns does so
for a reason, and what comes in for one id does nothing to the others. -/
structure StepCorrect (belowMinimum : String → Option Bool) (records : List Record) (s : State)
    (a : Action) (s' : State) : Prop where
  final : ∀ (i : ℕ) call result, s.calls[i]? = some call → call.point = .returned result →
    ∃ call', s'.calls[i]? = some call' ∧ call'.point = .returned result
  explained : ∀ (i : ℕ) call' result, s'.calls[i]? = some call' → call'.point = .returned result →
    (∀ call, s.calls[i]? = some call → ¬ call.point.Returned) →
    Explained belowMinimum records i call' a result
  isolated : ∀ value, a = .receive value → ∀ (i : ℕ) call, s.calls[i]? = some call →
    idOf value ≠ some call.id → s'.calls[i]? = some call

/-- What holds in every state: nothing is left of a call that has returned, and one that has not
can go on, with fewer awaits before it. -/
structure StateCorrect (s : State) : Prop where
  clean : ∀ (i : ℕ) call, s.calls[i]? = some call → call.point.Returned →
    call.id ∉ s.pendingAcks ∧ call.id ∉ s.pendingResponses
  goesOn : ∀ (i : ℕ) call, s.calls[i]? = some call → ¬ call.point.Returned →
    ∃ a s' call', s.step belowMinimum a = some s' ∧ s'.calls[i]? = some call' ∧
      call'.point.remaining < call.point.remaining

/-- The step is no response without plain payload and error for a call that waits, and no call
that panics over the version of the server. -/
def Understood (s : State) : Action → State → Prop
  | .receive (.rpcResponse response), _ =>
    response.requestId ∈ s.pendingResponses → ∃ result, Says response.value result
  | .perform data serverVersion _, _ =>
    precheck belowMinimum data serverVersion ≠ some .panicked
  | _, _ => True

/-! ## What comes in -/

/-- What the room makes of the value of a response. -/
def answerOf : Option RpcResponseValue → RpcResult
  | none => .ok ""
  | some (.payload payload) => .ok payload
  | some (.error err) => .error (.fromProto err)
  | some (.compressedPayload _) => .ok ""

variable {result : RpcResult} {value : Value} {id : String} {call' : Call}
  {table : AssocMap String ℕ} {asks : Call → Option String}

/-- The answer the caller gets is what the response says. -/
theorem answerOf_eq {value : Option RpcResponseValue} (h : Says value result) :
    answerOf value = result := by
  cases h <;> rfl

/-- A response is taken by the call that waits for it, and by nobody else. -/
theorem receive_response (s : State) (response : RtcSession.RpcResponse) :
    s.receive (.rpcResponse response) =
      match lookup response.requestId s.pendingResponses with
      | some i =>
        { s with
          pendingResponses := erase response.requestId s.pendingResponses
          calls := s.calls.modify i fun call =>
            { call with response := some (answerOf response.value) } }
      | none => s := by
  obtain ⟨id, value⟩ := response
  cases value with
  | none => rfl
  | some value => cases value <;> rfl

theorem receive_ack (s : State) (ack : RtcSession.RpcAck) :
    s.receive (.rpcAck ack) = s.handleIncomingRpcAck ack.requestId := rfl

/-- A packet that is not about a call changes nothing. -/
theorem receive_other (s : State) (h : idOf value = none) :
    s.receive value = s := by
  cases value <;> first | rfl | cases h

/-! ## The calls that wait -/

/-- The call waits for its ack, under this id. -/
def Call.asksAck (call : Call) : Option String :=
  match call.point with
  | .publishing => if call.ack then none else some call.id
  | .awaitingAck => if call.ack then none else some call.id
  | _ => none

/-- The call has not returned. -/
def Point.waits : Point → Bool
  | .publishing => true
  | .awaitingAck => true
  | .awaitingResponse => true
  | _ => false

/-- The call waits for its response, under this id. -/
def Call.asksResponse (call : Call) : Option String :=
  if call.point.waits ∧ call.response = none then some call.id else none

/-- What is known of a call that waits. -/
structure Known (records : List Record) (call : Call) : Prop where
  id : call.id ≠ ""
  requested : since call.id records ≠ []
  unanswered : call.response = none → responsesTo call.id records = []
  answered : ∀ result, call.response = some result →
    ∃ value, (responsesTo call.id records).head? = some value ∧ Says value result
  unacked : call.ack = false → acked call.id records = false
  taken : call.point = .awaitingResponse → call.ack = true

/-- The tables agree with the calls, and what is in the channels of a call has come in. -/
structure RpcInv (records : List Record) (s : State) : Prop where
  acks : Agree s.pendingAcks fun i => s.calls[i]?.bind Call.asksAck
  responses : Agree s.pendingResponses fun i => s.calls[i]?.bind Call.asksResponse
  distinct : ∀ (i j : ℕ) ci cj, s.calls[i]? = some ci → s.calls[j]? = some cj → ci.id = cj.id →
    ci.id ≠ "" → i = j
  fresh : ∀ record ∈ records, ∀ id, record.isRequest id = true →
    ∃ call ∈ s.calls, call.id = id
  known : ∀ (i : ℕ) call, s.calls[i]? = some call → call.point.waits = true → Known records call
  parses : ∀ call ∈ s.calls, call.point ≠ .panicked

theorem rpcInv_new : RpcInv [] State.new where
  acks := agree_empty fun _ => rfl
  responses := agree_empty fun _ => rfl
  distinct := fun _ _ _ _ hcall => by cases hcall
  fresh := fun _ hmem => by cases hmem
  known := fun _ _ hcall => by cases hcall
  parses := fun _ hmem => by cases hmem

variable {i : ℕ} {records : List Record} {s : State}

/-- Whoever is in the table of the acks waits for one. -/
theorem RpcInv.of_ack (h : RpcInv records s) (hlookup : lookup id s.pendingAcks = some i) :
    ∃ call, s.calls[i]? = some call ∧ call.asksAck = some id := by
  obtain ⟨call, hcall, hasks⟩ := bind_eq_some_iff.mp ((h.acks id i).mp hlookup)
  exact ⟨call, hcall, hasks⟩

/-- Whoever is in the table of the responses waits for one. -/
theorem RpcInv.of_response (h : RpcInv records s) {id : String}
    (hlookup : lookup id s.pendingResponses = some i) :
    ∃ call, s.calls[i]? = some call ∧ call.asksResponse = some id := by
  obtain ⟨call, hcall, hasks⟩ := bind_eq_some_iff.mp ((h.responses id i).mp hlookup)
  exact ⟨call, hcall, hasks⟩

variable {call : Call}

/-- A call that waits for the acknowledgement is at one of two points. -/
theorem of_asksAck (h : call.asksAck = some id) :
    call.point.waits = true ∧ call.id = id ∧ call.ack = false ∧
      (call.point = .publishing ∨ call.point = .awaitingAck) := by
  unfold Call.asksAck at h
  split at h
  · next hpoint =>
    rw [ite_none_left_eq_some, some.injEq, Bool.not_eq_true] at h
    exact ⟨by rw [hpoint]; rfl, h.2, h.1, .inl hpoint⟩
  · next hpoint =>
    rw [ite_none_left_eq_some, some.injEq, Bool.not_eq_true] at h
    exact ⟨by rw [hpoint]; rfl, h.2, h.1, .inr hpoint⟩
  · cases h

/-- A call that waits for the response has none yet. -/
theorem of_asksResponse (h : call.asksResponse = some id) :
    call.point.waits = true ∧ call.id = id ∧ call.response = none := by
  unfold Call.asksResponse at h
  rw [ite_none_right_eq_some, some.injEq] at h
  exact ⟨h.1.1, h.2, h.1.2⟩

/-- A call that waits and has no ack waits for one. -/
theorem asksAck_of_unacked (h : Known records call) (hwaits : call.point.waits = true)
    (hack : call.ack = false) : call.asksAck = some call.id := by
  unfold Call.asksAck
  cases hpoint : call.point with
  | publishing | awaitingAck => exact if_neg (by rw [hack]; decide)
  | awaitingResponse =>
    rw [h.taken hpoint] at hack
    cases hack
  | returned | panicked =>
    rw [hpoint] at hwaits
    cases hwaits

variable {point : Point}

/-- A call that returned waits for nothing. -/
theorem not_waits_of_returned (h : point.Returned) : point.waits = false := by
  obtain ⟨result, rfl⟩ := h
  rfl

section

variable (h : RpcInv records s) (hcall : s.calls[i]? = some call)

include h hcall

/-- The channel of the ack of a call that waits for it has an ack, or an open sender. -/
theorem RpcInv.ackReady_eq (hpoint : call.point = .awaitingAck) : s.ackReady i call = call.ack := by
  unfold ackReady
  cases hack : call.ack with
  | true => rfl
  | false =>
    have hasks : call.asksAck = some call.id := by
      unfold Call.asksAck
      rw [hpoint, hack]
      rfl
    have hlookup := (h.acks call.id i).mpr (by
      show s.calls[i]?.bind Call.asksAck = some call.id
      rw [hcall]
      exact hasks)
    rw [Bool.false_or, hlookup]
    exact decide_eq_false (fun hne => hne rfl)

/-- The channel of the response of a call that waits for it has a response, or an open sender. -/
theorem RpcInv.responseReady_eq (hpoint : call.point = .awaitingResponse) :
    s.responseReady i call = call.response := by
  unfold responseReady
  cases hresponse : call.response with
  | some result => rfl
  | none =>
    have hasks : call.asksResponse = some call.id := by
      unfold Call.asksResponse
      rw [hpoint, hresponse]
      rfl
    have hlookup := (h.responses call.id i).mpr (by
      show s.calls[i]?.bind Call.asksResponse = some call.id
      rw [hcall]
      exact hasks)
    rw [hlookup, if_pos rfl]
    rfl

/-- A call that has returned is in neither table. -/
theorem RpcInv.clean (hreturned : call.point.Returned) :
    call.id ∉ s.pendingAcks ∧ call.id ∉ s.pendingResponses := by
  -- ids are distinct, so what is in a table is there for another call
  have hnot : ∀ (j : ℕ) c, s.calls[j]? = some c → c.point.waits = true → c.id ≠ call.id := by
    intro j c hc hwaits heq
    have hid := (h.known j c hc hwaits).id
    have hji := h.distinct j i c call hc hcall heq hid
    rw [hji, hcall, some.injEq] at hc
    rw [← hc, not_waits_of_returned hreturned] at hwaits
    cases hwaits
  constructor
  · apply lookup_eq_none.mp
    cases hlookup : lookup call.id s.pendingAcks with
    | none => rfl
    | some j =>
      obtain ⟨c, hc, hasks⟩ := h.of_ack hlookup
      obtain ⟨hwaits, hid, -⟩ := of_asksAck hasks
      exact absurd hid (hnot j c hc hwaits)
  · apply lookup_eq_none.mp
    cases hlookup : lookup call.id s.pendingResponses with
    | none => rfl
    | some j =>
      obtain ⟨c, hc, hasks⟩ := h.of_response hlookup
      obtain ⟨hwaits, hid, -⟩ := of_asksResponse hasks
      exact absurd hid (hnot j c hc hwaits)

end

theorem getElem?_goto (point : Point) (hcall : s.calls[i]? = some call) (j : ℕ) :
    (s.goto i call point).calls[j]? =
      if j = i then some { call with point } else s.calls[j]? :=
  getElem?_set hcall _ j

/-- A call that has not returned can go on. -/
theorem RpcInv.goesOn (h : RpcInv records s) (hcall : s.calls[i]? = some call)
    (hnot : ¬ call.point.Returned) :
    ∃ a s' call', s.step belowMinimum a = some s' ∧ s'.calls[i]? = some call' ∧
      call'.point.remaining < call.point.remaining := by
  cases hpoint : call.point with
  | publishing =>
    refine ⟨.published i none, s.goto i call .awaitingAck, { call with point := .awaitingAck },
      ?_, ?_, by show 2 < 3; decide⟩
    · rw [step, hcall, bind_some, published]
      simp only [hpoint]
    · rw [getElem?_goto _ hcall, if_pos rfl]
  | awaitingAck =>
    have hready := h.ackReady_eq hcall hpoint
    cases hack : call.ack with
    | true =>
      refine ⟨.takeAck i, s.goto i call .awaitingResponse,
        { call with point := .awaitingResponse }, ?_, ?_, by show 1 < 2; decide⟩
      · rw [step, hcall, bind_some, takeAck]
        simp only [hpoint, hready, hack, if_true]
      · rw [getElem?_goto _ hcall, if_pos rfl]
    -- without an ack the timeout is due at some time
    | false =>
      let timedOut : Point := .returned (.error (.builtIn .connectionTimeout none))
      refine ⟨.ackTimeout i, (s.forget call.id).goto i call timedOut,
        { call with point := timedOut }, ?_, ?_, by show 0 < 2; decide⟩
      · rw [step, hcall, bind_some, ackTimeout]
        simp only [hpoint, hready, hack, Bool.false_eq_true, if_false]
        rfl
      · rw [getElem?_goto (s := s.forget call.id) _ hcall, if_pos rfl]
  | awaitingResponse =>
    have hready := h.responseReady_eq hcall hpoint
    cases hresponse : call.response with
    | some result =>
      refine ⟨.takeResponse i, s.goto i call (.returned result),
        { call with point := .returned result }, ?_, ?_, by show 0 < 1; decide⟩
      · rw [step, hcall, bind_some, takeResponse]
        simp only [hpoint, hready, hresponse, map_some]
      · rw [getElem?_goto _ hcall, if_pos rfl]
    -- without a response likewise
    | none =>
      let timedOut : Point := .returned (.error (.builtIn .responseTimeout none))
      let t : State := { s with pendingResponses := erase call.id s.pendingResponses }
      refine ⟨.responseTimeout i, t.goto i call timedOut, { call with point := timedOut },
        ?_, ?_, by show 0 < 1; decide⟩
      · rw [step, hcall, bind_some, responseTimeout]
        simp only [hpoint, hready, hresponse, isSome_none, Bool.false_eq_true, if_false]
        rfl
      · rw [getElem?_goto (s := t) _ hcall, if_pos rfl]
  | returned result => exact absurd ⟨result, hpoint⟩ hnot
  | panicked => exact absurd hpoint (h.parses call (mem_of_getElem? hcall))

theorem RpcInv.stateCorrect (h : RpcInv records s) :
    StateCorrect belowMinimum s where
  clean := fun _ _ hcall hreturned => h.clean hcall hreturned
  goesOn := fun _ _ hcall hnot => h.goesOn belowMinimum hcall hnot

/-! ## The steps -/

/-- What a step can do. -/
inductive Turn (s : State) : Action → State → Prop
  | rejected {data : PerformRpcData} {serverVersion : Option String} {id : String} {point : Point}
      (hcheck : precheck belowMinimum data serverVersion = some point) :
      Turn s (.perform data serverVersion id) (s.reject data point)
  | begun {data : PerformRpcData} {serverVersion : Option String} {id : String}
      (hcheck : precheck belowMinimum data serverVersion = none) (hid : id ≠ "")
      (hfresh : ∀ call ∈ s.calls, call.id ≠ id) :
      Turn s (.perform data serverVersion id)
        { pendingAcks := AList.insert id s.calls.length s.pendingAcks
          pendingResponses := AList.insert id s.calls.length s.pendingResponses
          calls := s.calls ++ [⟨id, data, false, none, .publishing⟩] }
  | sent {i : ℕ} {call : Call} (hcall : s.calls[i]? = some call)
      (hpoint : call.point = .publishing) :
      Turn s (.published i none) (s.goto i call .awaitingAck)
  | notSent {i : ℕ} {call : Call} (e : String) (hcall : s.calls[i]? = some call)
      (hpoint : call.point = .publishing) :
      Turn s (.published i (some e))
        ((s.forget call.id).goto i call (.returned (.error (.builtIn .sendFailed (some e)))))
  | acked {i : ℕ} {call : Call} (hcall : s.calls[i]? = some call)
      (hpoint : call.point = .awaitingAck) (hready : s.ackReady i call = true) :
      Turn s (.takeAck i) (s.goto i call .awaitingResponse)
  | notAcked {i : ℕ} {call : Call} (hcall : s.calls[i]? = some call)
      (hpoint : call.point = .awaitingAck) (hready : s.ackReady i call = false) :
      Turn s (.ackTimeout i)
        ((s.forget call.id).goto i call (.returned (.error (.builtIn .connectionTimeout none))))
  | answered {i : ℕ} {call : Call} {result : RpcResult} (hcall : s.calls[i]? = some call)
      (hpoint : call.point = .awaitingResponse) (hready : s.responseReady i call = some result) :
      Turn s (.takeResponse i) (s.goto i call (.returned result))
  | notAnswered {i : ℕ} {call : Call} (hcall : s.calls[i]? = some call)
      (hpoint : call.point = .awaitingResponse) (hready : s.responseReady i call = none) :
      Turn s (.responseTimeout i)
        ({ s with pendingResponses := AList.erase call.id s.pendingResponses }.goto i call
          (.returned (.error (.builtIn .responseTimeout none))))
  | received (value : Value) : Turn s (.receive value) (s.receive value)

variable {a : Action} {s' : State}

/-- Every step is one of the turns. -/
theorem step_cases (h : s.step belowMinimum a = some s') : Turn belowMinimum s a s' := by
  cases a with
  | perform data serverVersion id =>
    rw [step, perform] at h
    cases hcheck : precheck belowMinimum data serverVersion with
    | some point =>
      simp only [hcheck, some.injEq] at h
      exact h ▸ .rejected hcheck
    | none =>
      simp only [hcheck, ite_none_left_eq_some, some.injEq, not_or] at h
      obtain ⟨⟨hid, hany⟩, rfl⟩ := h
      refine .begun hcheck hid fun call hmem heq => hany ?_
      exact any_eq_true.mpr ⟨call, hmem, decide_eq_true heq⟩
  | published i failed =>
    obtain ⟨call, hcall, h⟩ := bind_eq_some_iff.mp h
    unfold published at h
    split at h
    · next hpoint =>
      cases failed with
      | none => exact some.inj h ▸ .sent hcall hpoint
      | some e => exact some.inj h ▸ .notSent e hcall hpoint
    · cases h
  | takeAck i =>
    obtain ⟨call, hcall, h⟩ := bind_eq_some_iff.mp h
    unfold takeAck at h
    split at h
    · next hpoint =>
      rw [ite_none_right_eq_some, some.injEq] at h
      exact h.2 ▸ .acked hcall hpoint h.1
    · cases h
  | ackTimeout i =>
    obtain ⟨call, hcall, h⟩ := bind_eq_some_iff.mp h
    unfold ackTimeout at h
    split at h
    · next hpoint =>
      rw [ite_none_left_eq_some, some.injEq, Bool.not_eq_true] at h
      exact h.2 ▸ .notAcked hcall hpoint h.1
    · cases h
  | takeResponse i =>
    obtain ⟨call, hcall, h⟩ := bind_eq_some_iff.mp h
    unfold takeResponse at h
    split at h
    · next hpoint =>
      obtain ⟨result, hready, rfl⟩ := map_eq_some_iff.mp h
      exact .answered hcall hpoint hready
    · cases h
  | responseTimeout i =>
    obtain ⟨call, hcall, h⟩ := bind_eq_some_iff.mp h
    unfold responseTimeout at h
    split at h
    · next hpoint =>
      rw [ite_none_left_eq_some, some.injEq] at h
      exact h.2 ▸ .notAnswered hcall hpoint (not_isSome_iff_eq_none.mp h.1)
    · cases h
  | receive value =>
    rw [step, some.injEq] at h
    exact h ▸ .received value

/-! ## The invariant is kept -/

/-- New records add their responses to those of a call that is under way. -/
theorem responsesTo_append (new : List Record) (h : since id records ≠ []) :
    responsesTo id (records ++ new) =
      responsesTo id records ++ new.filterMap (responseTo id) := by
  unfold responsesTo
  rw [since, fromFirst_append_of_ne new h, filterMap_append]
  rfl

/-- New records add their acknowledgements to those of a call that is under way. -/
theorem acked_append (new : List Record) (h : since id records ≠ []) :
    acked id (records ++ new) = (acked id records || new.any (ackTo id)) := by
  unfold acked
  rw [since, fromFirst_append_of_ne new h, any_append]
  rfl

/-- What is recorded besides leaves what is known of a call, unless it waits for that. -/
theorem Known.append (h : Known records call) {new : List Record}
    (hresponses : call.response = none → new.filterMap (responseTo call.id) = [])
    (hacks : call.ack = false → new.any (ackTo call.id) = false) :
    Known (records ++ new) call where
  id := h.id
  requested := by
    rw [since, fromFirst_append_of_ne new h.requested]
    exact append_ne_nil_of_left_ne_nil h.requested new
  unanswered := by
    intro hnone
    rw [responsesTo_append new h.requested, h.unanswered hnone, hresponses hnone]
    rfl
  answered := by
    intro result hsome
    obtain ⟨value, hhead, hmeans⟩ := h.answered result hsome
    refine ⟨value, ?_, hmeans⟩
    rw [responsesTo_append new h.requested, head?_append, hhead]
    rfl
  unacked := by
    intro hack
    rw [acked_append new h.requested, h.unacked hack, hacks hack]
    rfl
  taken := h.taken

/-- The ack of a call is in its channel. -/
theorem Known.acked (h : Known records call) : Known records { call with ack := true } :=
  ⟨h.id, h.requested, h.unanswered, h.answered, nofun, fun _ => rfl⟩

variable {acks responses : AssocMap String ℕ}

/-- A call is replaced by one with the same id, and the tables with it. -/
theorem RpcInv.replace (h : RpcInv records s) (call' : Call) (new : List Record)
    (hcall : s.calls[i]? = some call) (hid : call'.id = call.id) (hpoint : call'.point ≠ .panicked)
    (hacks : Agree acks fun j => if j = i then call'.asksAck else s.calls[j]?.bind Call.asksAck)
    (hresponses : Agree responses fun j =>
      if j = i then call'.asksResponse else s.calls[j]?.bind Call.asksResponse)
    (hnew : ∀ record ∈ new, ∀ id, record.isRequest id = false)
    (hknown : call'.point.waits = true → Known (records ++ new) call')
    (hothers : ∀ (j : ℕ) c, j ≠ i → s.calls[j]? = some c → c.point.waits = true →
      Known (records ++ new) c) :
    RpcInv (records ++ new) ⟨acks, responses, s.calls.set i call'⟩ := by
  have hget : ∀ j : ℕ, (s.calls.set i call')[j]? = if j = i then some call' else s.calls[j]? :=
    getElem?_set hcall _
  refine ⟨hacks.congr fun j => ?_, hresponses.congr fun j => ?_, ?_, ?_, ?_, ?_⟩
  · show (s.calls.set i _)[j]?.bind _ = _
    rw [hget]
    split <;> rfl
  · show (s.calls.set i _)[j]?.bind _ = _
    rw [hget]
    split <;> rfl
  · -- the ids stay
    have hids : ∀ (j : ℕ) c, (s.calls.set i call')[j]? = some c →
        ∃ c₀, s.calls[j]? = some c₀ ∧ c₀.id = c.id := by
      intro j c hc
      rcases of_getElem?_set hcall hc with ⟨rfl, rfl⟩ | ⟨-, hc⟩
      · exact ⟨call, hcall, hid.symm⟩
      · exact ⟨c, hc, rfl⟩
    intro j k cj ck hj hk heq hne
    obtain ⟨cj', hj', hidj⟩ := hids j cj hj
    obtain ⟨ck', hk', hidk⟩ := hids k ck hk
    exact h.distinct j k cj' ck' hj' hk' (by rw [hidj, hidk, heq]) (by rw [hidj]; exact hne)
  · intro record hmem id hreq
    rcases mem_append.mp hmem with hmem | hmem
    · obtain ⟨c, hc, hcid⟩ := h.fresh record hmem id hreq
      obtain ⟨j, hj⟩ := mem_iff_getElem?.mp hc
      by_cases hji : j = i
      · rw [hji, hcall, some.injEq] at hj
        refine ⟨call', mem_of_getElem? (i := i) ?_, by rw [hid, hj, hcid]⟩
        show (s.calls.set i _)[i]? = _
        rw [hget, if_pos rfl]
      · refine ⟨c, mem_of_getElem? (i := j) ?_, hcid⟩
        show (s.calls.set i _)[j]? = _
        rw [hget, if_neg hji, hj]
    · rw [hnew record hmem id] at hreq
      cases hreq
  · intro j c hc hwaits
    rcases of_getElem?_set hcall hc with ⟨-, rfl⟩ | ⟨hj, hc'⟩
    · exact hknown hwaits
    · exact hothers j c hj hc' hwaits
  · intro c hmem
    rcases mem_or_eq_of_mem_set hmem with hmem | rfl
    · exact h.parses c hmem
    · exact hpoint

/-- A call that waits goes to another point, and the tables with it. -/
theorem RpcInv.goto (h : RpcInv records s) (hcall : s.calls[i]? = some call)
    (hwaits : call.point.waits = true) (hpoint : point ≠ .panicked)
    (htaken : point = .awaitingResponse → call.ack = true) (hacks : Agree acks fun j =>
      if j = i then Call.asksAck { call with point } else s.calls[j]?.bind Call.asksAck)
    (hresponses : Agree responses fun j =>
      if j = i then Call.asksResponse { call with point } else s.calls[j]?.bind Call.asksResponse) :
    RpcInv records (goto ⟨acks, responses, s.calls⟩ i call point) := by
  have hknown := h.known i call hcall hwaits
  have hnext := h.replace { call with point } [] hcall rfl hpoint hacks
    hresponses (fun _ hmem => by cases hmem)
    (fun _ => by
      rw [append_nil]
      exact ⟨hknown.id, hknown.requested, hknown.unanswered, hknown.answered, hknown.unacked,
        htaken⟩)
    (fun j c _ hc hw => by
      rw [append_nil]
      exact h.known j c hc hw)
  rw [append_nil] at hnext
  exact hnext

/-- What a call waits for stays, so the table agrees as before. -/
theorem agree_same (h : Agree table fun j => s.calls[j]?.bind asks)
    (hcall : s.calls[i]? = some call) (hsame : asks call' = asks call) :
    Agree table fun j => if j = i then asks call' else s.calls[j]?.bind asks := by
  apply h.congr
  intro j
  by_cases hj : j = i
  · rw [if_pos hj, hj, hcall, hsame]
    rfl
  · rw [if_neg hj]

/-- A call stops waiting, and its id is removed from the table. -/
theorem RpcInv.agree_erase (h : RpcInv records s)
    (hagree : Agree table fun j => s.calls[j]?.bind asks)
    (hasks : ∀ c id, asks c = some id → c.id = id) (hcall : s.calls[i]? = some call)
    (hid : call.id ≠ "") (hafter : asks call' = none) :
    Agree (erase call.id table)
      fun j => if j = i then asks call' else s.calls[j]?.bind asks := by
  refine hagree.erase (i := i) ?_ (by rw [if_pos rfl, hafter]) (fun j hj => if_neg hj)
  rw [hcall, bind_some]
  cases hbefore : asks call with
  | some id => exact .inl (by rw [hasks call id hbefore])
  | none =>
    refine .inr ⟨rfl, fun j hj => ?_⟩
    obtain ⟨c, hc, hcasks⟩ := bind_eq_some_iff.mp hj
    have hcid := hasks c _ hcasks
    have hji := h.distinct j i c call hc hcall hcid (by rw [hcid]; exact hid)
    rw [hji, hcall, some.injEq] at hc
    rw [← hc, hbefore] at hcasks
    cases hcasks

/-- A call begins, or is rejected. -/
theorem RpcInv.concat (h : RpcInv records s) (call : Call) (new : List Record)
    (hpoint : call.point ≠ .panicked) (hid : ∀ c ∈ s.calls, c.id = call.id → call.id = "")
    (hacks : Agree acks fun j =>
      if j = s.calls.length then call.asksAck else s.calls[j]?.bind Call.asksAck)
    (hresponses : Agree responses fun j =>
      if j = s.calls.length then call.asksResponse else s.calls[j]?.bind Call.asksResponse)
    (hnew : ∀ record ∈ new, ∀ id, record.isRequest id = true → call.id = id)
    (hquiet : ∀ id, new.filterMap (responseTo id) = [] ∧ new.any (ackTo id) = false)
    (hknown : call.point.waits = true → Known (records ++ new) call) :
    RpcInv (records ++ new) ⟨acks, responses, s.calls ++ [call]⟩ := by
  have hget : ∀ j : ℕ, (s.calls ++ [call])[j]? =
      if j = s.calls.length then some call else s.calls[j]? := getElem?_concat _ _
  refine ⟨hacks.congr fun j => ?_, hresponses.congr fun j => ?_, ?_, ?_, ?_, ?_⟩
  · show (s.calls ++ [call])[j]?.bind _ = _
    rw [hget]
    split <;> rfl
  · show (s.calls ++ [call])[j]?.bind _ = _
    rw [hget]
    split <;> rfl
  · intro j k cj ck hj hk heq hne
    rcases of_getElem?_concat hj with ⟨rfl, rfl⟩ | hj'
    · rcases of_getElem?_concat hk with ⟨rfl, rfl⟩ | hk'
      · rfl
      · exact absurd (hid ck (mem_of_getElem? hk') heq.symm) hne
    · rcases of_getElem?_concat hk with ⟨-, rfl⟩ | hk'
      · exact absurd (heq.trans (hid cj (mem_of_getElem? hj') heq)) hne
      · exact h.distinct j k cj ck hj' hk' heq hne
  · intro record hmem id hreq
    rcases mem_append.mp hmem with hmem | hmem
    · obtain ⟨c, hc, hcid⟩ := h.fresh record hmem id hreq
      exact ⟨c, mem_append_left _ hc, hcid⟩
    · exact ⟨call, mem_append_right _ mem_cons_self, hnew record hmem id hreq⟩
  · refine forall_concat ?_ hknown
    intro j c hc hwaits
    exact (h.known j c hc hwaits).append (fun _ => (hquiet c.id).1) (fun _ => (hquiet c.id).2)
  · intro c hmem
    rcases mem_append.mp hmem with hmem | hmem
    · exact h.parses c hmem
    · rw [mem_singleton.mp hmem]
      exact hpoint

theorem asksAck_id (h : call.asksAck = some id) : call.id = id :=
  (of_asksAck h).2.1

theorem asksResponse_id (h : call.asksResponse = some id) : call.id = id :=
  (of_asksResponse h).2.1

theorem asksAck_of_not_waits (h : call.point.waits = false) : call.asksAck = none := by
  cases hasks : call.asksAck with
  | none => rfl
  | some id =>
    have hwaits := (of_asksAck hasks).1
    rw [h] at hwaits
    cases hwaits

theorem asksResponse_of_not_waits (h : call.point.waits = false) : call.asksResponse = none := by
  cases hasks : call.asksResponse with
  | none => rfl
  | some id =>
    have hwaits := (of_asksResponse hasks).1
    rw [h] at hwaits
    cases hwaits

/-- A call that waits returns, and takes its entries out of the tables. -/
theorem RpcInv.forget (h : RpcInv records s) (hcall : s.calls[i]? = some call)
    (hwaits : call.point.waits = true) :
    RpcInv records ((s.forget call.id).goto i call (.returned result)) := by
  have hid := (h.known i call hcall hwaits).id
  exact h.goto hcall hwaits nofun nofun
    (h.agree_erase h.acks (fun _ _ => asksAck_id) hcall hid (asksAck_of_not_waits rfl))
    (h.agree_erase h.responses (fun _ _ => asksResponse_id) hcall hid
      (asksResponse_of_not_waits rfl))

variable {data : PerformRpcData}

/-- A call is rejected only for one of the reasons that the code checks. -/
theorem precheck_cases {serverVersion : Option String}
    (h : precheck belowMinimum data serverVersion = some point) :
    point = .panicked ∨
      MAX_PAYLOAD_BYTES < data.payload.utf8ByteSize ∧
        point = .returned (.error (.builtIn .requestPayloadTooLarge none)) ∨
      ∃ version, serverVersion = some version ∧ version ≠ "" ∧
        belowMinimum version = some true ∧
        point = .returned (.error (.builtIn .unsupportedServer none)) := by
  unfold precheck at h
  split at h
  · next hlarge => exact .inr (.inl ⟨hlarge, (some.inj h).symm⟩)
  · split at h
    · cases h
    · next version =>
      split at h
      · cases h
      · next hversion =>
        split at h
        · exact .inl (some.inj h).symm
        · next hbelow =>
          exact .inr (.inr ⟨version, rfl, hversion, hbelow, (some.inj h).symm⟩)
        · cases h

section

variable (h : RpcInv records s)

include h

/-- A call that returns before it draws an id. -/
theorem RpcInv.rejected (hpoint : point ≠ .panicked) (hwaits : point.waits = false) :
    RpcInv records (s.reject data point) := by
  have hnone : ∀ {asks : Call → Option String} {table : AssocMap String ℕ}
      {call : Call}, Agree table (fun j => s.calls[j]?.bind asks) → asks call = none →
      Agree table fun j => if j = s.calls.length then asks call else s.calls[j]?.bind asks := by
    intro asks table call hagree hcall
    apply hagree.congr
    intro j
    by_cases hj : j = s.calls.length
    · rw [if_pos hj, hj, hcall, getElem?_eq_none (le_refl _)]
      rfl
    · rw [if_neg hj]
  have hnext := h.concat ⟨"", data, false, none, point⟩ [] hpoint
    (fun _ _ _ => rfl) (hnone h.acks (asksAck_of_not_waits hwaits))
    (hnone h.responses (asksResponse_of_not_waits hwaits)) (fun _ hmem => by cases hmem)
    (fun _ => ⟨rfl, rfl⟩) (fun hbad => by
      rw [hwaits] at hbad
      cases hbad)
  rw [append_nil] at hnext
  exact hnext

/-- A call that has registered its channels. -/
theorem RpcInv.begun {id : String} (hid : id ≠ "") (hfresh : ∀ call ∈ s.calls, call.id ≠ id) :
    RpcInv (records ++ [.requested data.destinationIdentity (request data id)])
      { pendingAcks := insert id s.calls.length s.pendingAcks
        pendingResponses := insert id s.calls.length s.pendingResponses
        calls := s.calls ++ [⟨id, data, false, none, .publishing⟩] } := by
  have hinsert : ∀ {asks : Call → Option String} {table : AssocMap String ℕ} {call : Call},
      Agree table (fun j => s.calls[j]?.bind asks) → (∀ c k, asks c = some k → c.id = k) →
      asks call = some id → Agree (insert id s.calls.length table) fun j =>
        if j = s.calls.length then asks call else s.calls[j]?.bind asks := by
    intro asks table call hagree hasks hcall
    refine hagree.insert (fun j hj => ?_) (by rw [if_pos rfl, hcall]) ?_ (fun j hj => if_neg hj)
    · obtain ⟨c, hc, hcasks⟩ := bind_eq_some_iff.mp hj
      exact hfresh c (mem_of_getElem? hc) (hasks c id hcasks)
    · rw [getElem?_eq_none (le_refl _)]
      rfl
  have hrequest : isRequest id (.requested data.destinationIdentity (request data id)) :=
    decide_eq_true rfl
  -- nothing is recorded of an id that no call has
  have hsince : since id (records ++ [.requested data.destinationIdentity (request data id)]) =
      [.requested data.destinationIdentity (request data id)] := by
    rw [since, fromFirst_append_of_nil]
    · exact fromFirst_cons hrequest []
    · apply fromFirst_eq_nil.mpr
      intro record hmem
      cases hreq : record.isRequest id with
      | false => rfl
      | true =>
        obtain ⟨call, hcall, hcid⟩ := h.fresh record hmem id hreq
        exact absurd hcid (hfresh call hcall)
  refine h.concat _ _ nofun (fun c hc heq => absurd heq (hfresh c hc))
    (hinsert h.acks (fun _ _ => asksAck_id) rfl)
    (hinsert h.responses (fun _ _ => asksResponse_id) rfl)
    ?_ (fun _ => ⟨rfl, rfl⟩) (fun _ => ⟨hid, ?_, fun _ => ?_, nofun,
      fun _ => ?_, nofun⟩)
  · intro record hmem id' hreq
    rw [mem_singleton.mp hmem] at hreq
    exact of_decide_eq_true hreq
  · show since id _ ≠ []
    rw [hsince]
    exact cons_ne_nil _ _
  · show responsesTo id _ = []
    unfold responsesTo
    rw [hsince]
    rfl
  · show acked id _ = false
    unfold acked
    rw [hsince]
    rfl

/-- A packet that nobody waits for. -/
theorem RpcInv.ignored {record : Record} (hnew : ∀ id, record.isRequest id = false)
    (hknown : ∀ (i : ℕ) call, s.calls[i]? = some call → call.point.waits = true →
      Known (records ++ [record]) call) : RpcInv (records ++ [record]) s := by
  refine ⟨h.acks, h.responses, h.distinct, ?_, hknown, h.parses⟩
  intro record' hmem id hreq
  rcases mem_append.mp hmem with hmem | hmem
  · exact h.fresh record' hmem id hreq
  · rw [mem_singleton.mp hmem, hnew id] at hreq
    cases hreq

/-- A response for a call that waits. -/
theorem RpcInv.receive_response {response : RtcSession.RpcResponse}
    (hmeans : response.requestId ∈ s.pendingResponses → ∃ result, Says response.value result) :
    RpcInv (records ++ [.received (.rpcResponse response)])
      (s.receive (.rpcResponse response)) := by
  have hother : ∀ c : Call, c.id ≠ response.requestId ∨ c.response ≠ none →
      c.response = none → [received (.rpcResponse response)].filterMap
        (responseTo c.id) = [] := by
    intro c hc hnone
    rcases hc with hc | hc
    · rw [filterMap_cons_none]
      · rfl
      · exact if_neg (Ne.symm hc)
    · exact absurd hnone hc
  rw [Rpc.receive_response]
  cases hlookup : lookup response.requestId s.pendingResponses with
  | none =>
    -- nobody waits for it
    have hnobody : ∀ (j : ℕ) c, s.calls[j]? = some c → c.point.waits = true →
        c.id ≠ response.requestId ∨ c.response ≠ none := by
      intro j c hc hwaits
      by_contra hboth
      rw [not_or, not_not, not_not] at hboth
      have hasks : c.asksResponse = some response.requestId := by
        unfold Call.asksResponse
        rw [if_pos ⟨hwaits, hboth.2⟩, hboth.1]
      have hfound := (h.responses response.requestId j).mpr (by
        show s.calls[j]?.bind _ = _
        rw [hc]
        exact hasks)
      rw [hlookup] at hfound
      cases hfound
    exact h.ignored (fun _ => rfl) fun j c hc hwaits =>
      (h.known j c hc hwaits).append (hother c (hnobody j c hc hwaits)) (fun _ => rfl)
  | some i =>
    obtain ⟨call, hcall, hasks⟩ := h.of_response hlookup
    obtain ⟨hwaits, hid, hnone⟩ := of_asksResponse hasks
    have hknown := h.known i call hcall hwaits
    obtain ⟨result, hmeans⟩ := hmeans (lookup_isSome.mp (by rw [hlookup]; rfl))
    dsimp only
    rw [modify_eq_set hcall, answerOf_eq hmeans, ← hid]
    refine h.replace { call with response := some result } _ hcall rfl
      (fun hbad => h.parses call (mem_of_getElem? hcall) hbad) (agree_same h.acks hcall rfl)
      (h.agree_erase h.responses (fun _ _ => asksResponse_id) hcall hknown.id ?_) ?_
      (fun _ => ?_) ?_
    · unfold Call.asksResponse
      rw [if_neg]
      rintro ⟨-, hbad⟩
      cases hbad
    · intro record hmem id
      rw [mem_singleton.mp hmem]
      rfl
    · refine ⟨hknown.id, ?_, nofun, ?_, fun hack => ?_, hknown.taken⟩
      · show since call.id _ ≠ []
        rw [since, fromFirst_append_of_ne _ hknown.requested]
        exact append_ne_nil_of_left_ne_nil hknown.requested _
      · intro result' hresult'
        rw [← some.inj hresult']
        refine ⟨response.value, ?_, hmeans⟩
        show (responsesTo call.id _).head? = _
        have hto : responseTo call.id (.received (.rpcResponse response)) =
            some response.value := if_pos hid.symm
        rw [responsesTo_append _ hknown.requested, hknown.unanswered hnone, nil_append,
          filterMap_cons_some hto]
        rfl
      · show acked call.id _ = false
        rw [acked_append _ hknown.requested, hknown.unacked hack]
        rfl
    · intro j c hj hc hcwaits
      refine (h.known j c hc hcwaits).append (hother c (.inl fun hcid => hj ?_)) (fun _ => rfl)
      exact h.distinct j i c call hc hcall (by rw [hcid, hid]) (h.known j c hc hcwaits).id

/-- An ack for a call that waits. -/
theorem RpcInv.receive_ack {ack : RtcSession.RpcAck} :
    RpcInv (records ++ [.received (.rpcAck ack)]) (s.receive (.rpcAck ack)) := by
  have hother : ∀ c : Call, c.id ≠ ack.requestId ∨ c.ack ≠ false →
      c.ack = false → [received (.rpcAck ack)].any (ackTo c.id) = false := by
    intro c hc hfalse
    rcases hc with hc | hc
    · rw [any_cons, any_nil, Bool.or_false]
      exact decide_eq_false (Ne.symm hc)
    · exact absurd hfalse hc
  rw [Rpc.receive_ack, handleIncomingRpcAck]
  cases hlookup : lookup ack.requestId s.pendingAcks with
  | none =>
    have hnobody : ∀ (j : ℕ) c, s.calls[j]? = some c → c.point.waits = true →
        c.id ≠ ack.requestId ∨ c.ack ≠ false := by
      intro j c hc hwaits
      by_contra hboth
      rw [not_or, not_not, not_not] at hboth
      have hfound := (h.acks ack.requestId j).mpr (by
        show s.calls[j]?.bind _ = _
        rw [hc, ← hboth.1]
        exact asksAck_of_unacked (h.known j c hc hwaits) hwaits hboth.2)
      rw [hlookup] at hfound
      cases hfound
    exact h.ignored (fun _ => rfl) fun j c hc hwaits =>
      (h.known j c hc hwaits).append (fun _ => rfl) (hother c (hnobody j c hc hwaits))
  | some i =>
    obtain ⟨call, hcall, hasks⟩ := h.of_ack hlookup
    obtain ⟨hwaits, hid, hunacked, -⟩ := of_asksAck hasks
    have hknown := h.known i call hcall hwaits
    dsimp only
    rw [modify_eq_set hcall, ← hid]
    refine h.replace { call with ack := true } _ hcall rfl
      (fun hbad => h.parses call (mem_of_getElem? hcall) hbad)
      (h.agree_erase h.acks (fun _ _ => asksAck_id) hcall hknown.id ?_)
      (agree_same h.responses hcall rfl) ?_ (fun _ => ?_) ?_
    · unfold Call.asksAck
      split <;> rfl
    · intro record hmem id
      rw [mem_singleton.mp hmem]
      rfl
    · exact hknown.acked.append (fun _ => rfl) nofun
    · intro j c hj hc hcwaits
      refine (h.known j c hc hcwaits).append (fun _ => rfl) (hother c (.inl fun hcid => hj ?_))
      exact h.distinct j i c call hc hcall (by rw [hcid, hid]) (h.known j c hc hcwaits).id

/-- Every step that is understood keeps the invariant. -/
theorem RpcInv.step (hturn : Turn belowMinimum s a s')
    (hunderstood : Understood belowMinimum s a s') :
    RpcInv (records ++ record belowMinimum s a) s' := by
  cases hturn with
  | @rejected data serverVersion id point hcheck =>
    rw [record, hcheck, append_nil]
    rcases precheck_cases belowMinimum hcheck with rfl | ⟨-, rfl⟩ | ⟨-, -, -, -, rfl⟩
    · exact absurd hcheck hunderstood
    · exact h.rejected nofun rfl
    · exact h.rejected nofun rfl
  | @begun data serverVersion id hcheck hid hfresh =>
    rw [record, hcheck]
    exact h.begun hid hfresh
  | @sent i call hcall hpoint =>
    show RpcInv (records ++ []) _
    rw [append_nil]
    refine h.goto hcall (by rw [hpoint]; rfl) nofun
      nofun (agree_same h.acks hcall ?_) (agree_same h.responses hcall ?_)
    · unfold Call.asksAck
      rw [hpoint]
    · unfold Call.asksResponse
      rw [hpoint]
      rfl
  | @notSent i call e hcall hpoint | @notAcked i call hcall hpoint hready =>
    show RpcInv (records ++ []) _
    rw [append_nil]
    exact h.forget hcall (by rw [hpoint]; rfl)
  | @acked i call hcall hpoint hready =>
    show RpcInv (records ++ []) _
    rw [append_nil]
    rw [h.ackReady_eq hcall hpoint] at hready
    refine h.goto hcall (by rw [hpoint]; rfl) nofun (fun _ => hready)
      (agree_same h.acks hcall ?_) (agree_same h.responses hcall ?_)
    · unfold Call.asksAck
      rw [hpoint]
      exact (if_pos hready).symm
    · unfold Call.asksResponse
      rw [hpoint]
      rfl
  | @answered i call result hcall hpoint hready =>
    show RpcInv (records ++ []) _
    rw [append_nil]
    rw [h.responseReady_eq hcall hpoint] at hready
    refine h.goto hcall (by rw [hpoint]; rfl) nofun
      nofun (agree_same h.acks hcall ?_) (agree_same h.responses hcall ?_)
    · rw [asksAck_of_not_waits rfl]
      unfold Call.asksAck
      rw [hpoint]
    · rw [asksResponse_of_not_waits rfl]
      unfold Call.asksResponse
      rw [hready, if_neg]
      rintro ⟨-, hbad⟩
      cases hbad
  | @notAnswered i call hcall hpoint hready =>
    show RpcInv (records ++ []) _
    rw [append_nil]
    have hwaits : call.point.waits = true := by
      rw [hpoint]
      rfl
    have hid := (h.known i call hcall hwaits).id
    refine h.goto hcall hwaits nofun nofun
      (agree_same h.acks hcall ?_)
      (h.agree_erase h.responses (fun _ _ => asksResponse_id) hcall hid
        (asksResponse_of_not_waits rfl))
    rw [asksAck_of_not_waits rfl]
    unfold Call.asksAck
    rw [hpoint]
  | received value =>
    show RpcInv (records ++ [.received value]) _
    cases hfor : idOf value with
    | none =>
      rw [receive_other s hfor]
      refine h.ignored (fun _ => rfl) fun j c hc hwaits => (h.known j c hc hwaits).append ?_ ?_
      · intro _
        cases value <;> first | rfl | cases hfor
      · intro _
        cases value <;> first | rfl | cases hfor
    | some id =>
      cases value with
      | rpcResponse response => exact h.receive_response hunderstood
      | rpcAck ack => exact h.receive_ack
      | _ => cases hfor

end

/-! ## What every step does -/

/-- What comes in changes one call at most, and leaves that where it is. -/
theorem receive_calls (s : State) (value : Value) :
    (s.receive value).calls = s.calls ∨ ∃ (i : ℕ) (f : Call → Call),
      (s.receive value).calls = s.calls.modify i f ∧ ∀ call, (f call).point = call.point := by
  cases hfor : idOf value with
  | none =>
    rw [receive_other s hfor]
    exact .inl rfl
  | some id =>
    cases value with
    | rpcResponse response =>
      rw [receive_response]
      split
      · exact .inr ⟨_, _, rfl, fun _ => rfl⟩
      · exact .inl rfl
    | rpcAck ack =>
      rw [receive_ack, handleIncomingRpcAck]
      split
      · exact .inr ⟨_, _, rfl, fun _ => rfl⟩
      · exact .inl rfl
    | _ => cases hfor

/-- What comes in leaves every call where it is. -/
theorem map_point_receive (s : State) (value : Value) :
    (s.receive value).calls.map Call.point = s.calls.map Call.point := by
  rcases receive_calls s value with hsame | ⟨i, f, hmodify, hpoint⟩
  · rw [hsame]
  · rw [hmodify]
    apply ext_getElem?
    intro j
    rw [getElem?_map, getElem?_map, getElem?_modify]
    cases s.calls[j]? with
    | none => rfl
    | some call =>
      show some (if i = j then f call else call).point = some call.point
      by_cases hj : i = j
      · rw [if_pos hj, hpoint]
      · rw [if_neg hj]

/-- A received packet moves no call. -/
theorem point_receive (s : State) (value : Value) (i : ℕ) :
    (s.receive value).calls[i]?.map Call.point = s.calls[i]?.map Call.point := by
  rw [← getElem?_map, map_point_receive, getElem?_map]

/-- What comes in for one id leaves the calls with other ids as they are. -/
theorem RpcInv.isolated_callers (h : RpcInv records s) (hcall : s.calls[i]? = some call)
    (hother : idOf value ≠ some call.id) :
    (s.receive value).calls[i]? = some call := by
  have hmodify : ∀ (k : ℕ) (f : Call → Call), k ≠ i →
      (s.calls.modify k f)[i]? = some call := by
    intro k f hk
    rw [getElem?_modify, hcall]
    simp [hk]
  cases hfor : idOf value with
  | none =>
    rw [receive_other s hfor]
    exact hcall
  | some id =>
    rw [hfor] at hother
    cases value with
    | rpcResponse response =>
      rw [Rpc.receive_response]
      split
      · next k hlookup =>
        apply hmodify
        rintro rfl
        obtain ⟨c, hc, hasks⟩ := h.of_response hlookup
        rw [hcall, some.injEq] at hc
        rw [hc, asksResponse_id hasks] at hother
        exact hother hfor.symm
      · exact hcall
    | rpcAck ack =>
      rw [Rpc.receive_ack, handleIncomingRpcAck]
      split
      · next k hlookup =>
        apply hmodify
        rintro rfl
        obtain ⟨c, hc, hasks⟩ := h.of_ack hlookup
        rw [hcall, some.injEq] at hc
        rw [hc, asksAck_id hasks] at hother
        exact hother hfor.symm
      · exact hcall
    | _ => cases hfor

/-- A call that waits goes to another point; when it returns, it does so for a reason. -/
theorem stepCorrect_of_set (hcalls : s'.calls = s.calls.set i { call with point })
    (hcall : s.calls[i]? = some call) (hwaits : call.point.waits = true)
    (ha : ∀ value, a ≠ .receive value) (hexplained : ∀ result, point = .returned result →
      Explained belowMinimum records i { call with point } a result) :
    StepCorrect belowMinimum records s a s' where
  final := by
    intro j c result hc hreturned
    rw [hcalls, getElem?_set hcall]
    by_cases hj : j = i
    · rw [hj, hcall, some.injEq] at hc
      rw [hc, not_waits_of_returned ⟨result, hreturned⟩] at hwaits
      cases hwaits
    · exact ⟨c, by rw [if_neg hj, hc], hreturned⟩
  explained := by
    intro j c result hc hreturned hbefore
    rcases of_getElem?_set hcall (hcalls ▸ hc) with ⟨rfl, rfl⟩ | ⟨-, hc⟩
    · exact hexplained result hreturned
    · exact absurd ⟨result, hreturned⟩ (hbefore c hc)
  isolated := fun value hreceive => absurd hreceive (ha value)

/-- A call is added; when it has returned, it has done so for a reason. -/
theorem stepCorrect_of_concat (hcalls : s'.calls = s.calls ++ [call])
    (ha : ∀ value, a ≠ .receive value) (hexplained : ∀ i result, call.point = .returned result →
      Explained belowMinimum records i call a result) :
    StepCorrect belowMinimum records s a s' where
  final := by
    intro j c result hc hreturned
    rw [hcalls, getElem?_concat, if_neg (ne_length hc)]
    exact ⟨c, hc, hreturned⟩
  explained := by
    intro j c result hc hreturned hbefore
    rcases of_getElem?_concat (hcalls ▸ hc) with ⟨-, rfl⟩ | hc
    · exact hexplained j result hreturned
    · exact absurd ⟨result, hreturned⟩ (hbefore c hc)
  isolated := fun value hreceive => absurd hreceive (ha value)

/-- Every step that is understood does what is promised. -/
theorem RpcInv.stepCorrect (h : RpcInv records s) (hturn : Turn belowMinimum s a s')
    (hunderstood : Understood belowMinimum s a s') :
    StepCorrect belowMinimum records s a s' := by
  cases hturn with
  | @rejected data serverVersion id point hcheck =>
    refine stepCorrect_of_concat belowMinimum rfl (fun _ hbad => by cases hbad)
      fun i result hresult => ?_
    -- a check that fails says why
    rcases precheck_cases belowMinimum hcheck with
      rfl | ⟨hlarge, rfl⟩ | ⟨version, rfl, hversion, hbelow, rfl⟩
    · exact absurd hcheck hunderstood
    · cases hresult
      exact .tooLarge hlarge
    · cases hresult
      exact .unsupported hversion hbelow
  | begun hcheck hid hfresh =>
    exact stepCorrect_of_concat belowMinimum rfl (fun _ hbad => by cases hbad)
      fun _ _ hbad => by cases hbad
  | sent hcall hpoint | acked hcall hpoint =>
    exact stepCorrect_of_set belowMinimum rfl hcall (by rw [hpoint]; rfl)
      (fun _ hbad => by cases hbad) fun _ hbad => by cases hbad
  | notSent e hcall hpoint =>
    refine stepCorrect_of_set belowMinimum rfl hcall (by rw [hpoint]; rfl)
      (fun _ hbad => by cases hbad) ?_
    intro result hresult
    cases hresult
    exact .notSent e
  | @notAcked i call hcall hpoint hready =>
    have hwaits : call.point.waits = true := by
      rw [hpoint]
      rfl
    rw [h.ackReady_eq hcall hpoint] at hready
    refine stepCorrect_of_set belowMinimum rfl hcall hwaits (fun _ hbad => by cases hbad) ?_
    intro result hresult
    cases hresult
    exact .ackTimeout ((h.known i call hcall hwaits).unacked hready)
  | @answered i call answer hcall hpoint hready =>
    have hwaits : call.point.waits = true := by
      rw [hpoint]
      rfl
    rw [h.responseReady_eq hcall hpoint] at hready
    refine stepCorrect_of_set belowMinimum rfl hcall hwaits (fun _ hbad => by cases hbad) ?_
    intro result hresult
    cases hresult
    obtain ⟨value, hfirst, hmeans⟩ := (h.known i call hcall hwaits).answered answer hready
    exact .answered hfirst hmeans
  | @notAnswered i call hcall hpoint hready =>
    have hwaits : call.point.waits = true := by
      rw [hpoint]
      rfl
    rw [h.responseReady_eq hcall hpoint] at hready
    refine stepCorrect_of_set belowMinimum rfl hcall hwaits (fun _ hbad => by cases hbad) ?_
    intro result hresult
    cases hresult
    exact .responseTimeout ((h.known i call hcall hwaits).unanswered hready)
  | received value =>
    refine ⟨?_, ?_, ?_⟩
    · intro i call result hcall hreturned
      -- a packet that is received moves no call
      have hpoint := point_receive s value i
      rw [hcall] at hpoint
      obtain ⟨call', hcall', hsame⟩ := map_eq_some_iff.mp hpoint
      exact ⟨call', hcall', hsame.trans hreturned⟩
    · intro i call' result hcall' hreturned hbefore
      have hpoint := point_receive s value i
      rw [hcall'] at hpoint
      obtain ⟨call, hcall, hsame⟩ := map_eq_some_iff.mp hpoint.symm
      exact absurd ⟨result, hsame.trans hreturned⟩ (hbefore call hcall)
    · intro value' hvalue i call hcall hother
      cases hvalue
      exact h.isolated_callers hcall hother

/-! ## Every run -/

/-- In every run whose steps are all understood, each call returns, once, for what has come in for
it, and leaves nothing behind. -/
theorem rpc_correct (run : List Action)
    (h : EachStep (step belowMinimum) (Understood belowMinimum) State.new run) :
    Always (step belowMinimum) (record belowMinimum) (fun _ => StateCorrect belowMinimum)
        State.new run ∧
      EachStepOn (step belowMinimum) (record belowMinimum) (StepCorrect belowMinimum) [] State.new
        run := by
  have heach : EachStepOn (step belowMinimum) (record belowMinimum)
      (fun _ => Understood belowMinimum) [] State.new run := (eachStepOn_iff_eachStep _ _ _).mpr h
  refine ⟨always_of_eachStepOn (I := RpcInv) (fun _ _ hinv => hinv.stateCorrect belowMinimum) ?_
    rpcInv_new heach, EachStepOn.of_invariant (I := RpcInv) ?_ rpcInv_new heach⟩
  · intro records s a s' hinv hstep hunderstood
    exact hinv.step belowMinimum (step_cases belowMinimum hstep) hunderstood
  · intro records s a s' hinv hstep hunderstood
    have hturn := step_cases belowMinimum hstep
    exact ⟨hinv.step belowMinimum hturn hunderstood,
      hinv.stepCorrect belowMinimum hturn hunderstood⟩

/-- A call that is answered. -/
theorem rpc_correct_answered :
    let run := [.perform ⟨"them", "greet", "hi", 10000⟩ none "a", .published 0 none,
      .receive (.rpcAck ⟨"a"⟩), .takeAck 0, .receive (.rpcResponse ⟨"a", some (.payload "hello")⟩),
      .takeResponse 0]
    Always (step fun _ => some false) (record fun _ => some false)
        (fun _ => StateCorrect fun _ => some false) State.new run ∧
      EachStepOn (step fun _ => some false) (record fun _ => some false)
        (StepCorrect fun _ => some false) [] State.new run := by
  apply rpc_correct
  exact fun _ _ => ⟨nofun, fun _ _ => ⟨trivial, fun _ _ => ⟨trivial,
    fun _ _ => ⟨trivial, fun _ _ => ⟨fun _ => ⟨_, .payload "hello"⟩,
    fun _ _ => ⟨trivial, trivial⟩⟩⟩⟩⟩⟩

/-- A response with a compressed payload is taken for an empty payload. -/
theorem compressed_response_is_ok :
    ∃ run s, exec (step fun _ => some false) State.new run = some s ∧
      (s.calls[0]?.map Call.point = some (.returned (.ok "")) ∧
        ∀ payload, some (.payload payload) ∉
          responsesTo "a" (trace (step fun _ => some false) (record fun _ => some false) State.new
            run)) ∧
      ¬ EachStepOn (step fun _ => some false) (record fun _ => some false)
        (StepCorrect fun _ => some false) [] State.new run := by
  refine ⟨[.perform ⟨"them", "greet", "hi", 10000⟩ none "a", .published 0 none,
    .receive (.rpcAck ⟨"a"⟩), .takeAck 0,
    .receive (.rpcResponse ⟨"a", some (.compressedPayload [])⟩),
    .takeResponse 0], _, rfl, ⟨rfl, ?_⟩, ?_⟩
  · intro payload hmem
    have hresponses :
        some (.payload payload) ∈ [some (RpcResponseValue.compressedPayload [])] := hmem
    rw [mem_singleton, some.injEq] at hresponses
    cases hresponses
  · intro heach
    have hlast := ((((((heach _ rfl).2 _ rfl).2 _ rfl).2 _ rfl).2 _ rfl).2 _ rfl).1
    have hbefore := hlast.explained 0 _ _ rfl rfl fun call hcall hreturned => by
      rw [← some.inj hcall] at hreturned
      exact absurd (not_waits_of_returned hreturned) (by decide)
    cases hbefore with
    | @answered value _ hfirst hmeans =>
      have hvalue : some (some (RpcResponseValue.compressedPayload [])) = some value := hfirst
      rw [← some.inj hvalue] at hmeans
      cases hmeans

end LiveKit.Rpc
