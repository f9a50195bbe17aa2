import LiveKit.Lib.Since
import LiveKit.Lib.TransitionSystem

/-!
# The peer transport

`add_ice_candidate`, `set_remote_description` and `create_and_send_offer` of
`rtc_engine/peer_transport.rs`. Each takes the lock of `TransportInner` and awaits calls of the peer
connection under it; the lock is not reentrant. What the peer connection says is in the labels of
the steps. The text of an offer, which is changed before it is set, is left out.
-/

namespace LiveKit.PeerTransport

/-- An ICE candidate, as its text. -/
abbrev IceCandidate := String

structure TransportInner where
  pendingCandidates : List IceCandidate
  renegotiate : Bool
  restartingIce : Bool

/-- What the peer connection says when it is asked, and whether the call that is awaited
succeeds. -/
structure Reply where
  /-- `signaling_state() == SignalingState::HaveLocalOffer` -/
  haveLocalOffer : Bool
  /-- `signaling_state() == SignalingState::Closed` -/
  closed : Bool
  /-- `current_remote_description().is_some()` -/
  hasRemoteDescription : Bool
  ok : Bool

inductive Request where
  | addIceCandidate (candidate : IceCandidate)
  | setRemoteDescription
  | createAndSendOffer (iceRestart : Bool)

/-- Where `create_and_send_offer` is once it has the lock. -/
inductive OfferStage where
  | checking
  /-- The remote description is set once more, which cancels the offer that is out. -/
  | cancelling
  | creating
  | settingLocal

/-- Where a call is. -/
inductive Call where
  /-- Before the lock. -/
  | waiting (request : Request)
  /-- `add_ice_candidate` has the lock. -/
  | candidate (candidate : IceCandidate)
  /-- `add_ice_candidate` has dropped the guard. -/
  | addingCandidate
  /-- `set_remote_description` awaits the peer connection. -/
  | applying
  /-- `set_remote_description` has still to add these candidates. -/
  | draining (candidates : List IceCandidate)
  | offer (iceRestart : Bool) (stage : OfferStage)
  /-- `set_remote_description` has called `create_and_send_offer`, which is before the lock, or at
  the stage. -/
  | renegotiating (stage : Option OfferStage)
  | returned

/-- How `create_and_send_offer` ends. -/
inductive OfferOutcome where
  | deferred
  | closed
  | failed
  | sent

structure State where
  inner : TransportInner
  /-- The call that has the lock. -/
  owner : Option ℕ
  calls : List Call

inductive Action where
  | call (request : Request)
  /-- The call gets the lock. -/
  | acquire (i : ℕ)
  /-- The call does its next thing. -/
  | proceed (i : ℕ) (reply : Reply)

/-- `PeerTransport::new` -/
def State.new : State := ⟨⟨[], false, false⟩, none, []⟩

/-- The next thing that `create_and_send_offer` does under the lock. -/
def TransportInner.createAndSendOffer (inner : TransportInner) (iceRestart : Bool) (reply : Reply) :
    OfferStage → TransportInner × Except OfferOutcome OfferStage
  | .checking =>
    let inner := if iceRestart then { inner with restartingIce := true } else inner
    if reply.haveLocalOffer then
      if iceRestart ∧ reply.hasRemoteDescription then (inner, .ok .cancelling)
      else ({ inner with renegotiate := true }, .error .deferred)
    else if reply.closed then (inner, .error .closed)
    else (inner, .ok .creating)
  | .cancelling => (inner, if reply.ok then .ok .creating else .error .failed)
  | .creating => (inner, if reply.ok then .ok .settingLocal else .error .failed)
  -- the handler gets the offer
  | .settingLocal => (inner, .error (if reply.ok then .sent else .failed))

/-- Where a call is when it has just got the lock. -/
def Request.start : Request → Call
  | addIceCandidate c => .candidate c
  | setRemoteDescription => .applying
  | createAndSendOffer iceRestart => .offer iceRestart .checking

namespace State

/-- The call goes on under the lock. -/
def goOn (s : State) (inner : TransportInner) (i : ℕ) (call : Call) : State :=
  { s with inner, calls := s.calls.set i call }

/-- The guard is dropped. -/
def release (s : State) (inner : TransportInner) (i : ℕ) (call : Call) : State :=
  { inner, owner := none, calls := s.calls.set i call }

def acquire (s : State) (i : ℕ) : Call → Option State
  | .waiting request => some { s with owner := some i, calls := s.calls.set i request.start }
  | .renegotiating none =>
    some { s with owner := some i, calls := s.calls.set i (.renegotiating (some .checking)) }
  | _ => none

def proceed (s : State) (i : ℕ) (reply : Reply) : Call → Option State
  | .waiting _ => none
  | .candidate c =>
    if reply.hasRemoteDescription ∧ ¬ s.inner.restartingIce then
      some (s.release s.inner i .addingCandidate)
    else
      some (s.release
        { s.inner with pendingCandidates := s.inner.pendingCandidates ++ [c] } i .returned)
  | .addingCandidate => some { s with calls := s.calls.set i .returned }
  | .applying =>
    if reply.ok then
      -- `drain(..)`: the candidates are gone, whether all of them are added or not
      some (s.goOn { s.inner with pendingCandidates := [] } i
        (.draining s.inner.pendingCandidates))
    else some (s.release s.inner i .returned)
  | .draining (_ :: candidates) =>
    if reply.ok then some (s.goOn s.inner i (.draining candidates))
    else some (s.release s.inner i .returned)
  | .draining [] =>
    let inner := { s.inner with restartingIce := false }
    if inner.renegotiate then
      -- the guard is still there
      some (s.goOn { inner with renegotiate := false } i (.renegotiating none))
    else some (s.release inner i .returned)
  | .offer iceRestart stage =>
    match s.inner.createAndSendOffer iceRestart reply stage with
    | (inner, .ok stage) => some (s.goOn inner i (.offer iceRestart stage))
    | (inner, .error _) => some (s.release inner i .returned)
  | .renegotiating none => none
  | .renegotiating (some stage) =>
    match s.inner.createAndSendOffer false reply stage with
    | (inner, .ok stage) => some (s.goOn inner i (.renegotiating (some stage)))
    | (inner, .error _) => some (s.release inner i .returned)
  | .returned => none

def step (s : State) : Action → Option State
  | .call request => some { s with calls := s.calls ++ [.waiting request] }
  | .acquire i => if s.owner = none then s.calls[i]?.bind (s.acquire i) else none
  | .proceed i reply => s.calls[i]?.bind (s.proceed i reply)

end State

/-! ## Requests for an offer that were put off -/

/-- What is recorded of a run. -/
inductive Record where
  /-- A request for an offer has been put off. -/
  | deferred
  /-- A remote description has been applied, and a request had been put off or not. -/
  | applied (deferred : Bool)
  /-- An offer has been sent, for a request that had been put off or not. -/
  | sent (renegotiation : Bool)
deriving DecidableEq

/-- What is recorded where `create_and_send_offer` does something. -/
def recordOffer (renegotiation : Bool) : Except OfferOutcome OfferStage → List Record
  | .error .deferred => [.deferred]
  | .error .sent => [.sent renegotiation]
  | _ => []

def recordCall (s : State) (reply : Reply) : Call → List Record
  -- the peer connection has applied the description
  | .applying => if reply.ok then [.applied s.inner.renegotiate] else []
  | .offer iceRestart stage =>
    recordOffer false (s.inner.createAndSendOffer iceRestart reply stage).2
  | .renegotiating (some stage) =>
    recordOffer true (s.inner.createAndSendOffer false reply stage).2
  | _ => []

/-- What is recorded at a step. -/
def record (s : State) : Action → List Record
  | .proceed i reply => (s.calls[i]?.map (recordCall s reply)).getD []
  | _ => []

/-- The call is before a lock. -/
def Call.Waits (call : Call) : Prop :=
  match call with
  | .waiting _ => True
  | .renegotiating none => True
  | _ => False

/-- The call is in the offer that `set_remote_description` makes. -/
def Call.Renegotiates (call : Call) : Prop :=
  match call with
  | .renegotiating _ => True
  | _ => False

/-- The call has applied a description, and is at the candidates. -/
def Call.Drains (call : Call) : Prop :=
  match call with
  | .draining _ => True
  | _ => False

def State.Draining (s : State) : Prop := ∃ call ∈ s.calls, call.Drains

/-- What is promised of a request for an offer that is put off. -/
structure Renegotiated (records : List Record) (s : State) : Prop where
  /-- No call waits for the lock that it has itself. -/
  free : ∀ i call, s.owner = some i → s.calls[i]? = some call → ¬ call.Waits
  /-- Where no description is being processed, every one that was applied while a request was put
  off has led to an offer. -/
  sent : ¬ s.Draining → (∀ call ∈ s.calls, ¬ call.Renegotiates) →
    records.count (.sent true) = records.count (.applied true)
  /-- Once a description is processed, the flag is set only for a request that was put off since. -/
  cleared : s.inner.renegotiate = true → ¬ s.Draining →
    Since (fun record => record = .deferred) (fun record => ∃ d, record = .applied d) records

end LiveKit.PeerTransport
