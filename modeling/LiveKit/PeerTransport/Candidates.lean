import LiveKit.PeerTransport.Basic
import Mathlib.Data.List.Perm.Basic

/-!
# ICE candidates

A candidate is given to the peer connection at once, or it waits in `pending_candidates` for the
next remote description. `set_remote_description` empties the list and adds what was in it, one
after the other: the first that fails ends the call.
-/

namespace LiveKit.PeerTransport.Candidates

/-- What is recorded of a run. -/
inductive Record where
  /-- A candidate is passed to `add_ice_candidate`. -/
  | passed (candidate : IceCandidate)
  /-- The `i`-th call adds a candidate to the peer connection, which may fail. -/
  | attempted (i : ℕ) (candidate : IceCandidate)
  /-- The description of the `i`-th call has been applied, and these candidates were pending. -/
  | described (i : ℕ) (pending : List IceCandidate)
  /-- The `i`-th call, whose description has been applied, returns and leaves this. -/
  | returned (i : ℕ) (inner : TransportInner)

def recordCall (s : State) (i : ℕ) (reply : Reply) : Call → List Record
  | .candidate c =>
    if reply.hasRemoteDescription ∧ ¬ s.inner.restartingIce then [.attempted i c] else []
  | .applying => if reply.ok then [.described i s.inner.pendingCandidates] else []
  | .draining (c :: _) =>
    if reply.ok then [.attempted i c] else [.attempted i c, .returned i s.inner]
  | .draining [] =>
    if s.inner.renegotiate then [] else [.returned i { s.inner with restartingIce := false }]
  | .renegotiating (some stage) =>
    match s.inner.createAndSendOffer false reply stage with
    | (_, .ok _) => []
    | (inner, .error _) => [.returned i inner]
  | _ => []

/-- What is recorded at a step. -/
def record (s : State) : Action → List Record
  | .call (.addIceCandidate c) => [.passed c]
  | .proceed i reply => (s.calls[i]?.map (recordCall s i reply)).getD []
  | _ => []

def passed (h : List Record) : List IceCandidate :=
  h.filterMap fun
    | .passed c => some c
    | _ => none

def attempted (h : List Record) : List IceCandidate :=
  h.filterMap fun
    | .attempted _ c => some c
    | _ => none

/-- What the `i`-th call has added. -/
def attemptedBy (h : List Record) (i : ℕ) : List IceCandidate :=
  h.filterMap fun
    | .attempted j c => if j = i then some c else none
    | _ => none

/-- The candidates that a call under way has in its hands. -/
def carried : Call → List IceCandidate
  | .waiting (.addIceCandidate c) => [c]
  | .candidate c => [c]
  | .draining candidates => candidates
  | _ => []

/-- No candidate is lost, and none is left where a description has been applied. -/
structure Settled (h : List Record) (s : State) : Prop where
  /-- Every candidate that was passed has been added once, or is pending, or is in the hands of a
  call under way. -/
  conserved : (passed h).Perm
    (attempted h ++ (s.inner.pendingCandidates ++ s.calls.flatMap carried))
  /-- A call whose description has been applied leaves no candidates and no restart of ICE. -/
  cleared : ∀ i inner, .returned i inner ∈ h →
    inner.pendingCandidates = [] ∧ inner.restartingIce = false
  /-- It has added what was pending, in order. -/
  drained : ∀ i inner pending, .returned i inner ∈ h → .described i pending ∈ h →
    attemptedBy h i = pending

/-- A candidate that cannot be added is the last of those that were pending, and ICE is not being
restarted. -/
def FailsLast (s : State) : Action → Prop
  | .proceed i reply => ∀ c candidates, s.calls[i]? = some (.draining (c :: candidates)) →
      reply.ok = false → candidates = [] ∧ s.inner.restartingIce = false
  | _ => True

end LiveKit.PeerTransport.Candidates
