import LiveKit.Room.Publications
import LiveKit.RtcSession.Basic

/-!
# The end-to-end encryption of tracks

`E2eeManager`: which frame cryptors there are, whether they are enabled, and under which keys they
are known. Every section that holds the lock of the manager is one step, so between the sections of
a call others may run.
-/

namespace LiveKit.E2ee

open LiveKit.DataStream (EncryptionType)
open LiveKit.Publications (TrackSid)
open LiveKit.RtcSession (ParticipantIdentity)

structure FrameCryptor where
  participantIdentity : ParticipantIdentity
  enabled : Bool

abbrev Key := ParticipantIdentity × TrackSid

/-- How far a call of `on_local_track_published` or `on_track_subscribed` has come. -/
inductive Progress where
  | called
  /-- The manager is initialized and the track is encrypted. -/
  | initialized
  /-- It has a cryptor, which is not in `frame_cryptors` yet. -/
  | setUp (cryptor : ℕ)
  | finished (cryptor : Option ℕ)

/-- A call for a track. -/
structure Call where
  key : Key
  encryptionType : EncryptionType
  /-- The track is still published or subscribed. -/
  live : Bool
  progress : Progress

/-- The cryptor of the track. -/
def Call.cryptor (call : Call) : Option ℕ :=
  match call.progress with
  | .called | .initialized => none
  | .setUp cryptor => some cryptor
  | .finished cryptor => cryptor

structure State where
  /-- Whether there are options. -/
  initialized : Bool
  enabled : Bool
  frameCryptors : AssocMap Key ℕ
  /-- Every cryptor there has been, by its number. -/
  cryptors : List FrameCryptor
  calls : List Call
  /-- The keys of calls of `on_local_track_unpublished` and `on_track_unsubscribed` that wait for
  the lock. -/
  removals : List Key

namespace State

def new (initialized : Bool) : State where
  initialized := initialized
  enabled := initialized
  frameCryptors := ∅
  cryptors := []
  calls := []
  removals := []

/-- Enables or disables what is in `frame_cryptors`. -/
def setCryptors (s : State) (enabled : Bool) : List FrameCryptor :=
  s.cryptors.mapIdx fun i cryptor =>
    if s.frameCryptors.entries.any (fun entry => entry.2 = i) then { cryptor with enabled }
    else cryptor

def setEnabled (s : State) (enabled : Bool) : State :=
  -- a cryptor that is not in `frame_cryptors` yet is left as it is
  if s.enabled = enabled then s else { s with enabled, cryptors := s.setCryptors enabled }

def cleanup (s : State) : State :=
  { s with cryptors := s.setCryptors false, frameCryptors := ∅ }

/-- `setup_rtp_sender` and `setup_rtp_receiver`. -/
def setup (s : State) (i : ℕ) (call : Call) : State :=
  { s with
    cryptors := s.cryptors ++ [⟨call.key.1, s.enabled⟩]
    calls := s.calls.set i { call with progress := .setUp s.cryptors.length } }

def insert (s : State) (i : ℕ) (call : Call) (cryptor : ℕ) : State :=
  { s with
    frameCryptors := s.frameCryptors.insert call.key cryptor
    calls := s.calls.set i { call with progress := .finished (some cryptor) } }

end State

inductive Action where
  | setEnabled (enabled : Bool)
  | cleanup
  /-- `on_local_track_published` or `on_track_subscribed` is called. -/
  | attach (key : Key) (encryptionType : EncryptionType)
  /-- The next section of such a call. -/
  | turn (i : ℕ)
  /-- `on_local_track_unpublished` or `on_track_unsubscribed` is called for the track of a call. -/
  | detach (i : ℕ)
  /-- `remove_frame_cryptor` -/
  | remove (key : Key)

def step (s : State) : Action → Option State
  | .setEnabled enabled => some (s.setEnabled enabled)
  | .cleanup => some s.cleanup
  | .attach key encryptionType =>
    some { s with calls := s.calls ++ [⟨key, encryptionType, true, .called⟩] }
  | .turn i => do
    let call ← s.calls[i]?
    match call.progress with
    | .called =>
      let progress :=
        if ¬ s.initialized ∨ call.encryptionType = .none then .finished none else .initialized
      return { s with calls := s.calls.set i { call with progress } }
    | .initialized => s.setup i call
    | .setUp cryptor => s.insert i call cryptor
    | .finished _ => none
  | .detach i => do
    let call ← s.calls[i]?
    return { s with
      calls := s.calls.set i { call with live := false }
      removals := s.removals ++ [call.key] }
  | .remove key =>
    if key ∈ s.removals then
      some { s with
        removals := s.removals.erase key
        frameCryptors := s.frameCryptors.erase key }
    else none

/-! ## What is promised -/

/-- No operation is in progress. -/
def Quiet (s : State) : Prop :=
  s.removals = [] ∧ ∀ call ∈ s.calls, ∃ cryptor, call.progress = .finished cryptor

/-- The cryptor is known under the key, and enabled if the manager is. -/
structure Reached (s : State) (key : Key) (cryptor : ℕ) : Prop where
  known : s.frameCryptors.lookup key = some cryptor
  enabled : s.cryptors[cryptor]?.map FrameCryptor.enabled = some s.enabled

/-- When no operation is in progress, every track that is encrypted has a cryptor, which is
reached. -/
def ReachesAll (s : State) : Prop :=
  Quiet s → s.initialized → ∀ call ∈ s.calls, call.live → call.encryptionType ≠ .none →
    ∃ cryptor, call.cryptor = some cryptor ∧ Reached s call.key cryptor

/-- The track has a cryptor, and the call for it has finished. -/
def Call.Attached (call : Call) (cryptor : ℕ) : Prop :=
  call.live ∧ call.progress = .finished (some cryptor)

/-- The same, whatever operations are in progress, for the calls that have finished. -/
def ReachesFinished (s : State) : Prop :=
  ∀ call ∈ s.calls, ∀ cryptor, call.Attached cryptor → Reached s call.key cryptor

/-- When a cryptor is inserted for a track, it is enabled as the manager is now, and nothing is
inserted, removed or cleaned up under the key of another track that has its cryptor. -/
def Good (s : State) (a : Action) (_ : State) : Prop :=
  match a with
  | .cleanup => ∀ call ∈ s.calls, ∀ cryptor, ¬ call.Attached cryptor
  | .remove key => ∀ call ∈ s.calls, call.key = key → ∀ cryptor, ¬ call.Attached cryptor
  | .turn i => ∀ call, s.calls[i]? = some call → ∀ cryptor, call.progress = .setUp cryptor →
      (call.live → s.cryptors[cryptor]?.map FrameCryptor.enabled = some s.enabled) ∧
        ∀ other ∈ s.calls, other.key = call.key → ∀ cryptor', ¬ other.Attached cryptor'
  | _ => True

end LiveKit.E2ee
