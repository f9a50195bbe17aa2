import LiveKit.DataTrack.Packet.Basic

/-!
# Tracks, frames and encryption providers

The data of `track.rs`, `frame.rs` and `e2ee.rs` that the local and the remote side share.

A SID carries the proof of its prefix, so `DataTrackSid.tryFrom` is the only way to obtain one
from a string. The encryption providers are supplied by the application: a provider is any
function, and as it may keep state (a key index, random initialization vectors), each call
takes the state it finds as an argument.
-/

namespace LiveKit.DataTrack

/-- SFU-assigned identifier uniquely identifying a data track. -/
structure DataTrackSid where
  value : String
  hasPrefix : "DTR_".toList <+: value.toList
deriving DecidableEq

instance : Repr DataTrackSid := ⟨fun sid n => reprPrec sid.value n⟩

/-- Invalid data track SID. -/
inductive DataTrackSidError where
  | invalid
deriving DecidableEq

theorem DataTrackSid.hasPrefix_A : "DTR_".toList <+: "DTR_A".toList := by decide

def DataTrackSid.tryFrom (rawId : String) : Except DataTrackSidError DataTrackSid :=
  if h : "DTR_".toList <+: rawId.toList then .ok ⟨rawId, h⟩ else .error .invalid

/-- Information about a published data track. -/
structure DataTrackInfo where
  sid : DataTrackSid
  pubHandle : Handle
  name : String
  usesE2ee : Bool
deriving DecidableEq

/-- A frame published on a data track, consisting of a payload and optional metadata. -/
structure DataTrackFrame where
  payload : Bytes
  userTimestamp : Option UInt64
deriving DecidableEq

/-! ## End-to-end encryption -/

/-- Encrypted payload and metadata required for decryption. -/
structure EncryptedPayload where
  payload : Bytes
  iv : List.Vector UInt8 12
  keyIndex : UInt8

/-- Encryption failed. -/
inductive EncryptionError where
  | failed

/-- Decryption failed. -/
inductive DecryptionError where
  | failed

/-- What a provider's own state is when it is called. -/
abbrev ProviderState := ℕ

/-- Provider for encrypting payloads for E2EE. -/
structure EncryptionProvider where
  encrypt : ProviderState → Bytes → Except EncryptionError EncryptedPayload

/-- Provider for decrypting payloads for E2EE; the sender's identity selects the key. -/
structure DecryptionProvider where
  decrypt : ProviderState → EncryptedPayload → String → Except DecryptionError Bytes

end LiveKit.DataTrack
