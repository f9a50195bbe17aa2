import LiveKit.DataStream.Directed
import LiveKit.Lib.LastWrite

/-!
# The key provider and outgoing data

`e2ee/key_provider.rs`, with the two places that take the index of the latest key from it:
`publish_data` of the session and `DataTrackEncryptionProvider`. The native key provider is a map;
whether it accepts a key is up to it, and how it ratchets a key is a parameter.
-/

namespace LiveKit.E2eeKeys

open LiveKit.DataStream (Bytes)
open LiveKit.DataStream.Directed (convertDataPacketToEncryptedValue)
open LiveKit.RtcSession (ParticipantIdentity EncryptedValue)

/-! ## Keys -/

/-- Whose keys these are. -/
inductive Owner where
  /-- The key ring that is shared by all. -/
  | ring
  | participant (identity : ParticipantIdentity)
deriving DecidableEq

/-- `fc::KeyProvider` -/
structure NativeKeyProvider where
  sharedKey : Bool
  keys : AssocMap (Owner × Int32) Bytes

namespace NativeKeyProvider

/-- Without a shared key there is no ring. -/
def setSharedKey (self : NativeKeyProvider) (keyIndex : Int32) (key : Bytes) : NativeKeyProvider :=
  if self.sharedKey then { self with keys := AList.insert (.ring, keyIndex) key self.keys }
  else self

def setKey (self : NativeKeyProvider) (identity : ParticipantIdentity) (keyIndex : Int32)
    (key : Bytes) (accepted : Bool) : NativeKeyProvider :=
  if accepted then
    { self with keys := AList.insert (.participant identity, keyIndex) key self.keys }
  else self

/-- `ratchet_key` and `ratchet_shared_key`: the key, if there is one, is replaced. -/
def ratchetKey (ratchet : Bytes → Bytes) (self : NativeKeyProvider) (owner : Owner)
    (keyIndex : Int32) : NativeKeyProvider :=
  match AList.lookup (owner, keyIndex) self.keys with
  | none => self
  | some key => { self with keys := AList.insert (owner, keyIndex) (ratchet key) self.keys }

end NativeKeyProvider

structure KeyProvider where
  handle : NativeKeyProvider
  latestKeyIndex : Int32

namespace KeyProvider

/-- By default, the key provider is not shared -/
def new : KeyProvider := ⟨⟨false, ∅⟩, 0⟩

def withSharedKey (sharedKey : Bytes) : KeyProvider :=
  ⟨(⟨true, ∅⟩ : NativeKeyProvider).setSharedKey 0 sharedKey, 0⟩

def setSharedKey (self : KeyProvider) (sharedKey : Bytes) (keyIndex : Int32) : KeyProvider :=
  ⟨self.handle.setSharedKey keyIndex sharedKey, keyIndex⟩

def setKey (self : KeyProvider) (identity : ParticipantIdentity) (keyIndex : Int32) (key : Bytes)
    (accepted : Bool) : KeyProvider :=
  ⟨self.handle.setKey identity keyIndex key accepted, keyIndex⟩

def ratchetKey (ratchet : Bytes → Bytes) (self : KeyProvider) (owner : Owner)
    (keyIndex : Int32) : KeyProvider :=
  { self with handle := self.handle.ratchetKey ratchet owner keyIndex }

def getLatestKeyIndex (self : KeyProvider) : Int32 := self.latestKeyIndex

end KeyProvider

/-! ## The system -/

/-- What is encrypted with, in the room of a local participant. -/
structure State where
  keyProvider : KeyProvider
  localIdentity : ParticipantIdentity

inductive Action where
  | setKey (identity : ParticipantIdentity) (keyIndex : Int32) (key : Bytes) (accepted : Bool)
  | setSharedKey (key : Bytes) (keyIndex : Int32)
  | ratchetKey (identity : ParticipantIdentity) (keyIndex : Int32)
  | ratchetSharedKey (keyIndex : Int32)
  /-- `publish_data`, while the data channels are encrypted or are not. -/
  | publishData (isDcEncryptionEnabled : Bool) (value : RtcSession.Value)
  /-- `DataTrackEncryptionProvider::encrypt` of a frame. -/
  | encrypt (payload : Bytes)

inductive Event where
  /-- `set_key` or `set_shared_key` was called. -/
  | requested (keyIndex : Int32)
  | stored (owner : Owner) (keyIndex : Int32)
  | ratcheted (owner : Owner) (keyIndex : Int32)
  /-- `encrypt` of the data packet cryptor was called. -/
  | encrypted (participantIdentity : ParticipantIdentity) (keyIndex : UInt32) (data : Bytes)

namespace State

/-- A key provider with a shared key, or one without. -/
def new (localIdentity : ParticipantIdentity) : Option Bytes → State
  | none => ⟨.new, localIdentity⟩
  | some sharedKey => ⟨.withSharedKey sharedKey, localIdentity⟩

/-- Whose keys encrypt what is sent. -/
def owner (s : State) : Owner :=
  if s.keyProvider.handle.sharedKey then .ring else .participant s.localIdentity

/-- The index of the key that outgoing data is to be encrypted with. -/
def keyIndex (s : State) : UInt32 := s.keyProvider.getLatestKeyIndex.toUInt32

end State

section

variable (ratchet : Bytes → Bytes)

def step (s : State) : Action → Option State
  | .setKey identity keyIndex key accepted =>
    some { s with keyProvider := s.keyProvider.setKey identity keyIndex key accepted }
  | .setSharedKey key keyIndex =>
    some { s with keyProvider := s.keyProvider.setSharedKey key keyIndex }
  | .ratchetKey identity keyIndex =>
    some { s with keyProvider := s.keyProvider.ratchetKey ratchet (.participant identity) keyIndex }
  | .ratchetSharedKey keyIndex =>
    some { s with keyProvider := s.keyProvider.ratchetKey ratchet .ring keyIndex }
  | .publishData _ _ | .encrypt _ => some s

end

section

variable (encodePayload : EncryptedValue → Bytes)

/-- A key that is there was ratcheted. -/
def ratcheted (s : State) (owner : Owner) (keyIndex : Int32) : List Event :=
  if (AList.lookup (owner, keyIndex) s.keyProvider.handle.keys).isSome then
    [.ratcheted owner keyIndex]
  else []

def record (s : State) : Action → List Event
  | .setKey identity keyIndex _ accepted =>
    .requested keyIndex :: if accepted then [.stored (.participant identity) keyIndex] else []
  | .setSharedKey _ keyIndex =>
    .requested keyIndex ::
      if s.keyProvider.handle.sharedKey then [.stored .ring keyIndex] else []
  | .ratchetKey identity keyIndex => ratcheted s (.participant identity) keyIndex
  | .ratchetSharedKey keyIndex => ratcheted s .ring keyIndex
  | .publishData isDcEncryptionEnabled value =>
    if isDcEncryptionEnabled then
      match convertDataPacketToEncryptedValue value with
      | some encryptedPayloadValue =>
        [.encrypted s.localIdentity s.keyIndex (encodePayload encryptedPayloadValue)]
      -- what has no encrypted form is sent as it is
      | none => []
    else []
  | .encrypt payload => [.encrypted s.localIdentity s.keyIndex payload]

end

/-- What is on record when the key provider has been made. -/
def created : Option Bytes → List Event
  | none => []
  | some _ => [.requested 0, .stored .ring 0]

/-! ## The index that is to be used -/

/-- Some key of the owner is there. -/
def State.HasKey (s : State) : Prop :=
  ∃ keyIndex, AList.lookup (s.owner, keyIndex) s.keyProvider.handle.keys ≠ none

def requestedIndex : Event → Option Int32
  | .requested keyIndex => some keyIndex
  | _ => none

/-- The index of the last call of `set_key` or `set_shared_key`, for whomever, accepted or not. -/
def lastRequested (h : List Event) : Option Int32 := LastWrite.last (h.map requestedIndex)

section

-- whether a key that was ratcheted has been stored anew
variable (ratchetStores : Bool)

def storedIndex (owner : Owner) : Event → Option Int32
  | .stored owner' keyIndex => if owner' = owner then some keyIndex else none
  | .ratcheted owner' keyIndex =>
    if ratchetStores = true ∧ owner' = owner then some keyIndex else none
  | _ => none

/-- The index under which a key was stored last for this owner. -/
def lastStored (owner : Owner) (h : List Event) : Option Int32 :=
  LastWrite.last (h.map (storedIndex ratchetStores owner))

/-- What is sent is encrypted with the key that was stored last for the sender, if there is one, and
the keys of other participants do not change that. -/
structure RightKey (encodePayload : EncryptedValue → Bytes) (h : List Event) (s : State)
    (a : Action) (s' : State) : Prop where
  used : ∀ identity index data, .encrypted identity index data ∈ record encodePayload s a →
    s.HasKey → ∃ keyIndex, index = keyIndex.toUInt32 ∧
      AList.lookup (s.owner, keyIndex) s.keyProvider.handle.keys ≠ none ∧
      lastStored ratchetStores s.owner h = some keyIndex
  kept : ∀ identity keyIndex key accepted, a = .setKey identity keyIndex key accepted →
    identity ≠ s.localIdentity → s.HasKey → s'.keyIndex = s.keyIndex

/-- When something is encrypted, the last call that set a key gave the index under which one was
stored last for the sender; and a call that sets a key of another participant gives the index of the
last call before it. Where the sender has no key, anything goes. -/
def OwnKeyLast (h : List Event) (s : State) : Action → Prop
  | .setKey identity keyIndex _ _ =>
    identity ≠ s.localIdentity → lastStored ratchetStores s.owner h ≠ none →
      lastRequested h = some keyIndex
  | .publishData isDcEncryptionEnabled value =>
    isDcEncryptionEnabled = true → convertDataPacketToEncryptedValue value ≠ none →
      lastStored ratchetStores s.owner h ≠ none →
        lastRequested h = lastStored ratchetStores s.owner h
  | .encrypt _ =>
    lastStored ratchetStores s.owner h ≠ none →
      lastRequested h = lastStored ratchetStores s.owner h
  | _ => True

end

end LiveKit.E2eeKeys
