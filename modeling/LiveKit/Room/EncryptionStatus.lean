import LiveKit.DataStream.Basic
import LiveKit.Room.Publications

/-!
# Whether a participant is encrypted

`is_encrypted` of a participant is evaluated when publications come and go and when the kind of the
data messages changes, and kept until the next evaluation. A publication is an object that may be
updated by itself, so the publications are numbered and the map has their numbers. The operations
come one after the other.
-/

namespace LiveKit.EncryptionStatus

open LiveKit.DataStream (EncryptionType)
open LiveKit.Publications (TrackSid)

/-- `proto::TrackInfo`, as far as the status depends on it. -/
structure TrackInfo where
  sid : TrackSid
  encryption : EncryptionType

/-- What is stored of a `TrackInfo`. -/
structure PublicationInfo where
  sid : TrackSid
  encryptionType : EncryptionType

def PublicationInfo.new (info : TrackInfo) : PublicationInfo := ⟨info.sid, info.encryption⟩

/-! ## Publications -/

/-- All publications that have been made, and those of the participant. -/
structure Tracks where
  objects : List PublicationInfo
  trackPublications : AssocMap TrackSid ℕ

namespace Tracks

def encryptionType (t : Tracks) (h : ℕ) : EncryptionType :=
  match t.objects[h]? with
  | some info => info.encryptionType
  | none => .none

/-- `tracks_encrypted`, where the order of the pass plays no part. -/
def encrypted (t : Tracks) : Bool :=
  let publications := AssocMap.toPairs t.trackPublications
  !publications.isEmpty && publications.all fun entry => t.encryptionType entry.2 != .none

/-- A publication that is not of the participant yet. -/
def new (t : Tracks) (info : TrackInfo) : Tracks :=
  { t with objects := t.objects ++ [.new info] }

def insert (t : Tracks) (sid : TrackSid) (h : ℕ) : Tracks :=
  { t with trackPublications := AList.insert sid h t.trackPublications }

def remove (t : Tracks) (sid : TrackSid) : Tracks :=
  { t with trackPublications := AList.erase sid t.trackPublications }

/-- `update_info` of a publication. -/
def set (t : Tracks) (h : ℕ) (newInfo : TrackInfo) : Tracks :=
  { t with objects := t.objects.set h (.new newInfo) }

/-- A track of a participant's information. -/
def update (t : Tracks) (track : TrackInfo) : Tracks :=
  match AList.lookup track.sid t.trackPublications with
  | some h => t.set h track
  | none => (t.new track).insert track.sid t.objects.length

end Tracks

/-! ## The participant -/

structure State where
  tracks : Tracks
  isEncrypted : Bool
  isDataEncrypted : Option Bool
  /-- Whether it is a remote participant. -/
  remote : Bool
  /-- What `encryption_status_changed` was called with. -/
  changes : List Bool
  /-- The data messages so far, encrypted or not. -/
  messages : List Bool

def State.new (remote : Bool) : State := ⟨⟨[], ∅⟩, false, none, remote, [], []⟩

namespace State

/-- The status as it is evaluated. -/
def status (s : State) : Bool :=
  match s.isDataEncrypted with
  | some dataEncrypted => s.tracks.encrypted && dataEncrypted
  | none => s.tracks.encrypted

def updateEncryptionStatus (s : State) : State :=
  let isEncrypted := s.status
  if s.isEncrypted ≠ isEncrypted then { s with isEncrypted, changes := s.changes ++ [isEncrypted] }
  else s

/-- For a local participant this is a no-op. -/
def updateDataEncryptionStatus (s : State) (isEncrypted : Bool) : State :=
  if s.remote then
    let s := { s with messages := s.messages ++ [isEncrypted] }
    match s.isDataEncrypted with
    | some current =>
      if current = isEncrypted then s
      else if current then { s with isDataEncrypted := some false }.updateEncryptionStatus
      -- once unencrypted data has been seen it stays so
      else s
    | none => { s with isDataEncrypted := some isEncrypted }.updateEncryptionStatus
  else s

def addPublication (s : State) (h : ℕ) (sid : TrackSid) : State :=
  { s with tracks := s.tracks.insert sid h }.updateEncryptionStatus

/-- A publication is made, and added. -/
def newPublication (s : State) (info : TrackInfo) : State :=
  { s with tracks := s.tracks.new info }.addPublication s.tracks.objects.length info.sid

def removePublication (s : State) (sid : TrackSid) : State :=
  { s with tracks := s.tracks.remove sid }.updateEncryptionStatus

def unpublishTrack (s : State) (sid : TrackSid) : State :=
  match AList.lookup sid s.tracks.trackPublications with
  | some _ => s.removePublication sid
  | none => s

/-- `update_info` through the publication. -/
def updatePublication (s : State) (h : ℕ) (newInfo : TrackInfo) : State :=
  { s with tracks := s.tracks.set h newInfo }

/-- A track of the information: a publication that is there is updated, a new one is added. -/
def updateTrack (s : State) (track : TrackInfo) : State :=
  match AList.lookup track.sid s.tracks.trackPublications with
  | some h => s.updatePublication h track
  | none => s.newPublication track

/-- The publications that the information does not mention, in the order of the pass over the
map. -/
def noLongerValid (s : State) (infos : List TrackInfo) (cs : List ℕ) : List TrackSid :=
  ((AssocMap.inOrder s.tracks.trackPublications cs).map Prod.fst).filter
    fun sid => sid ∉ infos.map TrackInfo.sid

/-- `RemoteParticipant::update_info`. -/
def updateInfo (s : State) (infos : List TrackInfo) (cs : List ℕ) : State :=
  let s := infos.foldl updateTrack s
  (s.noLongerValid infos cs).foldl unpublishTrack s

end State

inductive Action where
  | newPublication (info : TrackInfo)
  /-- One that has been made is added, maybe not for the first time. -/
  | addPublication (h : ℕ)
  | removePublication (sid : TrackSid)
  | updatePublication (h : ℕ) (newInfo : TrackInfo)
  | updateDataEncryptionStatus (isEncrypted : Bool)
  | updateInfo (infos : List TrackInfo) (cs : List ℕ)

def step (s : State) : Action → Option State
  | .newPublication info => some (s.newPublication info)
  | .addPublication h => do
    let info ← s.tracks.objects[h]?
    return s.addPublication h info.sid
  | .removePublication sid => some (s.removePublication sid)
  | .updatePublication h newInfo => do
    let _ ← s.tracks.objects[h]?
    return s.updatePublication h newInfo
  | .updateDataEncryptionStatus isEncrypted => some (s.updateDataEncryptionStatus isEncrypted)
  | .updateInfo infos cs => if s.remote then some (s.updateInfo infos cs) else none

/-! ## What is promised -/

/-- The status says that there are publications, that all of them are encrypted, and that no
unencrypted data message has come; and the events alternate, from true to the current value. -/
structure Truthful (s : State) : Prop where
  status : s.isEncrypted = true ↔
    (∃ sid h, AList.lookup sid s.tracks.trackPublications = some h) ∧
      (∀ sid h, AList.lookup sid s.tracks.trackPublications = some h →
        s.tracks.encryptionType h ≠ .none) ∧
      false ∉ s.messages
  alternate : (false :: s.changes).IsChain (· ≠ ·)
  last : s.changes.getLast?.getD false = s.isEncrypted

/-! ## When it is kept -/

/-- The publication is not of the participant, or another that is has no encryption, or it has some
after the update if and only if it had before. -/
def SameForAll (t : Tracks) (h : ℕ) (newInfo : TrackInfo) : Prop :=
  (∀ sid, AList.lookup sid t.trackPublications ≠ some h) ∨
    (∃ sid h', AList.lookup sid t.trackPublications = some h' ∧ h' ≠ h ∧
      t.encryptionType h' = .none) ∨
    (t.encryptionType h = .none ↔ newInfo.encryption = .none)

/-- The tracks right after the last that is added, and the tracks now. -/
def settle (p : Tracks × Tracks) (track : TrackInfo) : Tracks × Tracks :=
  match AList.lookup track.sid p.2.trackPublications with
  | some _ => (p.1, p.2.update track)
  | none => (p.2.update track, p.2.update track)

/-- The updates of the information after its last new track leave it as it is whether all are
encrypted. -/
def Settled (t : Tracks) (infos : List TrackInfo) : Prop :=
  (infos.foldl settle (t, t)).1.encrypted = (infos.foldl settle (t, t)).2.encrypted

/-- An update of publications comes after an unencrypted data message, or it does not matter to the
status, or a publication is removed after it. -/
def Harmless (s : State) (a : Action) (_ : State) : Prop :=
  match a with
  | .updatePublication h newInfo =>
    s.isDataEncrypted = some false ∨ SameForAll s.tracks h newInfo
  | .updateInfo infos _ =>
    s.isDataEncrypted = some false ∨
      (∃ sid, (AList.lookup sid s.tracks.trackPublications).isSome = true ∧
        sid ∉ infos.map TrackInfo.sid) ∨
      Settled s.tracks infos
  | _ => True

end LiveKit.EncryptionStatus
