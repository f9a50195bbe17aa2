import LiveKit.DataTrack.Track

/-!
# Events of the local manager

`local/events.rs`, the errors and options of `local/mod.rs`, and the conversions of
`local/proto.rs` that make the events of the SFU out of protocol messages.

An `SfuPublishResponse` carries the proof that it names the handle of the track it is about:
both conversions below, the only places where one is made, ensure it.
-/

namespace LiveKit.DataTrack.Local

/-- The oneshot channel of a publish request, from its caller to the task that forwards. -/
abbrev RequestId := ℕ

/-- The oneshot channel of a query. -/
abbrev QueryId := ℕ

/-- A published track: its task, its watch channel and its frame channel. -/
abbrev TrackId := ℕ

/-- An error that can occur when publishing a data track. -/
inductive PublishError where
  | notAllowed
  | duplicateName
  | invalidName
  | timeout
  | limitReached
  | disconnected
  | internal (message : String)
deriving DecidableEq

/-- Options for publishing a data track. -/
structure DataTrackOptions where
  name : String
deriving DecidableEq

/-! ## Input events -/

/-- Client requested to publish a track. -/
structure PublishRequest where
  options : DataTrackOptions
  resultTx : RequestId
deriving DecidableEq

/-- Client request to publish a track has been cancelled (internal). -/
structure PublishCancelled where
  handle : Handle
deriving DecidableEq

/-- Client request to unpublish a track (internal). -/
structure UnpublishRequest where
  handle : Handle
deriving DecidableEq

/-- Get information about all currently published tracks. -/
structure QueryPublished where
  resultTx : QueryId
deriving DecidableEq

/-- SFU responded to a request to publish a data track. -/
structure SfuPublishResponse where
  handle : Handle
  result : Except PublishError DataTrackInfo
  handle_eq : ∀ info, result = .ok info → info.pubHandle = handle
deriving DecidableEq

/-- SFU notification that a track has been unpublished. -/
structure SfuUnpublishResponse where
  handle : Handle
deriving DecidableEq

/-- An external event handled by the manager. -/
inductive InputEvent where
  | publishRequest (event : PublishRequest)
  | publishCancelled (event : PublishCancelled)
  | queryPublished (event : QueryPublished)
  | unpublishRequest (event : UnpublishRequest)
  | sfuPublishResponse (event : SfuPublishResponse)
  | sfuUnpublishResponse (event : SfuUnpublishResponse)
  | republishTracks
  | shutdown
deriving DecidableEq

/-! ## Output events -/

/-- Request sent to the SFU to publish a track. -/
structure SfuPublishRequest where
  handle : Handle
  name : String
  usesE2ee : Bool
deriving DecidableEq

/-- Request sent to the SFU to unpublish a track. -/
structure SfuUnpublishRequest where
  handle : Handle
deriving DecidableEq

/-- An event produced by the manager or a track task requiring external action. -/
inductive OutputEvent where
  | sfuPublishRequest (event : SfuPublishRequest)
  | sfuUnpublishRequest (event : SfuUnpublishRequest)
  /-- Serialized packets are ready to be sent over the transport. -/
  | packetsAvailable (packets : List Bytes)
deriving DecidableEq

/-! ## Conversions from the protocol -/

/-- `proto::encryption::Type` -/
inductive EncryptionType where
  | none
  | gcm
  | custom
deriving DecidableEq

/-- What the protocol's accessor makes of the number in a message. -/
def EncryptionType.ofNumber : Int → EncryptionType
  | 1 => .gcm
  | 2 => .custom
  | _ => .none

/-- `proto::DataTrackInfo` -/
structure ProtoDataTrackInfo where
  pubHandle : UInt32
  sid : String
  name : String
  encryption : Int

/-- Why a message of the SFU is not an event. -/
inductive InternalError where
  | handle (err : HandleError)
  | unsupportedE2eeType (other : EncryptionType)
  | sid (err : DataTrackSidError)
deriving DecidableEq

/-- `TryFrom<proto::DataTrackInfo> for DataTrackInfo` -/
def DataTrackInfo.tryFrom (msg : ProtoDataTrackInfo) : Except InternalError DataTrackInfo := do
  let handle ← (Handle.tryFromU32 msg.pubHandle).mapError .handle
  let usesE2ee ←
    match EncryptionType.ofNumber msg.encryption with
    | .none => .ok false
    | .gcm => .ok true
    | other => .error (.unsupportedE2eeType other)
  let sid ← (DataTrackSid.tryFrom msg.sid).mapError .sid
  return ⟨sid, handle, msg.name, usesE2ee⟩

/-- The response that the track is published, named after the handle in its info. -/
def SfuPublishResponse.ofInfo (info : DataTrackInfo) : SfuPublishResponse :=
  ⟨info.pubHandle, .ok info, fun _ h => congrArg _ (Except.ok.inj h).symm⟩

/-- `proto::request_response::Reason`, as far as it is told apart here. -/
inductive Reason where
  | notAllowed
  | duplicateName
  | invalidName
  | other

/-- `publish_result_from_request_response`, for the handle of the `PublishDataTrack` request
that the message is a response to, if it is one. -/
def publishResultFromRequestResponse (request : Option UInt32) (reason : Reason)
    (message : String) : Option SfuPublishResponse := do
  let request ← request
  let handle ← (Handle.tryFromU32 request).toOption
  let error : PublishError :=
    match reason with
    | .notAllowed => .notAllowed
    | .duplicateName => .duplicateName
    | .invalidName => .invalidName
    | .other => .internal ("SFU rejected: " ++ message)
  return ⟨handle, .error error, nofun⟩

end LiveKit.DataTrack.Local
