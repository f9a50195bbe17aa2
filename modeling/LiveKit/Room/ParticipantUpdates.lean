import LiveKit.Lib.AssocMap
import LiveKit.Lib.TransitionSystem

/-!
# The metadata of the local participant

`set_metadata`, `set_attributes` and `set_name` of the local participant, and `update_info` for what
the server says. A call sends the fields that it does not set as well, with the values that the
participant has when the call is made. The server applies the requests in order and tells the
participant of the result some time later.
-/

namespace LiveKit.ParticipantUpdates

abbrev Attributes := AssocMap String String

/-- What is changed of `proto::ParticipantInfo`. -/
structure ParticipantInfo where
  name : String
  metadata : String
  attributes : Attributes

structure UpdateParticipantMetadata where
  metadata : String
  name : String
  attributes : Attributes
  requestId : ℕ

/-- The callbacks of `update_info`. -/
inductive ParticipantEvent where
  | nameChanged (old new : String)
  | metadataChanged (old new : String)
  | attributesChanged (changed : Attributes)

inductive Setter where
  | setMetadata (metadata : String)
  | setAttributes (attributes : Attributes)
  | setName (name : String)

/-- The request of a call, for what the participant has. -/
def Setter.request (info : ParticipantInfo) (requestId : ℕ) : Setter → UpdateParticipantMetadata
  | .setMetadata metadata => { metadata, name := info.name, attributes := ∅, requestId }
  | .setAttributes attributes =>
    { attributes, metadata := info.metadata, name := info.name, requestId }
  | .setName name => { name, metadata := info.metadata, attributes := ∅, requestId }

/-! ## `update_info` -/

def calculateChangedAttributes (old new : Attributes) : Attributes :=
  (old.keys ++ new.keys).foldl (fun changed key =>
    if AList.lookup key old ≠ AList.lookup key new then
      match AList.lookup key new with
      | some value => AList.insert key value changed
      | none => AList.insert key "" changed
    else changed) ∅

def updateInfo (info new : ParticipantInfo) : ParticipantInfo × List ParticipantEvent :=
  let changed := calculateChangedAttributes info.attributes new.attributes
  (new,
    (if info.name ≠ new.name then [.nameChanged info.name new.name] else []) ++
    (if info.metadata ≠ new.metadata then [.metadataChanged info.metadata new.metadata] else []) ++
    if changed.keys.length ≠ 0 then [.attributesChanged changed] else [])

/-! ## The server -/

/-- An empty name or metadata is left as it is, the attributes are merged. -/
def apply (info : ParticipantInfo) (request : UpdateParticipantMetadata) : ParticipantInfo where
  name := if request.name = "" then info.name else request.name
  metadata := if request.metadata = "" then info.metadata else request.metadata
  attributes := request.attributes ∪ info.attributes

/-! ## The steps -/

inductive Point where
  /-- The request is made, but not sent. -/
  | composed
  | sent
  | returned
deriving DecidableEq

structure Call where
  setter : Setter
  /-- What the participant had when the call was made. -/
  seen : ParticipantInfo
  requestId : ℕ
  point : Point

structure State where
  info : ParticipantInfo
  nextRequestId : ℕ
  calls : List Call
  /-- The requests on their way to the server. -/
  requests : List UpdateParticipantMetadata
  server : ParticipantInfo
  /-- The responses and the updates on their way back. -/
  responses : List ℕ
  updates : List ParticipantInfo

def State.new (info : ParticipantInfo) : State where
  info := info
  nextRequestId := 1
  calls := []
  requests := []
  server := info
  responses := []
  updates := []

inductive Action where
  | call (setter : Setter)
  /-- The signal client sends the request of a call. -/
  | send (i : ℕ)
  /-- The server applies a request, answers it and tells of it. -/
  | serve
  /-- The call gets its response, which is `Ok`. -/
  | respond (i : ℕ)
  | update

/-- What is put on record. -/
inductive Record where
  | sent (setter : Setter) (seen : ParticipantInfo)
  | event (event : ParticipantEvent)

namespace State

def call (s : State) (setter : Setter) : State :=
  { s with
    nextRequestId := s.nextRequestId + 1
    calls := s.calls ++ [⟨setter, s.info, s.nextRequestId, .composed⟩] }

def send (s : State) (i : ℕ) : Option (State × List Record) :=
  s.calls[i]?.bind fun call =>
    if call.point = .composed then
      some ({ s with
        calls := s.calls.set i { call with point := .sent }
        requests := s.requests ++ [call.setter.request call.seen call.requestId] },
        [.sent call.setter call.seen])
    else none

def serve (s : State) : Option State :=
  match s.requests with
  | [] => none
  | request :: requests =>
    let server := apply s.server request
    some { s with
      requests
      server
      responses := s.responses ++ [request.requestId]
      updates := s.updates ++ [server] }

def respond (s : State) (i : ℕ) : Option State :=
  match s.responses with
  | [] => none
  | requestId :: responses =>
    s.calls[i]?.bind fun call =>
      if call.requestId = requestId ∧ call.point = .sent then
        some { s with calls := s.calls.set i { call with point := .returned }, responses }
      else none

def update (s : State) : Option (State × List Record) :=
  match s.updates with
  | [] => none
  | new :: updates =>
    let (info, events) := updateInfo s.info new
    some ({ s with info, updates }, events.map .event)

/-- A step, and what is put on record by it. -/
def turn (s : State) : Action → Option (State × List Record)
  | .call setter => some (s.call setter, [])
  | .send i => s.send i
  | .serve => s.serve.map (·, [])
  | .respond i => (s.respond i).map (·, [])
  | .update => s.update

def step (s : State) (a : Action) : Option State := (s.turn a).map Prod.fst

end State

/-- What a step puts on record. -/
def record (s : State) (a : Action) : List Record := (s.turn a).elim [] Prod.snd

end LiveKit.ParticipantUpdates
