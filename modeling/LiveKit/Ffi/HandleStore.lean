import LiveKit.Lib.AssocMap
import LiveKit.Lib.TransitionSystem

/-!
# The store of handles

`FfiServer` of `server/mod.rs` keeps the handles of the client in one concurrent map, and the
senders that are dropped with a handle in another. Each access of a map is a step; any number of
operations can be in progress.
-/

namespace LiveKit.HandleStore

open TransitionSystem

abbrev FfiHandleId := UInt64

def INVALID_HANDLE : FfiHandleId := 0

/-- A handle with the name of its type; handles are told apart by their numbers. -/
structure Handle where
  tyname : String
  number : ℕ
deriving DecidableEq

/-- A receiver of `watch_handle_dropped`, with the handle that was stored when its sender was. -/
structure Watcher where
  id : FfiHandleId
  handle : Option ℕ

/-- Where an operation is that takes more than one step. -/
inductive Point where
  /-- `drop_handle` has removed the handle. -/
  | dropping (id : FfiHandleId) (existed : Bool)
  /-- `watch_handle_dropped` has found no senders. -/
  | inserting (id : FfiHandleId)
  | pushing (id : FfiHandleId)
  | done
  | panicked

structure State where
  ffiHandles : AssocMap FfiHandleId Handle
  /-- The senders by the numbers of their receivers. -/
  handleDroppedTxs : AssocMap FfiHandleId (List ℕ)
  /-- The handles that have been stored. -/
  stores : ℕ
  watchers : List Watcher
  operations : List Point

inductive Action where
  | storeHandle (id : FfiHandleId) (tyname : String)
  | retrieveHandle (id : FfiHandleId) (tyname : String)
  | takeHandle (id : FfiHandleId) (tyname : String)
  | dropHandle (id : FfiHandleId)
  | watchHandleDropped (id : FfiHandleId)
  | goOn (i : ℕ)

inductive Result where
  | stored
  | handle (handle : Handle)
  | invalidRequest (message : String)
  | existed (existed : Bool)
  | receiver (w : ℕ)

namespace State

def new : State := ⟨∅, ∅, 0, [], []⟩

def storeHandle (s : State) (id : FfiHandleId) (tyname : String) : State :=
  { s with
    ffiHandles := AList.insert id ⟨tyname, s.stores⟩ s.ffiHandles
    stores := s.stores + 1 }

def retrieveHandle (s : State) (id : FfiHandleId) (tyname : String) : Result :=
  if id = INVALID_HANDLE then .invalidRequest "handle is invalid"
  else
    match AList.lookup id s.ffiHandles with
    | none => .invalidRequest "handle not found"
    | some handle =>
      if handle.tyname = tyname then .handle handle
      else .invalidRequest ("handle is not a " ++ tyname)

/-- The handle is removed before its type is known. -/
def takeHandle (s : State) (id : FfiHandleId) (tyname : String) : State × Result :=
  if id = INVALID_HANDLE then (s, .invalidRequest "handle is invalid")
  else
    match AList.lookup id s.ffiHandles with
    | none => (s, .invalidRequest "handle not found")
    | some handle =>
      ({ s with ffiHandles := AList.erase id s.ffiHandles },
        if handle.tyname = tyname then .handle handle
        else .invalidRequest ("handle is not a " ++ tyname))

/-- The first step of `drop_handle`. -/
def dropHandle (s : State) (id : FfiHandleId) : State :=
  { s with
    ffiHandles := AList.erase id s.ffiHandles
    operations := s.operations ++ [.dropping id (AList.lookup id s.ffiHandles).isSome] }

/-- The first step of `watch_handle_dropped`. -/
def watchHandleDropped (s : State) (id : FfiHandleId) : State :=
  { s with
    operations := s.operations ++
      [if (AList.lookup id s.handleDroppedTxs).isSome then .pushing id else .inserting id] }

/-- An operation goes on. -/
def goOn (s : State) (i : ℕ) : Option (State × Option Result) :=
  match s.operations[i]? with
  | some (.dropping id existed) =>
    some ({ s with
      handleDroppedTxs := AList.erase id s.handleDroppedTxs
      operations := s.operations.set i .done }, some (.existed existed))
  | some (.inserting id) =>
    some ({ s with
      handleDroppedTxs := AList.insert id [] s.handleDroppedTxs
      operations := s.operations.set i (.pushing id) }, none)
  | some (.pushing id) =>
    match AList.lookup id s.handleDroppedTxs with
    | none => some ({ s with operations := s.operations.set i .panicked }, none)
    | some txVec =>
      some ({ s with
        handleDroppedTxs := AList.insert id (txVec ++ [s.watchers.length]) s.handleDroppedTxs
        watchers := s.watchers ++ [⟨id, (AList.lookup id s.ffiHandles).map Handle.number⟩]
        operations := s.operations.set i .done }, some (.receiver s.watchers.length))
  | _ => none

/-- A step, and what it returns. -/
def turn (s : State) : Action → Option (State × Option Result)
  | .storeHandle id tyname => some (s.storeHandle id tyname, some .stored)
  | .retrieveHandle id tyname => some (s, some (s.retrieveHandle id tyname))
  | .takeHandle id tyname =>
    some ((s.takeHandle id tyname).1, some (s.takeHandle id tyname).2)
  | .dropHandle id => some (s.dropHandle id, none)
  | .watchHandleDropped id => some (s.watchHandleDropped id, none)
  | .goOn i => s.goOn i

def step (s : State) (a : Action) : Option State := (s.turn a).map Prod.fst

def result (s : State) (a : Action) : Option Result := (s.turn a).bind Prod.snd

/-! ## What is promised -/

def Stored (s : State) (id : FfiHandleId) (number : ℕ) : Prop :=
  ∃ handle, AList.lookup id s.ffiHandles = some handle ∧ handle.number = number

/-- The senders of an id. -/
def senders (s : State) (id : FfiHandleId) : List ℕ :=
  (AList.lookup id s.handleDroppedTxs).getD []

/-- The sender has been dropped. -/
def Notified (s : State) (w : ℕ) : Prop := ∀ id, w ∉ s.senders id

/-- A `drop_handle` is in progress that has yet to drop the senders. -/
def DropsNow (s : State) (id : FfiHandleId) : Prop := ∃ existed, .dropping id existed ∈ s.operations

/-- Who watches a handle is notified when it has left, as soon as no `drop_handle` is in progress,
and not before. -/
def Watched (s : State) : Prop :=
  ∀ w id number, s.watchers[w]? = some ⟨id, some number⟩ →
    (s.Stored id number → ¬ s.Notified w) ∧
      (¬ s.Stored id number → s.Notified w ∨ s.DropsNow id)

end State

structure Lawful (s : State) (a : Action) (s' : State) : Prop where
  atomic : ∀ message, s.result a = some (.invalidRequest message) → s'.ffiHandles = s.ffiHandles
  leaves : ∀ id handle, AList.lookup id s.ffiHandles = some handle →
    AList.lookup id s'.ffiHandles ≠ some handle →
      a = .dropHandle id ∨
        ∃ tyname, a = .takeHandle id tyname ∧ s.result a = some (.handle handle)
  neverPanics : ∀ i : ℕ, s'.operations[i]? = some Point.panicked →
    s.operations[i]? = some Point.panicked
  watched : s'.Watched

/-- None of the senders of the id belongs to a handle that is stored. -/
def State.Released (s : State) (id : FfiHandleId) : Prop :=
  ∀ w ∈ s.senders id, ∀ number, s.watchers[w]? = some ⟨id, some number⟩ → ¬ s.Stored id number

/-- No handle is stored over another one, or taken for one of another type or away from who watches
it; no sender is dropped before its handle is, and no vector of senders goes while a sender is to be
added. -/
def Regular (s : State) : Action → Prop
  | .storeHandle id _ => AList.lookup id s.ffiHandles = none
  | .takeHandle id tyname => id ≠ INVALID_HANDLE → ∀ handle,
    AList.lookup id s.ffiHandles = some handle → handle.tyname = tyname ∧
      (s.DropsNow id ∨ ∀ w ∈ s.senders id, ∀ watcher, s.watchers[w]? = some watcher →
        watcher.handle ≠ some handle.number)
  | .goOn i =>
    match s.operations[i]? with
    | some (.dropping id _) => s.Released id
    | some (.inserting id) => s.Released id
    | some (.pushing id) => (AList.lookup id s.handleDroppedTxs).isSome
    | _ => True
  | _ => True

end LiveKit.HandleStore
