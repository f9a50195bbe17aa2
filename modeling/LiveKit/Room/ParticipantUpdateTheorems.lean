import LiveKit.Lib.Counting
import LiveKit.Lib.LastWrite
import LiveKit.Room.ParticipantUpdates

/-!
# What is left of the updates of the participant

The server has what the last requests with a name and with metadata have, and a request may have a
name or metadata that another call has replaced in between. `keeps_iff` says when it does not.
-/

namespace LiveKit.ParticipantUpdates

open LastWrite List Option TransitionSystem

/-! ## What is promised -/

/-- The name that a call sets. -/
def Record.setsName : Record → Option String
  | .sent (.setName name) _ => some name
  | _ => none

def Record.setsMetadata : Record → Option String
  | .sent (.setMetadata metadata) _ => some metadata
  | _ => none

def Record.setsAttributes : Record → Option Attributes
  | .sent (.setAttributes attributes) _ => some attributes
  | _ => none

/-- All calls have returned, and all that the server has told has been processed. -/
def State.Settled (s : State) : Prop := (∀ call ∈ s.calls, call.point = .returned) ∧ s.updates = []

/-- The participant has what was set last. -/
structure Has (records : List Record) (s : State) : Prop where
  name : ∀ name, LastWrite.last (records.map Record.setsName) = some name → s.info.name = name
  metadata : ∀ metadata, LastWrite.last (records.map Record.setsMetadata) = some metadata →
    s.info.metadata = metadata
  attributes : ∀ attributes, LastWrite.last (records.map Record.setsAttributes) = some attributes →
    ∀ key value, AList.lookup key attributes = some value →
      AList.lookup key s.info.attributes = some value

def Keeps (records : List Record) (s : State) : Prop := s.Settled → Has records s

/-! ## The condition -/

def nonEmpty (value : String) : Option String := if value = "" then none else some value

/-- The name that a call sends, unless it is empty: the one that it sets, or the one that the
participant had when the call was made. -/
def Record.sendsName : Record → Option String
  | .sent (.setName name) _ => nonEmpty name
  | .sent _ seen => nonEmpty seen.name
  | .event _ => none

def Record.sendsMetadata : Record → Option String
  | .sent (.setMetadata metadata) _ => nonEmpty metadata
  | .sent _ seen => nonEmpty seen.metadata
  | .event _ => none

/-- The last call that has sent a name has sent the one that was set last, and the same for the
metadata. -/
structure UpToDate (records : List Record) : Prop where
  name : ∀ name, LastWrite.last (records.map Record.setsName) = some name →
    LastWrite.last (records.map Record.sendsName) = some name
  metadata : ∀ metadata, LastWrite.last (records.map Record.setsMetadata) = some metadata →
    LastWrite.last (records.map Record.sendsMetadata) = some metadata

def SendsUpToDate (records : List Record) (s : State) : Prop := s.Settled → UpToDate records

/-- The argument of the call is not empty. -/
def Setter.NonEmpty : Setter → Prop
  | .setName name => name ≠ ""
  | .setMetadata metadata => metadata ≠ ""
  | .setAttributes _ => True

instance : DecidablePred Setter.NonEmpty
  | .setName name => inferInstanceAs (Decidable (name ≠ ""))
  | .setMetadata metadata => inferInstanceAs (Decidable (metadata ≠ ""))
  | .setAttributes _ => isTrue trivial

def Action.NonEmpty : Action → Prop
  | .call setter => setter.NonEmpty
  | _ => True

instance : DecidablePred Action.NonEmpty
  | .call setter => inferInstanceAs (Decidable setter.NonEmpty)
  | .send _ | .serve | .respond _ | .update => isTrue trivial

/-! ## What the server has -/

/-- What a record does to what the server has. -/
def Record.applyTo (info : ParticipantInfo) : Record → ParticipantInfo
  | .sent setter seen => apply info (setter.request seen 0)
  | .event _ => info

/-- What the server will have when it has applied all requests. -/
def applied (init : ParticipantInfo) (records : List Record) : ParticipantInfo :=
  records.foldl Record.applyTo init

theorem applied_concat (init : ParticipantInfo) (records : List Record) (record : Record) :
    applied init (records ++ [record]) = record.applyTo (applied init records) := by
  unfold applied
  rw [foldl_append]
  rfl

theorem ite_nonEmpty (value before : String) :
    (if value = "" then before else value) = (nonEmpty value).getD before := by
  unfold nonEmpty
  split
  · rfl
  · rfl

theorem applyTo_name (info : ParticipantInfo) (record : Record) :
    (record.applyTo info).name = record.sendsName.getD info.name := by
  cases record with
  | sent setter seen =>
    cases setter with
    | setName name => exact ite_nonEmpty name info.name
    | setMetadata | setAttributes => exact ite_nonEmpty seen.name info.name
  | event event => rfl

theorem applyTo_metadata (info : ParticipantInfo) (record : Record) :
    (record.applyTo info).metadata = record.sendsMetadata.getD info.metadata := by
  cases record with
  | sent setter seen =>
    cases setter with
    | setName | setAttributes => exact ite_nonEmpty seen.metadata info.metadata
    | setMetadata metadata => exact ite_nonEmpty metadata info.metadata
  | event event => rfl

/-- A field that every request writes or leaves is what was written last. -/
theorem applied_field {field : ParticipantInfo → String} {sends : Record → Option String}
    (hfield : ∀ info record, field (Record.applyTo info record) = (sends record).getD (field info))
    (init : ParticipantInfo) (records : List Record) :
    field (applied init records) = (last (records.map sends)).getD (field init) := by
  rw [← foldl_getD, foldl_map]
  induction records using List.reverseRecOn with
  | nil => rfl
  | append_singleton records record ih =>
    rw [applied_concat, hfield, ih, foldl_append]
    rfl

theorem applied_name (init : ParticipantInfo) (records : List Record) :
    (applied init records).name =
      (last (records.map Record.sendsName)).getD init.name :=
  applied_field applyTo_name init records

theorem applied_metadata (init : ParticipantInfo) (records : List Record) :
    (applied init records).metadata =
      (last (records.map Record.sendsMetadata)).getD init.metadata :=
  applied_field applyTo_metadata init records

/-- Attributes that are set stay until others are. -/
theorem applied_attributes (init : ParticipantInfo) (records : List Record)
    (attributes : Attributes)
    (h : last (records.map Record.setsAttributes) = some attributes) (key value : String)
    (hlookup : AList.lookup key attributes = some value) :
    AList.lookup key (applied init records).attributes = some value := by
  induction records using List.reverseRecOn with
  | nil => cases h
  | append_singleton records record ih =>
    rw [map_append, map_singleton, last_concat] at h
    rw [applied_concat]
    have hkept : record.setsAttributes = none →
        (record.applyTo (applied init records)).attributes = (applied init records).attributes →
        AList.lookup key (record.applyTo (applied init records)).attributes = some value := by
      intro hnone hsame
      rw [hnone] at h
      rw [hsame]
      exact ih h
    have hempty : ∀ attributes : Attributes, (∅ : Attributes) ∪ attributes = attributes :=
      fun attributes => AList.empty_union
    cases record with
    | sent setter seen =>
      cases setter with
      | setAttributes attributes' =>
        obtain rfl : attributes' = attributes := some.inj h
        show AList.lookup key (attributes' ∪ (applied init records).attributes) = some value
        rw [AList.lookup_union_left (AList.lookup_isSome.mp (by rw [hlookup]; rfl))]
        exact hlookup
      | setName | setMetadata => exact hkept rfl (hempty _)
    | event event => exact hkept rfl rfl

/-! ## Every step -/

structure Inv (init : ParticipantInfo) (records : List Record) (s : State) : Prop where
  sent : s.calls.countP (fun call => call.point = .sent) = s.requests.length + s.responses.length
  server : s.requests.foldl apply s.server = applied init records
  updates : s.updates.getLast?.getD s.info = s.server
  calls : ∀ call ∈ s.calls, call.setter.NonEmpty
  records : ∀ setter seen, Record.sent setter seen ∈ records → setter.NonEmpty

theorem inv_new (init : ParticipantInfo) : Inv init [] (State.new init) where
  sent := rfl
  server := rfl
  updates := rfl
  calls := fun _ hmem => by cases hmem
  records := fun _ _ hmem => by cases hmem

variable {init : ParticipantInfo} {records new : List Record} {s s' : State}

section

variable (h : Inv init records s)

include h

theorem Inv.call {setter : Setter} (hsetter : setter.NonEmpty) :
    Inv init (records ++ []) (s.call setter) := by
  rw [append_nil]
  refine ⟨?_, h.server, h.updates, ?_, h.records⟩
  · show (s.calls ++ [_]).countP _ = _
    rw [countP_append, h.sent]
    rfl
  · intro call hmem
    rcases mem_append.mp hmem with hmem | hmem
    · exact h.calls call hmem
    · rw [mem_singleton.mp hmem]
      exact hsetter

theorem Inv.send {i : ℕ} (hturn : s.send i = some (s', new)) :
    Inv init (records ++ new) s' := by
  obtain ⟨call, hcall, heq⟩ := bind_eq_some_iff.mp hturn
  obtain ⟨hpoint, heq⟩ := of_guard heq
  cases heq
  have hsetter := h.calls call (mem_of_getElem? hcall)
  have hcount := Counting.countP_set (p := fun call => decide (call.point = .sent))
    (b := { call with point := .sent }) hcall
  -- what the request does at the server is what its record says
  have happly : ∀ info, apply info (call.setter.request call.seen call.requestId) =
      (Record.sent call.setter call.seen).applyTo info := by
    intro info
    cases call.setter <;> rfl
  refine ⟨?_, ?_, h.updates, ?_, ?_⟩
  · have hsent := h.sent
    simp only [hpoint] at hcount
    simp only [length_append, length_singleton]
    simp at hcount
    omega
  · show (s.requests ++ [_]).foldl apply s.server = _
    rw [foldl_append, h.server, applied_concat, ← happly]
    rfl
  · intro call' hmem
    rcases mem_or_eq_of_mem_set hmem with hmem | rfl
    · exact h.calls call' hmem
    · exact hsetter
  · intro setter seen hmem
    rcases mem_append.mp hmem with hmem | hmem
    · exact h.records setter seen hmem
    · cases mem_singleton.mp hmem
      exact hsetter

theorem Inv.serve (hturn : s.serve = some s') :
    Inv init (records ++ []) s' := by
  rw [append_nil]
  unfold State.serve at hturn
  split at hturn
  · cases hturn
  · next request requests hrequests =>
    obtain rfl := some.inj hturn
    have hsent := h.sent
    have hserver := h.server
    rw [hrequests] at hsent hserver
    refine ⟨?_, hserver, ?_, h.calls, h.records⟩
    · show _ = requests.length + (s.responses ++ [_]).length
      rw [hsent, length_append, length_cons, length_singleton]
      omega
    · show (s.updates ++ [_]).getLast?.getD s.info = _
      rw [getLast?_concat]
      rfl

theorem Inv.respond {i : ℕ} (hturn : s.respond i = some s') :
    Inv init (records ++ []) s' := by
  rw [append_nil]
  unfold State.respond at hturn
  split at hturn
  · cases hturn
  · next requestId responses hresponses =>
    obtain ⟨call, hcall, heq⟩ := bind_eq_some_iff.mp hturn
    obtain ⟨⟨-, hpoint⟩, rfl⟩ := of_guard heq
    have hsent := h.sent
    rw [hresponses, length_cons] at hsent
    have hcount := Counting.countP_set (p := fun call => decide (call.point = .sent))
      (b := { call with point := .returned }) hcall
    refine ⟨?_, h.server, h.updates, ?_, h.records⟩
    · simp only [hpoint] at hcount
      simp at hcount
      show (s.calls.set i { call with point := .returned }).countP _ =
        s.requests.length + responses.length
      omega
    · intro call' hmem
      rcases mem_or_eq_of_mem_set hmem with hmem | rfl
      · exact h.calls call' hmem
      · exact h.calls call (mem_of_getElem? hcall)

theorem Inv.update (hturn : s.update = some (s', new)) :
    Inv init (records ++ new) s' := by
  unfold State.update at hturn
  split at hturn
  · cases hturn
  · next info updates hupdates =>
    cases hturn
    -- events on record change nothing at the server
    have hevents : ∀ events : List ParticipantEvent,
        applied init (records ++ events.map .event) = applied init records := by
      intro events
      unfold applied
      rw [foldl_append, foldl_map]
      exact foldl_fixed' (fun _ => rfl) events
    refine ⟨h.sent, ?_, ?_, h.calls, ?_⟩
    · rw [hevents]
      exact h.server
    · have hbefore := h.updates
      rw [hupdates] at hbefore
      rw [← hbefore]
      cases updates with
      | nil | cons => rfl
    · intro setter seen hmem
      rcases mem_append.mp hmem with hmem | hmem
      · exact h.records setter seen hmem
      · obtain ⟨event, -, hbad⟩ := mem_map.mp hmem
        cases hbad

theorem Inv.step {a : Action} (hturn : s.turn a = some (s', new)) (hargs : a.NonEmpty) :
    Inv init (records ++ new) s' := by
  cases a with
  | call setter =>
    cases hturn
    exact h.call hargs
  | send i => exact h.send hturn
  | serve =>
    obtain ⟨t, ht, heq⟩ := map_eq_some_iff.mp hturn
    cases heq
    exact h.serve ht
  | respond i =>
    obtain ⟨t, ht, heq⟩ := map_eq_some_iff.mp hturn
    cases heq
    exact h.respond ht
  | update => exact h.update hturn

/-! ## Every run -/

/-- What the participant has when all is settled. -/
theorem Inv.info (hsettled : s.Settled) :
    s.info = applied init records := by
  -- no request and no update is under way
  have hnone : s.calls.countP (fun call => call.point = .sent) = 0 := by
    rw [countP_eq_zero]
    intro call hmem
    rw [hsettled.1 call hmem]
    decide
  have hrequests : s.requests = [] := by
    have hsent := h.sent
    exact eq_nil_of_length_eq_zero (by omega)
  have hserver := h.server
  have hupdates := h.updates
  rw [hrequests] at hserver
  rw [hsettled.2] at hupdates
  exact hupdates.trans hserver

end

theorem sendsName_of_setsName {record : Record} {name : String} (hname : name ≠ "")
    (h : record.setsName = some name) : record.sendsName = some name := by
  cases record with
  | sent setter seen =>
    cases setter with
    | setName name' =>
      obtain rfl : name' = name := some.inj h
      show nonEmpty name' = some name'
      rw [nonEmpty, if_neg hname]
    | _ => cases h
  | event event => cases h

theorem sendsMetadata_of_setsMetadata {record : Record} {metadata : String}
    (hmetadata : metadata ≠ "")
    (h : record.setsMetadata = some metadata) : record.sendsMetadata = some metadata := by
  cases record with
  | sent setter seen =>
    cases setter with
    | setMetadata metadata' =>
      obtain rfl : metadata' = metadata := some.inj h
      show nonEmpty metadata' = some metadata'
      rw [nonEmpty, if_neg hmetadata]
    | _ => cases h
  | event event => cases h

/-- What is set is sent as well, so there is a last value that is sent. -/
theorem getD_last {sets sends : Record → Option String} {records : List Record}
    {init value : String}
    (hsends : ∀ record ∈ records, sets record = some value → sends record = some value)
    (hset : last (records.map sets) = some value) :
    (last (records.map sends)).getD init = value ↔
      last (records.map sends) = some value := by
  obtain ⟨record, hmem, hrecord⟩ := mem_map.mp (mem_of_last hset)
  have hsent : some value ∈ records.map sends :=
    mem_map.mpr ⟨record, hmem, hsends record hmem hrecord⟩
  cases hlast : last (records.map sends) with
  | none => exact absurd hlast (last_ne_none hsent)
  | some value' => exact some.injEq _ _ ▸ Iff.rfl

theorem Inv.keeps_iff_sends (h : Inv init records s) :
    Keeps records s ↔ SendsUpToDate records s := by
  unfold Keeps SendsUpToDate
  refine forall_congr' fun hsettled => ?_
  have hinfo := h.info hsettled
  have hname : ∀ name, last (records.map Record.setsName) = some name →
      (s.info.name = name ↔ last (records.map Record.sendsName) = some name) := by
    intro name hset
    rw [hinfo, applied_name]
    refine getD_last (fun record hmem hrecord => sendsName_of_setsName ?_ hrecord) hset
    cases record with
    | sent setter seen =>
      cases setter with
      | setName name' =>
        obtain rfl : name' = name := some.inj hrecord
        exact h.records _ seen hmem
      | _ => cases hrecord
    | event event => cases hrecord
  have hmetadata : ∀ metadata, last (records.map Record.setsMetadata) = some metadata →
      (s.info.metadata = metadata ↔
        last (records.map Record.sendsMetadata) = some metadata) := by
    intro metadata hset
    rw [hinfo, applied_metadata]
    refine getD_last (fun record hmem hrecord => sendsMetadata_of_setsMetadata ?_ hrecord) hset
    cases record with
    | sent setter seen =>
      cases setter with
      | setMetadata metadata' =>
        obtain rfl : metadata' = metadata := some.inj hrecord
        exact h.records _ seen hmem
      | _ => cases hrecord
    | event event => cases hrecord
  constructor
  · intro hhas
    exact ⟨fun name hset => (hname name hset).mp (hhas.name name hset),
      fun metadata hset => (hmetadata metadata hset).mp (hhas.metadata metadata hset)⟩
  · intro hup
    refine ⟨fun name hset => (hname name hset).mpr (hup.name name hset),
      fun metadata hset => (hmetadata metadata hset).mpr (hup.metadata metadata hset), ?_⟩
    intro attributes hset key value hlookup
    rw [hinfo]
    exact applied_attributes init records attributes hset key value hlookup

/-- In the runs whose calls have arguments that are not empty, the participant has what was set last
wherever all is settled, exactly when what was sent last there is what was set last. -/
theorem keeps_iff (init : ParticipantInfo) (run : List Action) (hargs : ∀ a ∈ run, a.NonEmpty) :
    Always State.step record Keeps (State.new init) run ↔
      Always State.step record SendsUpToDate (State.new init) run := by
  have hsteps : EachStep State.step (fun _ a _ => a.NonEmpty) (State.new init) run :=
    eachStep_of_invariant (I := fun _ => True) (fun _ a ha _ _ _ => ⟨trivial, hargs a ha⟩) trivial
  have heach : EachStepOn State.step record (fun _ _ a _ => a.NonEmpty) [] (State.new init) run :=
    (eachStepOn_iff_eachStep _ _ _).mpr hsteps
  refine always_congr (I := Inv init) (fun _ _ h => h.keeps_iff_sends) ?_ (inv_new init) heach
  intro records s a s' hinv hstep hargs
  obtain ⟨⟨t, new⟩, hturn, rfl⟩ := map_eq_some_iff.mp hstep
  have hrecord : record s a = new := by
    unfold record
    rw [hturn]
    rfl
  rw [hrecord]
  exact hinv.step hturn hargs

/-- One call after the other, with the update in between. -/
theorem keeps_iff_two_calls :
    let run : List Action := [.call (.setName "new"), .send 0, .serve, .respond 0, .update,
      .call (.setMetadata "m"), .send 1, .serve, .respond 1, .update]
    Always State.step record Keeps (State.new ⟨"old", "", ∅⟩) run ↔
      Always State.step record SendsUpToDate (State.new ⟨"old", "", ∅⟩) run := by
  apply keeps_iff
  decide

/-- A call to set the metadata sends the name of before, and so takes the new one back. -/
theorem name_is_taken_back :
    ∃ run s, exec State.step (State.new ⟨"old", "", ∅⟩) run = some s ∧ s.Settled ∧
      s.info.name = "old" ∧ s.server.name = "old" ∧
      ¬ Keeps (trace State.step record (State.new ⟨"old", "", ∅⟩) run) s := by
  refine ⟨[.call (.setName "new"), .send 0, .call (.setMetadata "m"), .send 1, .serve, .serve,
    .respond 0, .respond 1, .update, .update], _, rfl, ⟨by decide, rfl⟩, rfl, rfl, fun hkeeps => ?_⟩
  have hbad := (hkeeps ⟨by decide, rfl⟩).name "new" rfl
  exact absurd hbad (by decide)

end LiveKit.ParticipantUpdates
