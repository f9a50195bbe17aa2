import LiveKit.DataStream.Writers
import LiveKit.DataStream.DirectedTheorems

/-!
# The protocol of outgoing streams

One event more keeps the protocol by what was recorded before: a chunk needs the index that comes
next and no trailer, a trailer needs no trailer, and after a successful close there is only
`AlreadyClosed`. As long as no call is cut short, the index counts the chunks, a trailer closes the
stream, and a write that has given the lock back has sent everything.
-/

namespace LiveKit.DataStream.Writers

open Writers.State List Option
open LiveKit.DataStream.Directed (OutStream Request Input Phase numbered numbered_concat)

/-! ## The packets of a stream -/

theorem handed_append (h es : List Event) : handed (h ++ es) = handed h ++ handed es :=
  filterMap_append

/-- A stream without a trailer, of chunks with these contents. -/
def unended (header : Header) (contents : List Bytes) : List Value :=
  .streamHeader header :: (numbered header.streamId contents).map .streamChunk

theorem chunksOf_unended (header : Header) (contents : List Bytes) :
    Directed.chunksOf (unended header contents) = numbered header.streamId contents := by
  show Directed.chunksOf ((numbered header.streamId contents).map .streamChunk) = _
  induction numbered header.streamId contents with
  | nil => rfl
  | cons chunk chunks ih =>
    show chunk :: Directed.chunksOf (chunks.map .streamChunk) = chunk :: chunks
    rw [ih]

theorem length_chunksOf_unended (header : Header) (contents : List Bytes) :
    (Directed.chunksOf (unended header contents)).length = contents.length := by
  rw [chunksOf_unended]
  simp [numbered]

theorem streamTrailer_not_mem_unended (header : Header) (contents : List Bytes)
    (trailer : Trailer) : Value.streamTrailer trailer ∉ unended header contents := by
  intro hmem
  rcases mem_cons.mp hmem with hbad | hmem
  · cases hbad
  · obtain ⟨_, -, hbad⟩ := mem_map.mp hmem
    cases hbad

theorem unended_concat (header : Header) (contents : List Bytes) (content : Bytes) :
    unended header (contents ++ [content]) =
      unended header contents ++ [.streamChunk ⟨header.streamId, contents.length, content⟩] := by
  unfold unended
  rw [numbered_concat, map_append, cons_append]
  rfl

section

variable {header : Header} {values : List Value}

theorem formed_unended (contents : List Bytes) : Formed header (unended header contents) :=
  .inr ⟨contents, [], Nat.zero_le 1, by rw [map_nil, append_nil]; rfl⟩

/-- One packet more is the next chunk of a stream without a trailer, or its trailer. -/
theorem formed_concat_iff (hne : values ≠ []) (value : Value) :
    Formed header (values ++ [value]) ↔ ∃ contents, values = unended header contents ∧
      ((∃ trailer, value = .streamTrailer trailer) ∨
        ∃ content, value = .streamChunk ⟨header.streamId, contents.length, content⟩) := by
  constructor
  · rintro (hnil | ⟨contents, trailers, hlength, hvalues⟩)
    · exact absurd hnil (by simp)
    match trailers, hlength with
    | [], _ =>
      rw [map_nil, append_nil] at hvalues
      rcases eq_nil_or_concat contents with rfl | ⟨before, content, rfl⟩
      · obtain ⟨hnil, -⟩ := append_inj' (show values ++ _ = [] ++ [_] from hvalues) rfl
        exact absurd hnil hne
      · rw [concat_eq_append] at hvalues
        have hvalues := hvalues.trans (unended_concat header before content)
        obtain ⟨rfl, hlast⟩ := append_inj' hvalues rfl
        exact ⟨before, rfl, .inr ⟨content, singleton_inj.mp hlast⟩⟩
    | [trailer], _ =>
      rw [map_singleton, ← cons_append] at hvalues
      obtain ⟨hleft, hlast⟩ := append_inj' hvalues rfl
      exact ⟨contents, hleft, .inl ⟨trailer, singleton_inj.mp hlast⟩⟩
  · rintro ⟨contents, rfl, ⟨trailer, rfl⟩ | ⟨content, rfl⟩⟩
    · exact .inr ⟨contents, [trailer], Nat.le_refl 1, rfl⟩
    · rw [← unended_concat]
      exact formed_unended _

section

variable (hformed : Formed header values) (hne : values ≠ [])
  (hnone : ∀ trailer, Value.streamTrailer trailer ∉ values)

include hformed hne hnone

/-- A stream without a trailer. -/
theorem Formed.eq_unended :
    ∃ contents, values = unended header contents := by
  rcases hformed with hnil | ⟨contents, trailers, hlength, hvalues⟩
  · exact absurd hnil hne
  have htrailers : trailers = [] := by
    rw [eq_nil_iff_forall_not_mem]
    intro trailer hmem
    apply hnone trailer
    rw [hvalues]
    exact mem_cons_of_mem _ (mem_append_right _ (mem_map_of_mem hmem))
  subst htrailers
  rw [map_nil, append_nil] at hvalues
  exact ⟨contents, hvalues⟩

/-- A chunk comes after the header and before the trailer, with the next index. -/
theorem Formed.chunk (content : Bytes) :
    Formed header (values ++
      [.streamChunk ⟨header.streamId, (Directed.chunksOf values).length, content⟩]) := by
  obtain ⟨contents, hvalues⟩ := hformed.eq_unended hne hnone
  rw [formed_concat_iff hne]
  refine ⟨contents, hvalues, .inr ⟨content, ?_⟩⟩
  rw [hvalues, length_chunksOf_unended]

/-- A trailer is the only one. -/
theorem Formed.trailer (trailer : Trailer) :
    Formed header (values ++ [.streamTrailer trailer]) := by
  obtain ⟨contents, hvalues⟩ := hformed.eq_unended hne hnone
  rw [formed_concat_iff hne]
  exact ⟨contents, hvalues, .inl ⟨trailer, rfl⟩⟩

end

end

/-! ## One event more -/

/-- A trailer was handed to the channel. -/
def HasTrailer (h : List Event) : Prop := ∃ trailer, .streamTrailer trailer ∈ handed h

/-- There was a successful close. -/
def HasClosed (h : List Event) : Prop := ∃ m reason, .returned m (.close reason) (.ok ()) ∈ h

namespace Event

/-- What there may be after a successful close. -/
def AfterClose : Event → Prop
  | .handed _ _ _ => False
  | .returned _ _ result => result = .error .alreadyClosed
  | _ => True

/-- If this is a trailer without a reason, the stream is complete. -/
def Completes (h : List Event) : Event → Prop
  | .handed _ (.streamTrailer trailer) _ => trailer.reason = "" → AllSent h
  | _ => True

/-- The event hands nothing to the channel, and no call returns by it. -/
def Silent : Event → Prop
  | .handed _ _ _ => False
  | .returned _ _ _ => False
  | _ => True

end Event

/-- What comes before and after an event of a record, if it is not the last one. -/
theorem concat_eq_iff {h before after : List Event} {e x : Event} :
    h ++ [e] = before ++ x :: after ↔
      (before = h ∧ x = e ∧ after = []) ∨
        ∃ after', after = after' ++ [e] ∧ h = before ++ x :: after' := by
  constructor
  · intro heq
    rcases eq_nil_or_concat after with rfl | ⟨after', last, rfl⟩
    · obtain ⟨hh, hx⟩ := append_inj' heq rfl
      exact .inl ⟨hh.symm, (singleton_inj.mp hx).symm, rfl⟩
    · rw [concat_eq_append, ← cons_append, ← append_assoc] at heq
      obtain ⟨hh, hx⟩ := append_inj' heq rfl
      refine .inr ⟨after', ?_, hh⟩
      rw [concat_eq_append, hx]
  · rintro (⟨rfl, rfl, rfl⟩ | ⟨after', rfl, rfl⟩)
    · rfl
    · rw [append_assoc]
      rfl

section

variable {header : Header} {h : List Event}

/-- One more event keeps the protocol if what it hands over fits. -/
theorem Protocol.concat (hp : Protocol header h) {e : Event}
    (hformed : Formed header (handed (h ++ [e]))) (hafter : HasClosed h → e.AfterClose)
    (hcompletes : e.Completes h) : Protocol header (h ++ [e]) := by
  refine ⟨hformed, ?_, ?_⟩
  · intro before after m reason heq
    rcases concat_eq_iff.mp heq with ⟨-, -, rfl⟩ | ⟨after', rfl, hh⟩
    · exact ⟨rfl, fun _ _ _ hmem => absurd hmem not_mem_nil⟩
    · obtain ⟨hnone, hresults⟩ := hp.closed before after' m reason hh
      have hafter := hafter ⟨m, reason, by rw [hh]; simp⟩
      refine ⟨?_, ?_⟩
      · rw [handed_append, hnone]
        cases e with
        | handed => exact hafter.elim
        | _ => rfl
      · intro n call result hmem
        rcases mem_append.mp hmem with hmem | hmem
        · exact hresults n call result hmem
        · have heq := mem_singleton.mp hmem
          subst heq
          exact hafter
  · intro before after caller trailer result heq hreason
    rcases concat_eq_iff.mp heq with ⟨rfl, rfl, -⟩ | ⟨after', -, hh⟩
    · exact hcompletes hreason
    · exact hp.complete before after' caller trailer result hh hreason

/-- An event that hands nothing and returns nothing is no matter. -/
theorem Protocol.silent (hp : Protocol header h) {e : Event} (he : e.Silent) :
    Protocol header (h ++ [e]) := by
  have hsame : handed (h ++ [e]) = handed h := by
    rw [handed_append]
    cases e with
    | handed | returned => exact he.elim
    | _ => exact append_nil _
  refine hp.concat (hsame ▸ hp.formed) (fun _ => ?_) ?_
  · cases e with
    | handed | returned => exact he.elim
    | _ => trivial
  · cases e with
    | handed => exact he.elim
    | _ => trivial

variable {result : Except StreamError Unit}

/-- A call that returns keeps the protocol if it fails after a close. -/
theorem Protocol.returned (hp : Protocol header h) (n : ℕ) (call : Call)
    (hafter : HasClosed h → result = .error .alreadyClosed) :
    Protocol header (h ++ [.returned n call result]) := by
  refine hp.concat ?_ hafter trivial
  rw [handed_append, show handed [.returned n call result] = [] from rfl, append_nil]
  exact hp.formed

theorem handed_concat (caller : Option ℕ) (value : Value) (result : Except StreamError Unit) :
    handed (h ++ [.handed caller value result]) = handed h ++ [value] :=
  handed_append h _

/-- A chunk is in order if it has the next index and there is no trailer yet. -/
theorem Protocol.chunk (hp : Protocol header h) (hne : handed h ≠ []) (hclosed : ¬ HasClosed h)
    (htrailer : ¬ HasTrailer h) (caller : Option ℕ) (content : Bytes)
    (result : Except StreamError Unit) :
    Protocol header (h ++ [.handed caller
      (.streamChunk ⟨header.streamId, (Directed.chunksOf (handed h)).length, content⟩)
        result]) := by
  refine hp.concat ?_ (fun hbad => absurd hbad hclosed) trivial
  rw [handed_concat]
  exact hp.formed.chunk hne (fun trailer hmem => htrailer ⟨trailer, hmem⟩) content

/-- A trailer is in order if it is the first, and gives a reason if chunks are missing. -/
theorem Protocol.trailer (hp : Protocol header h) (hne : handed h ≠ []) (hclosed : ¬ HasClosed h)
    (htrailer : ¬ HasTrailer h) (caller : Option ℕ) {trailer : Trailer}
    (hsent : trailer.reason = "" → AllSent h) (result : Except StreamError Unit) :
    Protocol header (h ++ [.handed caller (.streamTrailer trailer) result]) := by
  refine hp.concat ?_ (fun hbad => absurd hbad hclosed) hsent
  rw [handed_concat]
  exact hp.formed.trailer hne (fun trailer' hmem => htrailer ⟨trailer', hmem⟩) trailer

end

/-! ## The invariant -/

/-- Who has the lock in a phase, and whether the stream may be closed then. -/
def Held (s : State) : Phase → Prop
  | .writing _ _ | .sending _ _ =>
    s.stream.isClosed = false ∧ ∃ n input, s.holder = some (n, .write input)
  | .closing _ => s.stream.isClosed = false ∧ ∃ n reason, s.holder = some (n, .close reason)
  | .opening | .dropped => s.stream.isClosed = false ∧ s.holder = none
  | .idle | .gone => s.holder = none

/-- The state of a stream goes with what is on record. -/
structure Linked (header : Header) (h : List Event) (s : State) : Prop where
  header : s.stream.header = header
  unopened : s.stream.phase = .opening → s.awaited = none → handed h = []
  opened : s.stream.phase ≠ .gone → (s.stream.phase = .opening → s.awaited ≠ none) →
    handed h ≠ []
  closed : HasClosed h ↔ s.stream.isClosed = true
  held : Held s s.stream.phase

/-- The chunks whose results are awaited in a phase. -/
def inFlight : Phase → ℕ
  | .sending _ _ => 1
  | _ => 0

/-- The trailer is sent, or the writers are gone. -/
def Last : Phase → Prop
  | .closing _ | .gone => True
  | _ => False

/-- The stream is ended, or is being ended. -/
def State.Ending (s : State) : Prop := s.stream.isClosed = true ∨ Last s.stream.phase

/-- No write has the lock in this phase. -/
def Resting : Phase → Prop
  | .writing _ _ | .sending _ _ => False
  | _ => True

/-- What is left of what was given to the writes, of which this was sent. -/
def State.Left (s : State) (sent given : List Bytes) : Phase → Prop
  | .writing bytes rest => sent ++ bytes :: rest = given
  | .sending _ rest => s.awaited = some (.ok ()) → sent ++ rest = given
  | _ => sent = given

/-- What was sent, as long as no call is cut short. -/
structure Counted (h : List Event) (s : State) : Prop where
  /-- The close that sent a trailer has closed the stream, or will. -/
  trailer : HasTrailer h → NoneCut h Call.isClose → s.Ending
  /-- The index counts the chunks that the channel was handed. -/
  chunks : NoneCut h Call.isWrite →
    (Directed.chunksOf (handed h)).length =
      s.stream.progress.chunkIndex + inFlight s.stream.phase
  /-- A write that does not have the lock any more has sent everything. -/
  contents : NoneCut h Call.isWrite → s.Left (sent h) (given h) s.stream.phase

/-- What holds as long as the stream is used with care. -/
structure Inv (header : Header) (h : List Event) (s : State) : Prop where
  protocol : Protocol header h
  linked : Linked header h s
  counted : Counted h s

theorem Inv.new (header : Header) (destinationIdentities : List String) :
    Inv header [] (new header destinationIdentities) where
  protocol := ⟨.inl rfl, fun before after m reason heq => by simp at heq,
    fun before after caller trailer result heq => by simp at heq⟩
  linked :=
    { header := rfl
      unopened := fun _ _ => rfl
      opened := fun _ hawaited => absurd rfl (hawaited rfl)
      closed := ⟨fun ⟨_, _, hmem⟩ => absurd hmem not_mem_nil, nofun⟩
      held := ⟨rfl, rfl⟩ }
  counted :=
    { trailer := fun ⟨_, hmem⟩ => absurd hmem not_mem_nil
      chunks := fun _ => rfl
      contents := fun _ => rfl }

section

variable {header : Header} {h es : List Event} {s s' : State}

/-- What was not cut in the end was not cut before. -/
theorem NoneCut.left {kind : Call → Bool} (hnone : NoneCut (h ++ es) kind) : NoneCut h kind :=
  fun e he => hnone e (mem_append_left es he)

variable {e : Event} {phase : Phase}

/-- Where an event cuts a call short, nothing is left to be shown of the calls of its kind. -/
theorem not_noneCut {kind : Call → Bool} (he : e.cuts kind = true) :
    ¬ NoneCut (h ++ [e]) kind := by
  intro hnone
  have hnot := hnone e (mem_append_right h mem_cons_self)
  rw [he] at hnot
  cases hnot

theorem sent_append : sent (h ++ es) = sent h ++ sent es := filterMap_append

theorem given_append : given (h ++ es) = given h ++ given es := flatMap_append

theorem hasTrailer_append (hnone : ∀ trailer, Value.streamTrailer trailer ∉ handed es) :
    HasTrailer (h ++ es) ↔ HasTrailer h := by
  unfold HasTrailer
  refine exists_congr fun trailer => ?_
  rw [handed_append, mem_append, or_iff_left (hnone trailer)]

/-- The events tell of no chunk and of no write that begins. -/
structure Chunkless (es : List Event) : Prop where
  sent : sent es = []
  given : given es = []
  chunks : Directed.chunksOf (handed es) = []

theorem chunkless_nil : Chunkless [] := ⟨rfl, rfl, rfl⟩

theorem chunkless_returned (n : ℕ) (call : Call) (result : Except StreamError Unit) :
    Chunkless [.returned n call result] := ⟨rfl, rfl, rfl⟩

theorem chunkless_cancelled (n : ℕ) (call : Call) (locked : Bool) :
    Chunkless [.cancelled n call locked] := ⟨rfl, rfl, rfl⟩

theorem chunkless_trailer (caller : Option ℕ) (trailer : Trailer)
    (result : Except StreamError Unit) :
    Chunkless [.handed caller (.streamTrailer trailer) result] := ⟨rfl, rfl, rfl⟩

theorem chunkless_header (caller : Option ℕ) (header : Header)
    (result : Except StreamError Unit) :
    Chunkless [.handed caller (.streamHeader header) result] := ⟨rfl, rfl, rfl⟩

theorem chunksOf_append :
    Directed.chunksOf (handed (h ++ es)) =
      Directed.chunksOf (handed h) ++ Directed.chunksOf (handed es) := by
  rw [handed_append, Directed.chunksOf, filterMap_append]
  rfl

/-- A step that sends no chunk and lets no write begin. -/
theorem Counted.goes (hc : Counted h s) (hes : Chunkless es)
    (htrailer : HasTrailer (h ++ es) → NoneCut (h ++ es) Call.isClose → s'.Ending)
    (hchunks : NoneCut (h ++ es) Call.isWrite →
      s.stream.progress.chunkIndex + inFlight s.stream.phase =
        s'.stream.progress.chunkIndex + inFlight s'.stream.phase)
    (hleft : NoneCut (h ++ es) Call.isWrite → s.Left (sent h) (given h) s.stream.phase →
      s'.Left (sent h) (given h) s'.stream.phase) : Counted (h ++ es) s' := by
  refine ⟨htrailer, ?_, ?_⟩
  · intro hnone
    rw [chunksOf_append, hes.chunks, append_nil, hc.chunks hnone.left, hchunks hnone]
  · intro hnone
    rw [sent_append, given_append, hes.sent, hes.given, append_nil, append_nil]
    exact hleft hnone (hc.contents hnone.left)

/-- While no write has the lock, nothing is in flight and nothing is left. -/
theorem Resting.spec (hrest : Resting s.stream.phase) : inFlight s.stream.phase = 0 ∧
    ∀ sent given, s.Left sent given s.stream.phase ↔ sent = given := by
  cases hphase : s.stream.phase with
  | writing | sending =>
    rw [hphase] at hrest
    exact hrest.elim
  | _ => exact ⟨rfl, fun _ _ => Iff.rfl⟩

/-- A step between phases in which no write has the lock. -/
theorem Counted.rests (hc : Counted h s) (hes : Chunkless es)
    (htrailer : HasTrailer (h ++ es) → NoneCut (h ++ es) Call.isClose → s'.Ending)
    (hindex : s'.stream.progress = s.stream.progress) (hrest : Resting s.stream.phase)
    (hrest' : Resting s'.stream.phase) : Counted (h ++ es) s' := by
  refine hc.goes hes htrailer (fun _ => ?_) (fun _ => ?_)
  · rw [hindex, hrest.spec.1, hrest'.spec.1]
  · rw [hrest.spec.2, hrest'.spec.2]
    exact id

/-- An event by which a write is cut short. -/
theorem Counted.cutWrite (hc : Counted h s) (hes : Chunkless [e]) (he : e.cuts Call.isWrite = true)
    (htrailer : HasTrailer (h ++ [e]) → NoneCut (h ++ [e]) Call.isClose → s'.Ending) :
    Counted (h ++ [e]) s' := by
  refine hc.goes hes htrailer ?_ ?_
  · exact fun hnone => absurd hnone (not_noneCut he)
  · exact fun hnone => absurd hnone (not_noneCut he)

/-- An event by which a close is cut short. -/
theorem Counted.cutClose (hc : Counted h s) (hes : Chunkless [e]) (he : e.cuts Call.isClose = true)
    (hindex : s'.stream.progress = s.stream.progress) (hrest : Resting s.stream.phase)
    (hrest' : Resting s'.stream.phase) :
    Counted (h ++ [e]) s' := by
  refine hc.rests hes ?_ hindex hrest hrest'
  exact fun _ hnone => absurd hnone (not_noneCut he)

/-- A step that sends no trailer, and after which the stream is ending if it was. -/
theorem Counted.ending (hc : Counted h s)
    (hnone : ∀ trailer, Value.streamTrailer trailer ∉ handed es) (himp : s.Ending → s'.Ending) :
    HasTrailer (h ++ es) → NoneCut (h ++ es) Call.isClose → s'.Ending :=
  fun htrailer hcut => himp (hc.trailer ((hasTrailer_append hnone).mp htrailer) hcut.left)

theorem State.not_ending (hopen : s.stream.isClosed = false) (hphase : s.stream.phase = phase)
    (hlast : ¬ Last phase) : ¬ s.Ending := by
  rintro (hclosed | hbad)
  · rw [hopen] at hclosed
    cases hclosed
  · exact hlast (hphase ▸ hbad)

theorem resting_of (hphase : s.stream.phase = phase) (hrest : Resting phase) :
    Resting s.stream.phase := hphase ▸ hrest

variable {reason : Option String}

/-- While no call has the lock and the stream may be ended, it has no trailer, and it is complete
unless a reason is given. -/
theorem Counted.mayEnd (hc : Counted h s) (hnot : ¬ s.Ending) (hrest : Resting s.stream.phase)
    (hmay : MayEnd h reason) :
    ¬ HasTrailer h ∧ (reason.getD "" = "" → AllSent h) := by
  refine ⟨fun htrailer => hnot (hc.trailer htrailer hmay.1), ?_⟩
  intro hreason
  obtain ⟨hcut, hwithdraws⟩ := hmay.2 hreason
  refine ⟨(hrest.spec.2 _ _).mp (hc.contents hcut), ?_⟩
  intro n input hcancelled
  simpa [Event.withdraws] using hwithdraws _ hcancelled

/-- What neither hands a packet nor closes leaves the record as it was for the stream. -/
theorem Linked.append (hlinked : Linked header h s) (hes : handed es = [])
    (hclosed : ¬ HasClosed es) : Linked header (h ++ es) s := by
  have hhanded : handed (h ++ es) = handed h := by rw [handed_append, hes, append_nil]
  have hiff : HasClosed (h ++ es) ↔ HasClosed h := by
    constructor
    · rintro ⟨m, reason, hmem⟩
      rcases mem_append.mp hmem with hmem | hmem
      · exact ⟨m, reason, hmem⟩
      · exact absurd ⟨m, reason, hmem⟩ hclosed
    · rintro ⟨m, reason, hmem⟩
      exact ⟨m, reason, mem_append_left es hmem⟩
  refine ⟨hlinked.header, ?_, ?_, hiff.trans hlinked.closed, hlinked.held⟩
  · rw [hhanded]
    exact hlinked.unopened
  · rw [hhanded]
    exact hlinked.opened

/-- A silent event. -/
theorem Inv.silent (hinv : Inv header h s) (he : e.Silent) (hlinked : Linked header h s')
    (hcounted : Counted (h ++ [e]) s') :
    Inv header (h ++ [e]) s' := by
  refine ⟨hinv.protocol.silent he, hlinked.append ?_ ?_, hcounted⟩
  · cases e with
    | handed => exact he.elim
    | _ => rfl
  · rintro ⟨m, reason, hmem⟩
    rw [← mem_singleton.mp hmem] at he
    exact he

/-- Nothing is put on record. -/
theorem Inv.still (hinv : Inv header h s) (hlinked : Linked header h s')
    (hcounted : Counted (h ++ []) s') : Inv header (h ++ []) s' := by
  rw [append_nil] at hcounted ⊢
  exact ⟨hinv.protocol, hlinked, hcounted⟩

/-- A call returns what is no successful close. -/
theorem Inv.returned (hinv : Inv header h s) {n : ℕ} {call : Call} (hlinked : Linked header h s')
    (hcounted : Counted (h ++ [.returned n call result]) s')
    (hnot : ∀ reason, call = .close reason → result ≠ .ok ())
    (hafter : s.stream.isClosed = false ∨ result = .error .alreadyClosed) :
    Inv header (h ++ [.returned n call result]) s' := by
  refine ⟨?_, hlinked.append rfl ?_, hcounted⟩
  · refine hinv.protocol.returned n call fun hclosed => hafter.resolve_left ?_
    rw [hinv.linked.closed.mp hclosed]
    exact nofun
  · rintro ⟨m, reason, hmem⟩
    cases mem_singleton.mp hmem
    exact hnot reason rfl rfl

/-- A packet was handed to the channel; the stream is closed only when its result is there. -/
theorem Linked.sends {caller : Option ℕ} {value : Value} (hlinked : Linked header h s)
    (hheader : s'.stream.header = s.stream.header)
    (hclosed : s'.stream.isClosed = s.stream.isClosed)
    (hopening : s'.stream.phase = .opening → s'.awaited ≠ none) (hheld : Held s' s'.stream.phase) :
    Linked header (h ++ [.handed caller value result]) s' := by
  refine ⟨hheader.trans hlinked.header, ?_, ?_, ?_, hheld⟩
  · exact fun hphase hnone => absurd hnone (hopening hphase)
  · intro _ _
    rw [handed_concat]
    exact append_ne_nil_of_right_ne_nil _ (cons_ne_nil _ _)
  · rw [hclosed, ← hlinked.closed]
    constructor
    · rintro ⟨m, reason, hmem⟩
      rcases mem_append.mp hmem with hmem | hmem
      · exact ⟨m, reason, hmem⟩
      · cases mem_singleton.mp hmem
    · rintro ⟨m, reason, hmem⟩
      exact ⟨m, reason, mem_append_left _ hmem⟩

/-- Who waits for the lock is no matter for the stream. -/
theorem Linked.of_eq (hlinked : Linked header h s) (hstream : s'.stream = s.stream)
    (hholder : s'.holder = s.holder) (hawaited : s'.awaited = s.awaited) : Linked header h s' := by
  obtain ⟨hheader, hunopened, hopened, hclosed, hheld⟩ := hlinked
  refine ⟨?_, ?_, ?_, ?_, ?_⟩
  · rw [hstream]
    exact hheader
  · rw [hstream, hawaited]
    exact hunopened
  · rw [hstream, hawaited]
    exact hopened
  · rw [hstream]
    exact hclosed
  · unfold Held at hheld ⊢
    rw [hstream, hholder]
    exact hheld

/-- The stream of a call that goes on. -/
theorem Linked.goes (hlinked : Linked header h s) (hheader : s'.stream.header = s.stream.header)
    (hclosed : s'.stream.isClosed = s.stream.isClosed) (hphase : s'.stream.phase ≠ .opening)
    (hopened : s'.stream.phase ≠ .gone → handed h ≠ []) (hheld : Held s' s'.stream.phase) :
    Linked header h s' := by
  refine ⟨hheader.trans hlinked.header, fun hbad => absurd hbad hphase,
    fun hgone _ => hopened hgone, ?_, hheld⟩
  rw [hclosed]
  exact hlinked.closed

/-! ## What a step does -/

variable {outcome : Outcome}

section

variable {o o' : OutStream} {requests : List Request}

/-- A write starts from an idle stream. -/
theorem act_write {input : Input} (hact : o.act (.write input) = some (o', requests)) :
    o.phase = .idle ∧ o' = { o with
      phase := OutStream.proceed input.chunks, input := o.input ++ input.chunks } := by
  have hcases := OutStream.act_cases hact
  simp only [reduceCtorEq, Directed.WriterAction.write.injEq, false_and, exists_false, or_false,
    exists_eq_left'] at hcases
  exact ⟨hcases.1, hcases.2.2⟩

/-- The next chunk has the next number. -/
theorem act_send (hact : o.act .send = some (o', requests)) :
    ∃ bytes rest, o.phase = .writing bytes rest ∧
      requests = [⟨RawStream.createChunkPacket o.id o.progress.chunkIndex bytes, true⟩] ∧
        o' = { o with phase := .sending bytes rest } := by
  have hcases := OutStream.act_cases hact
  simp only [reduceCtorEq, false_and, exists_false, or_false, false_or, true_and] at hcases
  exact hcases

variable {reason : Option String}

/-- Closing sends the trailer once; a closed stream stays as it is. -/
theorem act_close (hact : o.act (.close reason) = some (o', requests)) :
    o.phase = .idle ∧ (o.isClosed = true ∧ requests = [] ∧ o' = o ∨
      o.isClosed = false ∧ requests = [⟨RawStream.createTrailerPacket o.id reason, true⟩] ∧
        o' = { o with phase := .closing reason }) := by
  have hcases := OutStream.act_cases hact
  simp only [reduceCtorEq, Directed.WriterAction.close.injEq, false_and, exists_false, or_false,
    false_or, exists_eq_left'] at hcases
  rcases hcases with ⟨hphase, hclosed⟩ | ⟨hphase, hopen⟩
  · exact ⟨hphase, .inl hclosed⟩
  · exact ⟨hphase, .inr hopen⟩

theorem act_drop {runtime : Bool} (hact : o.act (.drop runtime) = some (o', requests)) :
    o.phase = .idle ∧ (o' = { o with phase := .gone } ∨
      o.isClosed = false ∧ o' = { o with phase := .dropped }) := by
  have hcases := OutStream.act_cases hact
  simp only [reduceCtorEq, Directed.WriterAction.drop.injEq, false_and, exists_false, or_false,
    false_or, exists_eq_left'] at hcases
  rcases hcases with ⟨-, hphase, hopen, -, ho⟩ | ⟨hphase, -, -, ho⟩
  · exact ⟨hphase, .inr ⟨hopen, ho⟩⟩
  · exact ⟨hphase, .inl ho⟩

/-- The spawned task sends the trailer of a dropped writer. -/
theorem act_spawned (hact : o.act .spawned = some (o', requests)) :
    o.phase = .dropped ∧
      requests = [⟨RawStream.createTrailerPacket o.id none, false⟩] ∧
        o' = { o with phase := .gone } := by
  have hcases := OutStream.act_cases hact
  simp only [reduceCtorEq, false_and, exists_false, false_or, true_and] at hcases
  exact hcases

end

variable {phase : Phase} {call : Call} {input : Input} {n : ℕ} {bytes : Bytes} {rest : List Bytes}

/-- The stream has its header. -/
theorem Linked.ne_nil (hlinked : Linked header h s) (hphase : s.stream.phase = phase)
    (hgone : phase ≠ .gone) (hopening : phase ≠ .opening) :
    handed h ≠ [] := by
  subst hphase
  exact hlinked.opened hgone fun hbad => absurd hbad hopening

/-- Who has the lock in this phase. -/
theorem Linked.held_of (hlinked : Linked header h s) (hphase : s.stream.phase = phase) :
    Held s phase := hphase ▸ hlinked.held

/-- An open stream has seen no close. -/
theorem Linked.not_closed (hlinked : Linked header h s) (hopen : s.stream.isClosed = false) :
    ¬ HasClosed h := by
  rw [hlinked.closed, hopen]
  exact Bool.false_ne_true

/-- The header is sent. -/
theorem Inv.openStream (hinv : Inv header h s)
    (hperform : s.perform (.openStream outcome) = some (s', es)) :
    Inv header (h ++ es) s' := by
  unfold perform at hperform
  dsimp only at hperform
  split at hperform
  · next hphase hawaited =>
    rw [some.injEq] at hperform
    have hnone := hinv.linked.unopened hphase hawaited
    obtain ⟨hopen, hholder⟩ := hinv.linked.held_of hphase
    have hrest := resting_of hphase trivial
    unfold sendPacket at hperform
    rw [hholder] at hperform
    cases outcome with
    | refused =>
      cases hperform
      have hanswer : s.stream.answer (.error .internal) = { s.stream with phase := .gone } := by
        unfold OutStream.answer
        rw [hphase]
      rw [hanswer]
      refine hinv.still (hinv.linked.goes rfl rfl nofun (fun hbad => absurd rfl hbad) rfl) ?_
      exact hinv.counted.rests chunkless_nil (fun _ _ => .inr trivial) rfl hrest trivial
    | taken result =>
      cases hperform
      refine ⟨?_, hinv.linked.sends rfl rfl nofun ?_, ?_⟩
      · refine hinv.protocol.concat ?_ (fun hbad => absurd hbad (hinv.linked.not_closed hopen))
          trivial
        rw [handed_concat, hnone, ← hinv.linked.header]
        exact formed_unended []
      · unfold Held
        dsimp only
        rw [hphase]
        exact ⟨hopen, rfl⟩
      · refine hinv.counted.rests (chunkless_header _ _ _) (hinv.counted.ending ?_ id) rfl hrest
          hrest
        exact fun trailer hmem => by cases mem_singleton.mp hmem
  · cases hperform

/-- A call comes. -/
theorem Inv.called (hinv : Inv header h s) (hperform : s.perform (.call call) = some (s', es)) :
    Inv header (h ++ es) s' := by
  unfold perform at hperform
  obtain ⟨-, ⟨⟩⟩ := TransitionSystem.of_guard hperform
  refine hinv.still (hinv.linked.of_eq rfl rfl rfl) ?_
  exact hinv.counted.goes chunkless_nil (hinv.counted.ending nofun id) (fun _ => rfl) fun _ => id

/-- A write gets the lock: what it was given is left. -/
theorem Counted.begins (hc : Counted h s) (n : ℕ) (hphase : s.stream.phase = .idle)
    (hnot : ¬ s.Ending) (hprogress : s'.stream.progress = s.stream.progress)
    (hphase' : s'.stream.phase = OutStream.proceed input.chunks) :
    Counted (h ++ [.began n input]) s' := by
  have hrest := resting_of hphase trivial
  refine ⟨?_, ?_, ?_⟩
  · intro htrailer hcut
    rw [hasTrailer_append fun _ => not_mem_nil] at htrailer
    exact absurd (hc.trailer htrailer hcut.left) hnot
  · intro hcut
    rw [chunksOf_append, hphase', hprogress, show Directed.chunksOf (handed [.began n input]) = []
      from rfl, append_nil, hc.chunks hcut.left, hrest.spec.1]
    cases input.chunks <;> rfl
  · intro hcut
    have hleft := (hrest.spec.2 _ _).mp (hc.contents hcut.left)
    rw [sent_append, given_append, hphase', hleft, show sent [.began n input] = [] from rfl,
      show given [.began n input] = input.chunks from append_nil _, append_nil]
    cases input.chunks with
    | nil => exact (append_nil _).symm
    | cons => rfl

/-- A write gets the lock. -/
theorem Inv.beginsWrite (hinv : Inv header h s) (hopen : s.stream.isClosed = false)
    (hholder : s.holder = none) (hbegin : s.begin n outcome (.write input) = some (s', es)) :
    Inv header (h ++ es) s' := by
  unfold begin at hbegin
  obtain ⟨⟨o, requests⟩, hact, hnext⟩ := map_eq_some_iff.mp hbegin
  obtain ⟨hphase, rfl⟩ := act_write hact
  have hne : handed h ≠ [] := hinv.linked.ne_nil hphase nofun nofun
  have hnot : ¬ s.Ending := State.not_ending hopen hphase id
  dsimp only at hnext
  cases hchunks : input.chunks with
  | nil =>
    rw [hchunks] at hnext
    cases hnext
    have hbegan : Inv header (h ++ [.began n input]) { s with stream := { s.stream with
        phase := .idle, input := s.stream.input ++ [] } } := by
      refine hinv.silent trivial (hinv.linked.goes rfl rfl nofun (fun _ => hne) hholder) ?_
      exact hinv.counted.begins n hphase hnot rfl (by rw [hchunks]; rfl)
    have happend : h ++ [.began n input, .returned n (.write input) (.ok ())] =
        (h ++ [.began n input]) ++ [.returned n (.write input) (.ok ())] := by
      rw [append_assoc]
      rfl
    rw [happend]
    refine hbegan.returned hbegan.linked ?_ nofun (.inl hopen)
    exact hbegan.counted.rests (chunkless_returned _ _ _) (hbegan.counted.ending nofun id) rfl
      trivial trivial
  | cons bytes rest =>
    rw [hchunks, OutStream.proceed, if_neg nofun] at hnext
    cases hnext
    refine hinv.silent trivial (hinv.linked.goes rfl rfl nofun (fun _ => hne)
      ⟨hopen, n, input, rfl⟩) ?_
    exact hinv.counted.begins n hphase hnot rfl (by rw [hchunks]; rfl)

/-- A close gets the lock. -/
theorem Inv.beginsClose (hinv : Inv header h s)
    (hmay : MayBegin h s.stream.isClosed (.close reason) outcome)
    (hbegin : s.begin n outcome (.close reason) = some (s', es)) : Inv header (h ++ es) s' := by
  unfold begin at hbegin
  dsimp only at hbegin
  split at hbegin
  · cases hbegin
  · next o hact =>
    cases hbegin
    obtain ⟨hphase, ⟨hclosed, -, rfl⟩ | ⟨-, hbad, -⟩⟩ := act_close hact
    · have hrest := resting_of hphase trivial
      refine hinv.returned (hinv.linked.of_eq rfl rfl rfl) ?_ nofun (.inr rfl)
      exact hinv.counted.cutClose (chunkless_returned _ _ _) rfl rfl hrest hrest
    · cases hbad
  · next o request requests hact =>
    obtain ⟨hphase, ⟨-, hbad, -⟩ | ⟨hopen, hrequests, rfl⟩⟩ := act_close hact
    · cases hbad
    cases hrequests
    have hne := hinv.linked.ne_nil hphase nofun nofun
    have hrest := resting_of hphase trivial
    rw [some.injEq] at hbegin
    unfold sendPacket at hbegin
    cases outcome with
    | refused =>
      cases hbegin
      refine hinv.returned (hinv.linked.goes rfl rfl nofun (fun _ => hne) rfl) ?_ nofun (.inl hopen)
      exact hinv.counted.cutClose (chunkless_returned _ _ _) rfl rfl hrest trivial
    | taken result =>
      cases hbegin
      have hnot : ¬ s.Ending := State.not_ending hopen hphase id
      obtain ⟨htrailer, hsent⟩ := hinv.counted.mayEnd hnot hrest (hmay hopen)
      refine ⟨?_, hinv.linked.sends rfl rfl nofun ⟨hopen, n, reason, rfl⟩, ?_⟩
      · exact hinv.protocol.trailer hne (hinv.linked.not_closed hopen) htrailer _ hsent _
      · exact hinv.counted.rests (chunkless_trailer _ _ _) (fun _ _ => .inr trivial) rfl hrest
          trivial

/-- A call gets the lock. -/
theorem Inv.acquire (hinv : Inv header h s) (hcareful : Careful h s (.acquire outcome))
    (hperform : s.perform (.acquire outcome) = some (s', es)) : Inv header (h ++ es) s' := by
  unfold perform at hperform
  dsimp only at hperform
  split at hperform
  · next n call waiting hholder hwaiting =>
    have hmay : MayBegin h s.stream.isClosed call outcome := by
      apply hcareful (n, call)
      rw [hwaiting]
      rfl
    have hinv' : Inv header h { s with waiting } :=
      ⟨hinv.protocol, hinv.linked.of_eq rfl rfl rfl, hinv.counted.trailer, hinv.counted.chunks,
        hinv.counted.contents⟩
    cases call with
    | write input => exact hinv'.beginsWrite hmay hholder hperform
    | close reason => exact hinv'.beginsClose hmay hperform
  · cases hperform

/-- A chunk is handed to the channel. -/
theorem Counted.sends (hc : Counted h s) (hphase : s.stream.phase = .writing bytes rest)
    (hnot : ¬ s.Ending) (caller : Option ℕ) (i : ℕ)
    (hphase' : s'.stream.phase = .sending bytes rest)
    (hprogress : s'.stream.progress = s.stream.progress) (hawaited : s'.awaited = some result) :
    Counted (h ++ [.handed caller (.streamChunk ⟨s.stream.id, i, bytes⟩) result]) s' := by
  refine ⟨?_, ?_, ?_⟩
  · intro htrailer hcut
    rw [hasTrailer_append fun trailer hmem => by cases mem_singleton.mp hmem] at htrailer
    exact absurd (hc.trailer htrailer hcut.left) hnot
  · intro hcut
    rw [chunksOf_append, length_append, hc.chunks hcut.left, hphase, hphase', hprogress]
    rfl
  · intro hcut
    have hleft := hc.contents hcut.left
    rw [hphase] at hleft
    rw [hphase', sent_append, given_append]
    intro hok
    rw [hawaited] at hok
    cases hok
    have hleft : sent h ++ bytes :: rest = given h := hleft
    rw [show given [.handed caller (.streamChunk ⟨s.stream.id, i, bytes⟩) (.ok ())] = [] from rfl,
      append_nil, ← hleft, append_assoc]
    rfl

/-- The write that has the lock is cut short. -/
theorem Inv.cutsWrite (hinv : Inv header h s) {n : ℕ} {input : Input} {phase : Phase}
    (hphase : s.stream.phase = phase) (hopening : phase ≠ .opening) (hlast : ¬ Last phase)
    (hopen : s.stream.isClosed = false) {e : Event}
    (he : (∃ err, e = .returned n (.write input) (.error err)) ∨
      e = .cancelled n (.write input) true)
    (hheader : s'.stream.header = s.stream.header)
    (hclosed : s'.stream.isClosed = s.stream.isClosed) (hidle : s'.stream.phase = .idle)
    (hholder : s'.holder = none) : Inv header (h ++ [e]) s' := by
  have hne : handed h ≠ [] := by
    refine hinv.linked.ne_nil hphase ?_ hopening
    rintro rfl
    exact hlast trivial
  have hnot : ¬ s.Ending := State.not_ending hopen hphase hlast
  have hlinked : Linked header h s' := by
    refine hinv.linked.goes hheader hclosed ?_ (fun _ => hne) ?_
    · rw [hidle]
      exact nofun
    · rw [hidle]
      exact hholder
  rcases he with ⟨err, rfl⟩ | rfl
  · refine hinv.returned hlinked ?_ nofun (.inl hopen)
    exact hinv.counted.cutWrite (chunkless_returned _ _ _) rfl
      (hinv.counted.ending nofun fun hbad => absurd hbad hnot)
  · refine hinv.silent trivial hlinked ?_
    exact hinv.counted.cutWrite (chunkless_cancelled _ _ _) rfl
      (hinv.counted.ending nofun fun hbad => absurd hbad hnot)

/-- A chunk is sent. -/
theorem Inv.send (hinv : Inv header h s) (hcareful : Careful h s (.send outcome))
    (hperform : s.perform (.send outcome) = some (s', es)) : Inv header (h ++ es) s' := by
  unfold perform at hperform
  dsimp only at hperform
  split at hperform
  · next o request requests hact =>
    obtain ⟨bytes, rest, hphase, hrequests, rfl⟩ := act_send hact
    cases hrequests
    have hne : handed h ≠ [] := hinv.linked.ne_nil hphase nofun nofun
    obtain ⟨hopen, n, input, hholder⟩ := hinv.linked.held_of hphase
    rw [some.injEq] at hperform
    unfold sendPacket at hperform
    rw [hholder] at hperform
    cases outcome with
    | refused =>
      cases hperform
      exact hinv.cutsWrite hphase nofun id hopen (.inl ⟨_, rfl⟩) rfl rfl rfl rfl
    | taken result =>
      cases hperform
      obtain ⟨hwrites, hcloses⟩ := hcareful
      have hnot : ¬ s.Ending := State.not_ending hopen hphase id
      refine ⟨?_, hinv.linked.sends rfl rfl nofun ⟨hopen, n, input, rfl⟩, ?_⟩
      · -- the index is the number of the chunks that were handed to the channel
        have hlength : _ = s.stream.progress.chunkIndex + inFlight _ :=
          hinv.counted.chunks hwrites
        rw [hphase] at hlength
        have hid : s.stream.id = header.streamId := congrArg Header.streamId hinv.linked.header
        have hp := hinv.protocol.chunk hne (hinv.linked.not_closed hopen)
          (fun htrailer => hnot (hinv.counted.trailer htrailer hcloses)) (some n) bytes result
        rw [hlength, ← hid] at hp
        exact hp
      · exact hinv.counted.sends hphase hnot _ _ rfl rfl rfl
  · cases hperform

variable {result : Except StreamError Unit}

section

variable (hinv : Inv header h s)

include hinv

section

variable (hawaited : s.awaited = some result)

include hawaited

/-- The result of a chunk comes. -/
theorem Inv.answersChunk (hphase : s.stream.phase = .sending bytes rest)
    (hperform : s.perform .answer = some (s', es)) :
    Inv header (h ++ es) s' := by
  have hne : handed h ≠ [] := hinv.linked.ne_nil hphase nofun nofun
  obtain ⟨hopen, n, input, hholder⟩ := hinv.linked.held_of hphase
  unfold perform at hperform
  rw [hawaited, hholder, map_some, some.injEq] at hperform
  cases result with
  | error err =>
    have hanswer : s.stream.answer (.error err) = { s.stream with phase := .idle } := by
      unfold OutStream.answer
      rw [hphase]
    rw [hanswer] at hperform
    cases hperform
    exact hinv.cutsWrite hphase nofun id hopen (.inl ⟨_, rfl⟩) rfl rfl rfl rfl
  | ok _ =>
    have hanswer : s.stream.answer (.ok ()) = { s.stream with
        phase := OutStream.proceed rest
        progress := { s.stream.progress with
          bytesProcessed := s.stream.progress.bytesProcessed + bytes.length
          chunkIndex := s.stream.progress.chunkIndex + 1 } } := by
      unfold OutStream.answer
      rw [hphase]
    have hnot : ¬ s.Ending := State.not_ending hopen hphase id
    rw [hanswer] at hperform
    cases rest with
    | nil =>
      cases hperform
      refine hinv.returned (hinv.linked.goes rfl rfl nofun (fun _ => hne) rfl) ?_ nofun (.inl hopen)
      refine hinv.counted.goes (chunkless_returned _ _ _)
        (hinv.counted.ending nofun fun hbad => absurd hbad hnot) (fun _ => ?_) (fun _ hleft => ?_)
      · rw [hphase]
        rfl
      · rw [hphase] at hleft
        exact (append_nil _).symm.trans (hleft hawaited)
    | cons bytes' rest =>
      cases hperform
      refine hinv.still (hinv.linked.goes rfl rfl nofun (fun _ => hne) ⟨hopen, n, input, rfl⟩) ?_
      refine hinv.counted.goes chunkless_nil
        (hinv.counted.ending nofun fun hbad => absurd hbad hnot) (fun _ => ?_) (fun _ hleft => ?_)
      · rw [hphase]
        rfl
      · rw [hphase] at hleft
        exact hleft hawaited

/-- The result of a trailer comes. -/
theorem Inv.answersTrailer (hphase : s.stream.phase = .closing reason)
    (hperform : s.perform .answer = some (s', es)) :
    Inv header (h ++ es) s' := by
  have hne : handed h ≠ [] := hinv.linked.ne_nil hphase nofun nofun
  obtain ⟨hopen, n, reason', hholder⟩ := hinv.linked.held_of hphase
  have hrest := resting_of hphase trivial
  unfold perform at hperform
  rw [hawaited, hholder, map_some, some.injEq] at hperform
  cases result with
  | error err =>
    have hanswer : s.stream.answer (.error err) = { s.stream with phase := .idle } := by
      unfold OutStream.answer
      rw [hphase]
    rw [hanswer] at hperform
    cases hperform
    refine hinv.returned (hinv.linked.goes rfl rfl nofun (fun _ => hne) rfl) ?_ nofun (.inl hopen)
    exact hinv.counted.cutClose (chunkless_returned _ _ _) rfl rfl hrest trivial
  | ok _ =>
    have hanswer : s.stream.answer (.ok ()) =
        { s.stream with phase := .idle, isClosed := true } := by
      unfold OutStream.answer
      rw [hphase]
    rw [hanswer] at hperform
    cases hperform
    refine ⟨?_, ⟨hinv.linked.header, nofun, ?_, ?_, rfl⟩, ?_⟩
    · exact hinv.protocol.returned n _ fun hbad => absurd hbad (hinv.linked.not_closed hopen)
    · intro _ _
      rw [handed_append]
      exact append_ne_nil_of_left_ne_nil hne _
    · exact ⟨fun _ => rfl, fun _ => ⟨n, reason', by simp⟩⟩
    · exact hinv.counted.rests (chunkless_returned _ _ _) (fun _ _ => .inl rfl) rfl hrest trivial

/-- The result of the header comes. -/
theorem Inv.answersHeader (hphase : s.stream.phase = .opening)
    (hperform : s.perform .answer = some (s', es)) :
    Inv header (h ++ es) s' := by
  obtain ⟨hopen, hholder⟩ := hinv.linked.held_of hphase
  have hne : handed h ≠ [] := by
    apply hinv.linked.opened
    · rw [hphase]
      exact nofun
    · rw [hawaited]
      exact nofun
  have hanswer : ∃ phase, (phase = .idle ∨ phase = .gone) ∧
      s.stream.answer result = { s.stream with phase } := by
    unfold OutStream.answer
    rw [hphase]
    cases result with
    | ok _ => exact ⟨.idle, .inl rfl, rfl⟩
    | error err => exact ⟨.gone, .inr rfl, rfl⟩
  have hnot : ¬ s.Ending := State.not_ending hopen hphase id
  obtain ⟨phase, hor, hanswer⟩ := hanswer
  unfold perform at hperform
  rw [hawaited, hholder, map_some, some.injEq, hanswer] at hperform
  cases hperform
  refine hinv.still (hinv.linked.goes rfl rfl ?_ (fun _ => hne) ?_) ?_
  · rintro rfl
    rcases hor with hbad | hbad <;> cases hbad
  · rcases hor with rfl | rfl <;> rfl
  · refine hinv.counted.rests chunkless_nil (hinv.counted.ending nofun fun hbad => absurd hbad hnot)
      rfl (resting_of hphase trivial) ?_
    rcases hor with rfl | rfl <;> trivial

/-- A result comes where none is waited for. -/
theorem Inv.answersNothing (hanswer : s.stream.answer result = s.stream)
    (hphase : s.stream.phase ≠ .opening)
    (hsending : ∀ bytes rest, s.stream.phase ≠ .sending bytes rest)
    (hidle : s.stream.phase = .idle → s.holder = none)
    (hperform : s.perform .answer = some (s', es)) : Inv header (h ++ es) s' := by
  have hquiet : es = [] ∧ s' = { s with awaited := none } := by
    unfold perform at hperform
    rw [hawaited, map_some, some.injEq, hanswer] at hperform
    split at hperform
    · cases hperform
      exact ⟨rfl, rfl⟩
    · next hholder =>
      rw [if_neg ?_] at hperform
      · cases hperform
        exact ⟨rfl, rfl⟩
      · intro hbad
        rw [hidle hbad] at hholder
        cases hholder
  obtain ⟨rfl, rfl⟩ := hquiet
  refine hinv.still (hinv.linked.goes rfl rfl hphase ?_ hinv.linked.held) ?_
  · exact fun hgone => hinv.linked.ne_nil rfl hgone hphase
  · refine hinv.counted.goes chunkless_nil (hinv.counted.ending nofun id) (fun _ => rfl) ?_
    intro _ hleft
    cases hcase : s.stream.phase with
    | sending bytes rest => exact absurd hcase (hsending bytes rest)
    | _ =>
      rw [hcase] at hleft
      exact hleft

end

/-- What was awaited comes. -/
theorem Inv.answer (hperform : s.perform .answer = some (s', es)) : Inv header (h ++ es) s' := by
  obtain ⟨result, hawaited, -⟩ := map_eq_some_iff.mp hperform
  cases hphase : s.stream.phase with
  | sending bytes rest => exact hinv.answersChunk hawaited hphase hperform
  | closing reason => exact hinv.answersTrailer hawaited hphase hperform
  | opening => exact hinv.answersHeader hawaited hphase hperform
  | _ =>
    refine hinv.answersNothing hawaited ?_ ?_ ?_ ?_ hperform
    · unfold OutStream.answer
      rw [hphase]
    · rw [hphase]
      exact nofun
    · rw [hphase]
      exact nofun
    · have hheld := hinv.linked.held
      unfold Held at hheld
      rw [hphase] at hheld ⊢
      first
        | exact fun _ => hheld
        | exact nofun

/-- The call that has the lock is given up. -/
theorem Inv.cancelsHolder (hholder : s.holder = some (n, call)) {o : OutStream}
    (habandon : s.stream.abandon = some o) :
    Inv header (h ++ [.cancelled n call true])
      { s with stream := o, holder := none, awaited := none } := by
  have hother : s.holder ≠ none := by
    rw [hholder]
    exact nofun
  unfold OutStream.abandon at habandon
  cases hphase : s.stream.phase with
  | writing | sending =>
    rw [hphase] at habandon
    cases habandon
    obtain ⟨hopen, m, input, hheld⟩ := hinv.linked.held_of hphase
    rw [hholder] at hheld
    cases hheld
    exact hinv.cutsWrite hphase nofun id hopen (.inr rfl) rfl rfl rfl rfl
  | closing reason =>
    rw [hphase] at habandon
    cases habandon
    obtain ⟨hopen, m, reason', hheld⟩ := hinv.linked.held_of hphase
    rw [hholder] at hheld
    cases hheld
    refine hinv.silent trivial (hinv.linked.goes rfl rfl nofun
      (fun _ => hinv.linked.ne_nil hphase nofun nofun) rfl) ?_
    exact hinv.counted.cutClose (chunkless_cancelled _ _ _) rfl rfl (resting_of hphase trivial)
      trivial
  | opening => exact absurd (hinv.linked.held_of hphase).2 hother
  | _ =>
    rw [hphase] at habandon
    cases habandon

/-- A call is given up. -/
theorem Inv.cancel (hperform : s.perform (.cancel n) = some (s', es)) :
    Inv header (h ++ es) s' := by
  unfold perform at hperform
  dsimp only at hperform
  split at hperform
  · next n' call hfilter =>
    obtain ⟨o, habandon, hnext⟩ := map_eq_some_iff.mp hperform
    cases hnext
    obtain ⟨hholder, hn⟩ := Option.filter_eq_some_iff.mp hfilter
    rw [← of_decide_eq_true hn]
    exact hinv.cancelsHolder hholder habandon
  · cases hperform
    refine hinv.silent trivial (hinv.linked.of_eq rfl rfl rfl) ?_
    exact hinv.counted.goes (chunkless_cancelled _ _ _) (hinv.counted.ending nofun id)
      (fun _ => rfl) fun _ => id
  · cases hperform

/-- The opening of the stream is given up. -/
theorem Inv.cancelOpen (hperform : s.perform .cancelOpen = some (s', es)) :
    Inv header (h ++ es) s' := by
  unfold perform at hperform
  dsimp only at hperform
  split at hperform
  · next hopening =>
    obtain ⟨o, habandon, hnext⟩ := map_eq_some_iff.mp hperform
    cases hnext
    unfold OutStream.abandon at habandon
    rw [hopening] at habandon
    cases habandon
    have hholder := (hinv.linked.held_of hopening).2
    refine hinv.still (hinv.linked.goes rfl rfl nofun (fun hbad => absurd rfl hbad) hholder) ?_
    exact hinv.counted.rests chunkless_nil (fun _ _ => .inr trivial) rfl
      (resting_of hopening trivial) trivial
  · cases hperform

/-- The last clone is dropped. -/
theorem Inv.drop {runtime : Bool} (hperform : s.perform (.drop runtime) = some (s', es)) :
    Inv header (h ++ es) s' := by
  unfold perform at hperform
  dsimp only at hperform
  split at hperform
  · next hfree =>
    obtain ⟨⟨o, requests⟩, hact, hnext⟩ := map_eq_some_iff.mp hperform
    cases hnext
    have hholder : s.holder = none := isNone_iff_eq_none.mp hfree.1
    obtain ⟨hphase, hor⟩ := act_drop hact
    have hne : handed h ≠ [] := hinv.linked.ne_nil hphase nofun nofun
    have hrest := resting_of hphase trivial
    rcases hor with rfl | ⟨hopen, rfl⟩
    · refine hinv.still (hinv.linked.goes rfl rfl nofun (fun _ => hne) hholder) ?_
      exact hinv.counted.rests chunkless_nil (fun _ _ => .inr trivial) rfl hrest trivial
    · have hnot : ¬ s.Ending := State.not_ending hopen hphase id
      refine hinv.still (hinv.linked.goes rfl rfl nofun (fun _ => hne) ⟨hopen, hholder⟩) ?_
      exact hinv.counted.rests chunkless_nil
        (hinv.counted.ending nofun fun hbad => absurd hbad hnot) rfl hrest trivial
  · cases hperform

/-- The trailer of a dropped stream is sent. -/
theorem Inv.spawned (hcareful : Careful h s (.spawned outcome))
    (hperform : s.perform (.spawned outcome) = some (s', es)) : Inv header (h ++ es) s' := by
  unfold perform at hperform
  dsimp only at hperform
  split at hperform
  · next o request requests hact =>
    obtain ⟨hphase, hrequests, rfl⟩ := act_spawned hact
    cases hrequests
    have hne : handed h ≠ [] := hinv.linked.ne_nil hphase nofun nofun
    obtain ⟨hopen, hholder⟩ := hinv.linked.held_of hphase
    have hrest := resting_of hphase trivial
    rw [some.injEq] at hperform
    unfold sendPacket at hperform
    rw [hholder] at hperform
    cases outcome with
    | refused =>
      cases hperform
      refine hinv.still (hinv.linked.goes rfl rfl nofun (fun _ => hne) rfl) ?_
      exact hinv.counted.rests chunkless_nil (fun _ _ => .inr trivial) rfl hrest trivial
    | taken result =>
      cases hperform
      have hnot : ¬ s.Ending := State.not_ending hopen hphase id
      obtain ⟨htrailer, hsent⟩ := hinv.counted.mayEnd hnot hrest hcareful
      refine ⟨?_, hinv.linked.sends rfl rfl nofun rfl, ?_⟩
      · exact hinv.protocol.trailer hne (hinv.linked.not_closed hopen) htrailer _ hsent _
      · exact hinv.counted.rests (chunkless_trailer _ _ _) (fun _ _ => .inr trivial) rfl hrest
          trivial
  · cases hperform

/-! ## Whole runs -/

/-- A careful step keeps the invariant. -/
theorem Inv.perform {a : Action} (hcareful : Careful h s a)
    (hperform : s.perform a = some (s', es)) :
    Inv header (h ++ es) s' := by
  cases a with
  | openStream => exact hinv.openStream hperform
  | call => exact hinv.called hperform
  | acquire => exact hinv.acquire hcareful hperform
  | send => exact hinv.send hcareful hperform
  | answer => exact hinv.answer hperform
  | cancel => exact hinv.cancel hperform
  | cancelOpen => exact hinv.cancelOpen hperform
  | drop => exact hinv.drop hperform
  | spawned => exact hinv.spawned hcareful hperform

end

end

/-- The packets of a stream and the results of its writers are as they are to be in every run in
which no write gets the lock after a close, and nothing that would need them is sent after calls
that failed or were given up. -/
theorem protocol_of_careful (header : Header) (destinationIdentities : List String)
    (run : List Action)
    (hcareful : TransitionSystem.EachStepOn State.step record (fun h s a _ => Careful h s a) []
      (State.new header destinationIdentities) run) :
    TransitionSystem.Always State.step record (fun h _ => Protocol header h)
      (State.new header destinationIdentities) run := by
  refine TransitionSystem.always_of_eachStepOn (I := Inv header) ?_ ?_ (Inv.new header _) hcareful
  · intro h s hinv
    exact hinv.protocol
  · intro h s a s' hinv hstep hcareful
    obtain ⟨⟨s'', es⟩, hperform, rfl⟩ := map_eq_some_iff.mp hstep
    have hrecord : record s a = es := by
      unfold record
      rw [hperform]
      rfl
    rw [hrecord]
    exact hinv.perform hcareful hperform

/-- The header of a stream of bytes. -/
def plainHeader : Header := (byteHeaders ⟨"t", ∅, [], some "s", none, none, none⟩ none "").1

/-- Two writes of two clones, a third that is given up while it waits and has nothing to send, a
close, and one more that comes too late. -/
def carefulRun : List Action :=
  [.openStream (.taken (.ok ())), .answer, .call (.write (.bytes [1])), .call (.write (.bytes [2])),
    .acquire .refused, .call (.write (.bytes [])), .send (.taken (.ok ())), .answer, .cancel 2,
    .acquire .refused, .send (.taken (.ok ())), .call (.close none), .call (.close (some "late")),
    .answer, .acquire (.taken (.ok ())), .answer, .acquire .refused, .drop true]

theorem protocol_of_careful_run :
    (TransitionSystem.exec step (new plainHeader []) carefulRun).isSome = true ∧
      TransitionSystem.Always State.step record (fun h _ => Protocol plainHeader h)
        (State.new plainHeader []) carefulRun :=
  ⟨by decide, protocol_of_careful plainHeader [] carefulRun (by decide)⟩

/-- One clone closes the stream while a write on another clone waits for the lock: the write hands
a chunk to the channel after the trailer. -/
theorem chunk_after_trailer :
    ¬ ∀ (header : Header) (destinationIdentities : List String) (run : List Action),
      TransitionSystem.Always State.step record (fun h _ => Protocol header h)
        (State.new header destinationIdentities) run := by
  intro hall
  have hexec : ∃ s, TransitionSystem.exec step (new plainHeader [])
      [.openStream (.taken (.ok ())), .answer, .call (.close none), .call (.write (.bytes [1])),
        .acquire (.taken (.ok ())), .answer, .acquire .refused, .send (.taken (.ok ()))] = some s :=
    ⟨_, rfl⟩
  obtain ⟨s, hexec⟩ := hexec
  have hformed := (hall plainHeader [] _ _ [] s (append_nil _).symm hexec).formed
  change Formed plainHeader ([.streamHeader plainHeader, .streamTrailer ⟨"s", ""⟩] ++
    [.streamChunk ⟨"s", 0, [1]⟩]) at hformed
  rw [formed_concat_iff (cons_ne_nil _ _)] at hformed
  obtain ⟨contents, hvalues, -⟩ := hformed
  apply streamTrailer_not_mem_unended plainHeader contents ⟨"s", ""⟩
  rw [← hvalues]
  exact mem_cons_of_mem _ mem_cons_self

end LiveKit.DataStream.Writers
