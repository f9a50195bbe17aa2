import LiveKit.Lib.Counting
import LiveKit.Lib.TransitionSystem

/-!
# The promise of the sid

`Promise` of `utils/promise.rs`. What a call does between two accesses of a lock is one step, and a
lock is held by the calls at the points between taking and releasing it. A free mutex goes to any
call that waits for it; no lock for reading is given while one for writing is held or waited for.
-/

namespace LiveKit.Promise

open List Option TransitionSystem

/-- The reads of the result. -/
inductive Reader where
  /-- At the begin of `result` -/
  | first
  /-- In `result`, if the receiver is taken. -/
  | second
  /-- In `try_result`; some call of `result` had completed when it was called. -/
  | attempt (late : Bool)
deriving DecidableEq

/-- A call, at the point where it is. -/
inductive Call (V : Type) where
  | resolving (value : V)
  /-- With the guard of the sender -/
  | resolveLocked (value : V)
  | resolveEnding (value : V) (ok : Bool)
  | resolved (value : V) (ok : Bool)
  | resolvePanicked
  | waitFirst
  | waitReceiver
  /-- With the guard of the receiver, and the receiver -/
  | awaiting
  | waitWrite (value : V)
  | writing (value : V)
  | waitSecond
  | completed (value : V)
  | resultPanicked
  /-- The future of `result` is dropped. -/
  | dropped
  | trying (late : Bool)
  | tried (late : Bool) (result : Option V)
  /-- With a guard for reading -/
  | reading (reader : Reader)
deriving DecidableEq

namespace Call

variable {V : Type}

def holdsSender : Call V → Bool
  | resolveLocked _ | resolveEnding _ _ => true
  | _ => false

def holdsReceiver : Call V → Bool
  | awaiting | waitWrite _ | writing _ | waitSecond | reading .second => true
  | _ => false

def isReading : Call V → Bool
  | reading _ => true
  | _ => false

def isWriting : Call V → Bool
  | writing _ => true
  | _ => false

/-- The lock for writing is held or waited for. -/
def blocksReads : Call V → Bool
  | waitWrite _ | writing _ => true
  | _ => false

/-- The future is at one of its awaits. -/
def isAwait : Call V → Bool
  | waitFirst | waitReceiver | awaiting | waitWrite _ | waitSecond => true
  | _ => false

def isCompleted : Call V → Bool
  | completed _ => true
  | _ => false

end Call

structure State (V : Type) where
  /-- The sender is there. -/
  tx : Bool
  /-- The receiver is there. -/
  rx : Bool
  /-- The value that went through the channel. -/
  sent : Option V
  result : Option V
  calls : List (Call V)

inductive Action (V : Type) where
  | resolve (value : V)
  | result
  | tryResult
  /-- The call goes on. -/
  | go (i : ℕ)
  | drop (i : ℕ)

namespace State

variable {V : Type}

def new : State V := ⟨true, true, none, none, []⟩

def put (s : State V) (i : ℕ) (call : Call V) : State V := { s with calls := s.calls.set i call }

/-- What a call does next, if it does not wait, and where it is then. -/
def turn (s : State V) : Call V → Option (State V × Call V)
  -- `try_lock().unwrap()`
  | .resolving value =>
    some (s, if s.calls.any Call.holdsSender then .resolvePanicked else .resolveLocked value)
  | .resolveLocked value =>
    if s.tx then some ({ s with tx := false, sent := some value }, .resolveEnding value true)
    else some (s, .resolveEnding value false)
  | .resolveEnding value ok => some (s, .resolved value ok)
  | .waitFirst => if s.calls.any Call.blocksReads then none else some (s, .reading .first)
  | .reading .first => some (s, s.result.elim .waitReceiver .completed)
  | .waitReceiver =>
    if s.calls.any Call.holdsReceiver then none
    else if s.rx then some ({ s with rx := false }, .awaiting)
    else some (s, .waitSecond)
  | .awaiting => s.sent.map fun value => (s, .waitWrite value)
  | .waitWrite value =>
    if s.calls.any Call.isReading || s.calls.any Call.isWriting then none
    else some (s, .writing value)
  | .writing value => some ({ s with result := some value }, .completed value)
  | .waitSecond => if s.calls.any Call.blocksReads then none else some (s, .reading .second)
  -- `clone().unwrap()`
  | .reading .second => some (s, s.result.elim .resultPanicked .completed)
  | .trying late =>
    some (s, if s.calls.any Call.blocksReads then .tried late none else .reading (.attempt late))
  | .reading (.attempt late) => some (s, .tried late s.result)
  | _ => none

def step (s : State V) : Action V → Option (State V)
  | .resolve value => some { s with calls := s.calls ++ [.resolving value] }
  | .result => some { s with calls := s.calls ++ [.waitFirst] }
  | .tryResult => some { s with calls := s.calls ++ [.trying (s.calls.any Call.isCompleted)] }
  | .go i => s.calls[i]?.bind fun call => (s.turn call).map fun next => next.1.put i next.2
  | .drop i => s.calls[i]?.bind fun call => if call.isAwait then some (s.put i .dropped) else none

end State

/-! ## What is promised -/

variable {V : Type}

/-- A call of `resolve` that returns `Ok`. -/
def Call.isOk : Call V → Bool
  | resolveEnding _ ok => ok
  | resolved _ ok => ok
  | _ => false

def State.Resolved (s : State V) (value : V) : Prop :=
  .resolveEnding value true ∈ s.calls ∨ .resolved value true ∈ s.calls

/-- A call of `result` that has neither completed nor been dropped. -/
def Call.isUnfinished : Call V → Bool
  | reading (.attempt _) => false
  | waitFirst | waitReceiver | awaiting | waitWrite _ | writing _ | waitSecond | reading _
  | resultPanicked => true
  | _ => false

/-- How many steps a call takes at most. -/
def Call.rank : Call V → ℕ
  | resolving _ => 3
  | resolveLocked _ => 2
  | resolveEnding _ _ => 1
  | waitFirst => 8
  | reading .first => 7
  | waitReceiver => 6
  | awaiting => 3
  | waitWrite _ => 2
  | writing _ => 1
  | waitSecond => 2
  | reading .second => 1
  | trying _ => 2
  | reading (.attempt _) => 1
  | _ => 0

structure Sound (s : State V) : Prop where
  noPanic : .resolvePanicked ∉ s.calls ∧ .resultPanicked ∉ s.calls
  once : s.calls.countP Call.isOk ≤ 1
  value : ∀ value, .completed value ∈ s.calls → s.Resolved value
  tried : ∀ result, .tried true result ∈ s.calls → ∃ value, result = some value ∧ s.Resolved value
  /-- When the calls go on, they come to an end after so many steps, and those of `result` have
  completed if they were not dropped. -/
  completes : ∀ value, s.Resolved value → ∀ run t, (∀ a ∈ run, ∃ i, a = .go i) →
    exec State.step s run = some t →
    run.length ≤ (s.calls.map Call.rank).sum ∧
      ((∀ i, ¬ Enabled State.step t (.go i)) → ∀ call ∈ t.calls, call.isUnfinished = false)

/-- The receiver, or the value that came out of it, is with the call. -/
def Call.takes : Call V → Bool
  | awaiting | waitWrite _ | writing _ => true
  | _ => false

/-- The call of `resolve` is about to lock the sender. -/
def Call.isResolving : Call V → Bool
  | resolving _ => true
  | _ => false

/-- No `resolve` begins while another has the guard of the sender, and no `result` is dropped that
has taken the receiver. -/
def Careful (s : State V) : Action V → State V → Prop
  | .go i, _ =>
    ∀ call ∈ s.calls[i]?, call.isResolving = true → s.calls.any Call.holdsSender = false
  | .drop i, _ => ∀ call ∈ s.calls[i]?, call.takes = false
  | _, _ => True

instance (s t : State V) (a : Action V) : Decidable (Careful s a t) := by
  cases a <;> unfold Careful <;> infer_instance

/-! ## Where the value is -/

/-- What is known at the point of a call, when these values were sent and written. -/
def Call.Holds (sent result : Option V) : Call V → Prop
  | resolveEnding value true | resolved value true | waitWrite value | writing value =>
    sent = some value
  | completed value => result = some value
  | waitSecond | reading .second | trying true | reading (.attempt true) => result ≠ none
  | tried true r => r ≠ none ∧ r = result
  | resultPanicked => False
  | _ => True

/-- The sender is there or was used by one call, and the receiver is there, with one call, or its
value is written. -/
structure Inv (s : State V) : Prop where
  sender : s.calls.countP Call.isOk + s.tx.toNat = 1
  receiver : s.calls.countP Call.takes + s.rx.toNat + s.result.isSome.toNat = 1
  unsent : s.tx = true → s.sent = none
  written : ∀ value, s.result = some value → s.sent = some value
  holds : ∀ call ∈ s.calls, call.Holds s.sent s.result

theorem inv_new : Inv (State.new : State V) := ⟨rfl, rfl, fun _ => rfl, nofun, nofun⟩

/-- Values that are sent or written stay. -/
theorem Call.Holds.mono {sent sent' result result' : Option V} {call : Call V}
    (h : call.Holds sent result) (hsent : ∀ value, sent = some value → sent' = some value)
    (hresult : ∀ value, result = some value → result' = some value) :
    call.Holds sent' result' := by
  have hsome : result ≠ none → result' = result := by
    intro hne
    obtain ⟨value, hvalue⟩ := ne_none_iff_exists'.mp hne
    rw [hvalue, hresult value hvalue]
  unfold Call.Holds at h ⊢
  split <;> grind

variable {s t : State V} {i : ℕ} {call call' : Call V}

/-- A call goes to another point. -/
theorem Inv.put (h : Inv s) (hcall : s.calls[i]? = some call) (hcalls : t.calls = s.calls)
    (hsender : call'.isOk.toNat + t.tx.toNat = call.isOk.toNat + s.tx.toNat)
    (hreceiver : call'.takes.toNat + t.rx.toNat + t.result.isSome.toNat =
      call.takes.toNat + s.rx.toNat + s.result.isSome.toNat)
    (hunsent : t.tx = true → t.sent = none)
    (hsent : ∀ value, s.sent = some value → t.sent = some value)
    (hresult : ∀ value, s.result = some value → t.result = some value)
    (hwritten : ∀ value, t.result = some value → t.sent = some value)
    (hholds : call'.Holds t.sent t.result) : Inv (t.put i call') := by
  have hok := Counting.countP_set (p := Call.isOk) (b := call') hcall
  have htakes := Counting.countP_set (p := Call.takes) (b := call') hcall
  have hbefore := h.sender
  have hbefore' := h.receiver
  refine ⟨?_, ?_, hunsent, hwritten, ?_⟩
  · show (t.calls.set i call').countP Call.isOk + t.tx.toNat = 1
    rw [hcalls]
    omega
  · show (t.calls.set i call').countP Call.takes + t.rx.toNat + t.result.isSome.toNat = 1
    rw [hcalls]
    omega
  · intro c hc
    rcases mem_or_eq_of_mem_set hc with hold | hnew
    · exact (h.holds c (hcalls ▸ hold)).mono hsent hresult
    · rw [hnew]
      exact hholds

/-- Nothing but the point of a call changes. -/
theorem Inv.goto (h : Inv s) (hcall : s.calls[i]? = some call) (hok : call'.isOk = call.isOk)
    (htakes : call'.takes = call.takes) (hholds : call'.Holds s.sent s.result) :
    Inv (s.put i call') :=
  h.put hcall rfl (by rw [hok]) (by rw [htakes]) h.unsent (fun _ h => h) (fun _ h => h) h.written
    hholds

theorem Call.takes_of_blocksReads (h : call.blocksReads = true) : call.takes = true := by
  cases call <;> first | rfl | cases h

theorem Call.holdsReceiver_of_takes (h : call.takes = true) : call.holdsReceiver = true := by
  cases call <;> first | rfl | cases h

/-- Once the value is written, nobody has it or the receiver. -/
theorem Inv.not_takes (h : Inv s) (hresult : s.result ≠ none) : ∀ c ∈ s.calls, c.takes ≠ true := by
  have hcount := h.receiver
  rw [isSome_iff_ne_none.mpr hresult, Bool.toNat_true] at hcount
  exact countP_eq_zero.mp (by omega)

/-- The receiver is gone and nobody has it, so that the value is written. -/
theorem Inv.result_ne_none (h : Inv s) (hrx : s.rx = false)
    (hfree : ∀ c ∈ s.calls, c.takes ≠ true) : s.result ≠ none := by
  have hcount := h.receiver
  rw [countP_eq_zero.mpr hfree, hrx] at hcount
  intro hnone
  rw [hnone] at hcount
  cases hcount

theorem Inv.turn (h : Inv s) (hcall : s.calls[i]? = some call)
    (hturn : s.turn call = some (t, call')) : Inv (t.put i call') := by
  have hholds := h.holds call (mem_of_getElem? hcall)
  unfold State.turn at hturn
  cases call with
  | resolving value =>
    cases hturn
    exact h.goto hcall (by split <;> rfl) (by split <;> rfl) (by split <;> trivial)
  | resolveLocked value =>
    dsimp only at hturn
    split at hturn
    · next htx =>
      cases hturn
      have hnone := h.unsent htx
      have hunsent : ∀ v, s.sent ≠ some v := by
        intro v hv
        rw [hnone] at hv
        cases hv
      exact h.put hcall rfl (by rw [htx]; rfl) rfl nofun (fun v hv => absurd hv (hunsent v))
        (fun _ h => h) (fun v hv => absurd (h.written v hv) (hunsent v)) rfl
    · cases hturn
      exact h.goto hcall rfl rfl trivial
  | resolveEnding value ok =>
    cases hturn
    exact h.goto hcall rfl rfl (by cases ok <;> exact hholds)
  | waitFirst =>
    obtain ⟨-, ⟨⟩⟩ := of_unless hturn
    exact h.goto hcall rfl rfl trivial
  | reading reader =>
    cases reader with
    | first =>
      cases hturn
      cases hresult : s.result with
      | none => exact h.goto hcall rfl rfl trivial
      | some value => exact h.goto hcall rfl rfl hresult
    | second =>
      cases hturn
      cases hresult : s.result with
      | none => exact absurd hresult hholds
      | some value => exact h.goto hcall rfl rfl hresult
    | attempt late =>
      cases hturn
      refine h.goto hcall rfl rfl ?_
      cases late with
      | false => trivial
      | true => exact ⟨hholds, rfl⟩
  | waitReceiver =>
    dsimp only at hturn
    split at hturn
    · cases hturn
    · next hfree =>
      split at hturn
      · next hrx =>
        cases hturn
        refine h.put hcall rfl rfl ?_ h.unsent (fun _ h => h) (fun _ h => h) h.written trivial
        rw [hrx]
        rfl
      · next hrx =>
        cases hturn
        refine h.goto hcall rfl rfl (h.result_ne_none (Bool.eq_false_iff.mpr hrx) ?_)
        intro c hc htakes
        exact hfree (any_eq_true.mpr ⟨c, hc, c.holdsReceiver_of_takes htakes⟩)
  | awaiting =>
    obtain ⟨value, hsent, heq⟩ := map_eq_some_iff.mp hturn
    cases heq
    exact h.goto hcall rfl rfl hsent
  | waitWrite | waitSecond =>
    obtain ⟨-, ⟨⟩⟩ := of_unless hturn
    exact h.goto hcall rfl rfl hholds
  | writing value =>
    cases hturn
    -- nothing is written yet
    have hnone : s.result = none := by
      by_contra hne
      exact h.not_takes hne _ (mem_of_getElem? hcall) rfl
    refine h.put hcall rfl rfl ?_ h.unsent (fun _ h => h) ?_ ?_ rfl
    · rw [hnone]
      show 0 + s.rx.toNat + 1 = 1 + s.rx.toNat + 0
      omega
    · intro v hv
      rw [hnone] at hv
      cases hv
    · intro v hv
      rw [← some.inj hv]
      exact hholds
  | trying late =>
    cases hturn
    split
    · next hblocked =>
      cases late with
      | false => exact h.goto hcall rfl rfl trivial
      | true =>
        obtain ⟨c, hc, hblocks⟩ := any_eq_true.mp hblocked
        exact absurd (c.takes_of_blocksReads hblocks) (h.not_takes hholds c hc)
    · refine h.goto hcall rfl rfl ?_
      cases late with
      | false => trivial
      | true => exact hholds
  | _ => cases hturn

/-- What a call does to the others and to the sender, and how far it is from its end. -/
theorem turn_spec (hturn : s.turn call = some (t, call')) :
    t.calls = s.calls ∧ call'.rank < call.rank ∧ (s.tx = false → t.tx = false) ∧
      (call' = .resolvePanicked →
        (∃ value, call = .resolving value) ∧ s.calls.any Call.holdsSender = true) := by
  unfold State.turn at hturn
  have hresult := eq_none_or_eq_some s.result
  split at hturn <;> grind [Call.rank, map_eq_some_iff]

/-! ## The steps -/

theorem Inv.concat (h : Inv s) (hok : call.isOk = false) (htakes : call.takes = false)
    (hholds : call.Holds s.sent s.result) : Inv { s with calls := s.calls ++ [call] } := by
  refine ⟨?_, ?_, h.unsent, h.written, ?_⟩
  · show (s.calls ++ [call]).countP Call.isOk + s.tx.toNat = 1
    rw [countP_append, countP_singleton, hok]
    exact h.sender
  · show (s.calls ++ [call]).countP Call.takes + s.rx.toNat + s.result.isSome.toNat = 1
    rw [countP_append, countP_singleton, htakes]
    exact h.receiver
  · intro c hc
    rcases mem_append.mp hc with hold | hnew
    · exact h.holds c hold
    · rw [mem_singleton.mp hnew]
      exact hholds

theorem Inv.go (h : Inv s) (hstep : s.step (.go i) = some t) : Inv t := by
  obtain ⟨call, hcall, hmap⟩ := bind_eq_some_iff.mp hstep
  obtain ⟨⟨next, call'⟩, hturn, rfl⟩ := map_eq_some_iff.mp hmap
  exact h.turn hcall hturn

/-- Where no `resolve` has panicked, too. -/
def Calm (s : State V) : Prop := Inv s ∧ .resolvePanicked ∉ s.calls

theorem Calm.concat (h : Calm s) (hinv : Inv { s with calls := s.calls ++ [call] })
    (hcall : call ≠ .resolvePanicked) : Calm { s with calls := s.calls ++ [call] } := by
  refine ⟨hinv, fun hmem => ?_⟩
  rcases mem_append.mp hmem with hold | hnew
  · exact h.2 hold
  · exact hcall (mem_singleton.mp hnew).symm

theorem Calm.step {a : Action V} (h : Calm s) (hstep : s.step a = some t)
    (hcareful : Careful s a t) : Calm t := by
  cases a with
  | resolve | result =>
    cases hstep
    exact h.concat (h.1.concat rfl rfl trivial) nofun
  | tryResult =>
    cases hstep
    refine h.concat (h.1.concat rfl rfl ?_) nofun
    cases hlate : s.calls.any Call.isCompleted with
    | false => trivial
    | true =>
      obtain ⟨c, hc, hcompleted⟩ := any_eq_true.mp hlate
      have hholds := h.1.holds c hc
      cases c with
      | completed value =>
        show s.result ≠ none
        rw [show s.result = some value from hholds]
        exact some_ne_none value
      | _ => cases hcompleted
  | go i =>
    refine ⟨h.1.go hstep, fun hmem => ?_⟩
    obtain ⟨call, hcall, hmap⟩ := bind_eq_some_iff.mp hstep
    obtain ⟨⟨next, call'⟩, hturn, rfl⟩ := map_eq_some_iff.mp hmap
    obtain ⟨hcalls, -, -, hpanics⟩ := turn_spec hturn
    rcases mem_or_eq_of_mem_set hmem with hold | hnew
    · exact h.2 (hcalls ▸ hold)
    · obtain ⟨⟨value, rfl⟩, hlocked⟩ := hpanics hnew.symm
      rw [hcareful _ hcall rfl] at hlocked
      cases hlocked
  | drop i =>
    obtain ⟨call, hcall, hdrop⟩ := bind_eq_some_iff.mp hstep
    obtain ⟨hawait, rfl⟩ := of_guard hdrop
    have htakes : call.takes = false := hcareful _ hcall
    have hok : call.isOk = false := by cases call <;> first | rfl | cases hawait
    refine ⟨h.1.goto hcall hok.symm htakes.symm trivial, fun hmem => ?_⟩
    rcases mem_or_eq_of_mem_set hmem with hold | hnew
    · exact h.2 hold
    · cases hnew

/-! ## Coming to an end -/

/-- The sender was used by a call that returns `Ok`. -/
theorem Inv.exists_resolved (h : Inv s) (htx : s.tx = false) :
    ∃ value, s.sent = some value ∧ s.Resolved value := by
  have hcount := h.sender
  rw [htx, Bool.toNat_false, Nat.add_zero] at hcount
  obtain ⟨c, hc, hok⟩ := countP_pos_iff.mp (Nat.lt_of_lt_of_eq Nat.zero_lt_one hcount.symm)
  have hholds := h.holds c hc
  cases c with
  | resolveEnding value ok =>
    cases hok
    exact ⟨value, hholds, .inl hc⟩
  | resolved value ok =>
    cases hok
    exact ⟨value, hholds, .inr hc⟩
  | _ => cases hok

theorem Inv.tx_eq_false {value : V} (h : Inv s) (hresolved : s.Resolved value) : s.tx = false := by
  have hpos : 0 < s.calls.countP Call.isOk := by
    rw [countP_pos_iff]
    rcases hresolved with hmem | hmem
    · exact ⟨_, hmem, rfl⟩
    · exact ⟨_, hmem, rfl⟩
  have hcount := h.sender
  exact Bool.toNat_eq_zero.mp (by omega)

/-- When the value was sent and no call goes on, the calls of `result` have completed. -/
theorem Inv.finished (h : Inv s) (htx : s.tx = false)
    (hquiet : ∀ i, ¬ Enabled State.step s (.go i)) : ∀ c ∈ s.calls, c.isUnfinished = false := by
  have hstuck : ∀ c ∈ s.calls, s.turn c = none := by
    intro c hc
    obtain ⟨i, hi⟩ := mem_iff_getElem?.mp hc
    by_contra hne
    obtain ⟨next, hnext⟩ := ne_none_iff_exists'.mp hne
    exact hquiet i ⟨_, bind_eq_some_iff.mpr ⟨c, hi, by rw [hnext]; rfl⟩⟩
  have hany : ∀ p : Call V → Bool, (∀ c ∈ s.calls, p c = false) → s.calls.any p = false :=
    fun p hp => any_eq_false.mpr fun c hc => Bool.eq_false_iff.mp (hp c hc)
  obtain ⟨value, hsent, -⟩ := h.exists_resolved htx
  -- nobody has a guard of the result or waits for one
  have hreading : s.calls.any Call.isReading = false := by
    refine hany _ fun c hc => ?_
    have hnone := hstuck c hc
    cases c with
    | reading reader => cases reader <;> cases hnone
    | _ => rfl
  have hwriting : s.calls.any Call.isWriting = false := by
    refine hany _ fun c hc => ?_
    have hnone := hstuck c hc
    cases c with
    | writing value => cases hnone
    | _ => rfl
  have hblocks : s.calls.any Call.blocksReads = false := by
    refine hany _ fun c hc => ?_
    have hnone := hstuck c hc
    cases c with
    | writing value => cases hnone
    | waitWrite value =>
      rw [State.turn, hreading, hwriting] at hnone
      cases hnone
    | _ => rfl
  have hholds : s.calls.any Call.holdsReceiver = false := by
    refine hany _ fun c hc => ?_
    have hnone := hstuck c hc
    have hfree := any_eq_false.mp hblocks c hc
    cases c with
    | awaiting =>
      rw [State.turn, hsent] at hnone
      cases hnone
    | waitWrite | writing => exact absurd rfl hfree
    | waitSecond =>
      rw [State.turn, hblocks] at hnone
      cases hnone
    | reading reader => exact absurd rfl (any_eq_false.mp hreading _ hc)
    | _ => rfl
  intro c hc
  have hnone := hstuck c hc
  cases c with
  | waitFirst =>
    rw [State.turn, hblocks] at hnone
    cases hnone
  | waitReceiver =>
    rw [State.turn, hholds] at hnone
    cases hrx : s.rx <;> rw [hrx] at hnone <;> cases hnone
  | awaiting | waitWrite | writing | waitSecond => exact absurd rfl (any_eq_false.mp hholds _ hc)
  | reading reader => exact absurd rfl (any_eq_false.mp hreading _ hc)
  | resultPanicked => exact (h.holds _ hc).elim
  | _ => rfl

/-- Calls that go on come to an end, and those of `result` have completed then. -/
theorem Inv.completes (h : Inv s) (htx : s.tx = false) {run : List (Action V)}
    (hrun : ∀ a ∈ run, ∃ i, a = .go i) (hexec : exec State.step s run = some t) :
    run.length ≤ (s.calls.map Call.rank).sum ∧
      ((∀ i, ¬ Enabled State.step t (.go i)) → ∀ c ∈ t.calls, c.isUnfinished = false) := by
  refine ⟨exec_length_le (P := fun a => ∃ i, a = .go i)
    (fun s : State V => (s.calls.map Call.rank).sum) ?_ hrun hexec, ?_⟩
  · rintro s a s' ⟨i, rfl⟩ hstep
    obtain ⟨call, hcall, hmap⟩ := bind_eq_some_iff.mp hstep
    obtain ⟨⟨next, call'⟩, hturn, rfl⟩ := map_eq_some_iff.mp hmap
    obtain ⟨hcalls, hrank, -⟩ := turn_spec hturn
    have hsum := Counting.sum_map_set (f := Call.rank) (b := call') hcall
    show ((next.calls.set i call').map Call.rank).sum < _
    rw [hcalls]
    omega
  · have hend : Inv t ∧ t.tx = false := by
      refine exec_invariant_of_labels (P := fun a => ∃ i, a = .go i)
        (I := fun s => Inv s ∧ s.tx = false) ?_ ⟨h, htx⟩ hrun hexec
      rintro s a s' ⟨hinv, hfalse⟩ ⟨i, rfl⟩ hstep
      refine ⟨hinv.go hstep, ?_⟩
      obtain ⟨call, hcall, hmap⟩ := bind_eq_some_iff.mp hstep
      obtain ⟨⟨next, call'⟩, hturn, rfl⟩ := map_eq_some_iff.mp hmap
      exact (turn_spec hturn).2.2.1 hfalse
    exact hend.1.finished hend.2

theorem Inv.resolved {value : V} (h : Inv s) (hresult : s.result = some value) :
    s.Resolved value := by
  have hsent := h.written value hresult
  have htx : s.tx = false := by
    apply Bool.eq_false_iff.mpr
    intro htrue
    rw [h.unsent htrue] at hsent
    cases hsent
  obtain ⟨sent, hsent', hresolved⟩ := h.exists_resolved htx
  rw [hsent, some.injEq] at hsent'
  exact hsent' ▸ hresolved

theorem Calm.sound (h : Calm s) : Sound s where
  noPanic := ⟨h.2, fun hmem => h.1.holds _ hmem⟩
  once := Nat.le.intro h.1.sender
  value := fun _ hmem => h.1.resolved (h.1.holds _ hmem)
  tried := by
    intro result hmem
    obtain ⟨hne, heq⟩ : result ≠ none ∧ result = s.result := h.1.holds _ hmem
    obtain ⟨value, hvalue⟩ := ne_none_iff_exists'.mp hne
    exact ⟨value, hvalue, h.1.resolved (heq.symm.trans hvalue)⟩
  completes := fun _ hresolved _ _ hrun hexec =>
    h.1.completes (h.1.tx_eq_false hresolved) hrun hexec

/-- In every run in which no two calls of `resolve` overlap and no call of `result` is dropped that
has taken the receiver, the promise has one value, and all calls of `result` get it. -/
theorem sound_of_careful {run : List (Action V)} (h : EachStep State.step Careful State.new run) :
    Throughout State.step Sound State.new run := by
  rintro before after s rfl hexec
  have hcalm : Calm s := exec_invariant_of_eachStep Calm (fun _ _ _ h => h.step)
    ⟨inv_new, not_mem_nil⟩ (h.append hexec).1 hexec
  exact hcalm.sound

/-- A waiter is dropped before it has the receiver, and the next gets the value. -/
theorem sound_after_drop : Throughout State.step Sound (State.new : State ℕ)
    [.result, .go 0, .go 0, .drop 0, .result, .go 1, .go 1, .go 1, .resolve 7, .go 2, .go 2, .go 2,
      .go 1, .go 1, .go 1] :=
  sound_of_careful (by decide)

/-- A waiter is dropped that has the receiver, and the next panics; so does the second of two calls
of `resolve` at the same time. -/
theorem careless_panics :
    ¬ Throughout State.step Sound (State.new : State ℕ)
      [.result, .go 0, .go 0, .go 0, .drop 0, .resolve 7, .go 1, .go 1, .go 1, .result, .go 2,
        .go 2, .go 2, .go 2, .go 2] ∧
    ¬ Throughout State.step Sound (State.new : State ℕ) [.resolve 7, .resolve 8, .go 0, .go 1] := by
  constructor
  · intro h
    exact (h _ [] _ (append_nil _).symm rfl).noPanic.2 (by decide)
  · intro h
    exact (h _ [] _ (append_nil _).symm rfl).noPanic.1 (by decide)

end LiveKit.Promise
