import LiveKit.SignalClient.Signals

/-!
# No queueable signal is lost

A queueable signal is at one place at most. `places_turn` says what a turn does to the number of
places: it stays, unless a write of a flush fails or the websocket refuses what `send` writes
directly, and then the signal is nowhere.
-/

namespace LiveKit.SignalClient

open List State TransitionSystem Counting

/-- The call of `send` still has its signal. -/
def State.carriesAt (s : State) (j : ℕ) : Bool :=
  match s.calls[j]? with
  | some call => call.carries
  | none => false

/-- At how many places the signal is. -/
def State.places (s : State) (j : ℕ) : ℕ :=
  (s.carriesAt j).toNat + s.queue.count j + s.wire.count j +
    s.calls.countP fun call => call.point.inHand = some j

/-- The signal is on the wire, in the queue, in the hands of a flush, or with its own call. -/
def State.Kept (s : State) (j : ℕ) : Prop :=
  j ∈ s.wire ∨ j ∈ s.queue ∨ (∃ call ∈ s.calls, call.point.inHand = some j) ∨
    ∃ call, s.calls[j]? = some call ∧ call.point.carries = true

/-- No queueable signal that was handed over is lost. -/
def State.NoneLost (s : State) : Prop := ∀ j, s.QueueableAt j → s.Kept j

/-- The step is no write of a flush that fails, and no write error of a queueable signal that is
sent directly. -/
def NoWriteFails (s : State) (a : Action) (_ : State) : Prop :=
  ∀ i result call, a = .written i result → s.calls[i]? = some call →
    (∀ signal, call.point = .flushSend signal → result = .ok) ∧
    (call.point = .sending → Queueable call.operation = true → result ≠ .wsError)

/-! ## Counting the places -/

variable {s : State}

variable {j i : ℕ} {t : State} {a : Action}

theorem kept_iff (hj : s.QueueableAt j) : s.Kept j ↔ 0 < s.places j := by
  obtain ⟨c, hc, hqueueable⟩ := hj
  have hcarries : s.carriesAt j = c.point.carries := by
    unfold carriesAt
    rw [hc]
    show (Queueable c.operation && c.point.carries) = _
    rw [hqueueable, Bool.true_and]
  unfold places
  rw [hcarries]
  constructor
  · rintro (h | h | ⟨call, hmem, hhand⟩ | ⟨call, hcall, hpoint⟩)
    · have := count_pos_iff.mpr h
      omega
    · have := count_pos_iff.mpr h
      omega
    · have hpos : 0 < s.calls.countP fun call => call.point.inHand = some j :=
        countP_pos_iff.mpr ⟨call, hmem, decide_eq_true hhand⟩
      omega
    · rw [hc, Option.some.injEq] at hcall
      rw [hcall, hpoint]
      simp only [Bool.toNat_true]
      omega
  · intro hpos
    by_contra hno
    obtain ⟨hwire, hrest⟩ := not_or.mp hno
    obtain ⟨hqueue, hrest⟩ := not_or.mp hrest
    obtain ⟨hhand, hown⟩ := not_or.mp hrest
    have hcount : (s.calls.countP fun call => call.point.inHand = some j) = 0 := by
      apply countP_eq_zero.mpr
      intro call hmem hcall
      exact hhand ⟨call, hmem, of_decide_eq_true hcall⟩
    have hnot : c.point.carries = false := by
      cases hp : c.point.carries with
      | false => rfl
      | true => exact absurd ⟨c, hc, hp⟩ hown
    rw [count_eq_zero.mpr hqueue, count_eq_zero.mpr hwire, hcount, hnot] at hpos
    exact absurd hpos (by decide)

/-- What the call `i` counts for the places of a signal. -/
def Call.share (call : Call) (i j : ℕ) : ℕ :=
  (decide (j = i) && call.carries).toNat + (decide (call.point.inHand = some j)).toNat

variable {call : Call}

theorem places_goto (point : Point) (j : ℕ) (hcall : s.calls[i]? = some call) :
    (s.goto i call point).places j + call.share i j =
      s.places j + Call.share { call with point } i j := by
  have hcount := countP_set (p := fun call => decide (call.point.inHand = some j))
    (b := { call with point }) hcall
  have hcarries : (s.goto i call point).carriesAt j =
      if j = i then Call.carries { call with point } else s.carriesAt j := by
    unfold carriesAt
    rw [getElem?_goto point hcall]
    by_cases hj : j = i
    · rw [if_pos hj, if_pos hj]
    · rw [if_neg hj, if_neg hj]
  unfold places Call.share
  rw [hcarries]
  show _ + s.queue.count j + s.wire.count j + (s.calls.set i _).countP _ + _ = _
  by_cases hj : j = i
  · have hbefore : s.carriesAt j = call.carries := by
      unfold carriesAt
      rw [hj, hcall]
    rw [if_pos hj, hbefore, decide_eq_true hj, Bool.true_and, Bool.true_and]
    omega
  · rw [if_neg hj, decide_eq_false hj, Bool.false_and, Bool.false_and]
    omega

/-- The turn of the call `i` loses the signal. -/
def Call.loses (call : Call) (i j : ℕ) : Action → Bool
  | .written k result =>
    k = i ∧ (call.point.inHand = some j ∧ result ≠ .ok ∨
      call.point = .sending ∧ j = i ∧ result = .wsError)
  | _ => false

variable {point : Point}

/-- Who has no signal in hand and is not at the direct write loses none. -/
theorem Call.not_loses (hhand : call.point.inHand = none) (hpoint : call.point ≠ .sending) :
    call.loses i j a = false := by
  unfold Call.loses
  split
  · apply decide_eq_false
    rintro ⟨-, ⟨hhas, -⟩ | ⟨hsending, -⟩⟩
    · rw [hhand] at hhas
      cases hhas
    · exact hpoint hsending
  · rfl

/-- Nothing is lost by a write that succeeds. -/
theorem Call.not_loses_ok (call : Call) (k : ℕ) : call.loses i j (.written k .ok) = false := by
  apply decide_eq_false
  rintro ⟨-, ⟨-, hne⟩ | ⟨-, -, hws⟩⟩
  · exact hne rfl
  · cases hws

theorem count_concat_toNat (l : List ℕ) (k j : ℕ) :
    (l ++ [k]).count j = l.count j + (decide (j = k)).toNat := by
  rw [count_append, count_singleton]
  by_cases hjk : j = k
  · rw [hjk, if_pos (beq_self_eq_true k), decide_eq_true rfl]
    rfl
  · rw [if_neg (by simpa using Ne.symm hjk), decide_eq_false hjk]
    rfl

/-- A turn moves a signal from one place to another, or loses it. -/
theorem places_turn (hcall : s.calls[i]? = some call) (h : Turn s i call a t point)
    (hj : j = i → Queueable call.operation = true) :
    (t.goto i call point).places j + (call.loses i j a).toNat = s.places j := by
  obtain ⟨hcalls, -, -⟩ := h.frame
  have hgoto := places_goto point j (s := t) (by rw [hcalls, hcall])
  have hbase : t.places j + s.queue.count j + s.wire.count j =
      s.places j + t.queue.count j + t.wire.count j := by
    unfold places carriesAt
    rw [hcalls]
    omega
  have hown : (decide (j = i) && Queueable call.operation) = decide (j = i) := by
    by_cases hji : j = i
    · rw [hj hji, Bool.and_true]
    · rw [decide_eq_false hji, Bool.false_and]
  unfold Call.share Call.carries at hgoto
  simp only [← Bool.and_assoc, hown] at hgoto
  cases h.effect with
  | quiet hqueue hwire hcarries hbefore hafter hresult =>
    have hkeeps : call.loses i j a = false := by
      unfold Call.loses
      split
      · next k result =>
        apply decide_eq_false
        rintro ⟨rfl, ⟨hhand, -⟩ | ⟨hpoint, -, rfl⟩⟩
        · rw [hbefore] at hhand
          cases hhand
        · exact hresult hpoint rfl
      · rfl
    have hsame : (decide (j = i) && call.point.carries) = (decide (j = i) && point.carries) := by
      by_cases hji : j = i
      · rw [hcarries (hj hji)]
      · rw [decide_eq_false hji, Bool.false_and, Bool.false_and]
    rw [hqueue, hwire] at hbase
    rw [hbefore, hafter, hsame] at hgoto
    rw [hkeeps, Bool.toNat_false]
    omega
  | push hqueue hwire hbefore hafter =>
    have hhad : call.point.carries = true ∧ call.point.inHand = none ∧
        call.point ≠ .sending := by
      rcases hbefore with hbefore | hbefore <;> rw [hbefore] <;> exact ⟨rfl, rfl, nofun⟩
    have hhas : point.carries = false ∧ point.inHand = none := by
      rcases hafter with rfl | rfl <;> exact ⟨rfl, rfl⟩
    rw [hqueue, hwire, count_concat_toNat] at hbase
    rw [hhad.1, hhad.2.1, hhas.1, hhas.2, Bool.and_true, Bool.and_false, Bool.toNat_false] at hgoto
    rw [Call.not_loses hhad.2.1 hhad.2.2, Bool.toNat_false]
    omega
  | take signal hqueue hwire hbefore hafter =>
    subst hafter
    rw [Call.not_loses (by rw [hbefore]; rfl) (by rw [hbefore]; exact nofun), Bool.toNat_false]
    rw [hqueue, hwire, count_cons] at hbase
    rw [hbefore] at hgoto
    by_cases hsig : signal = j
    · subst hsig
      rw [if_pos (beq_self_eq_true signal)] at hbase
      simp only [Point.carries, Point.inHand, decide_true, Bool.toNat_true, reduceCtorEq,
        decide_false, Bool.toNat_false] at hgoto
      omega
    · rw [if_neg (by simpa using hsig)] at hbase
      simp only [Point.carries, Point.inHand, Option.some.injEq, hsig, reduceCtorEq, decide_false,
        Bool.toNat_false] at hgoto
      omega
  | flushOk signal hqueue hwire hbefore hafter hresult =>
    subst hafter hresult
    rw [Call.not_loses_ok, Bool.toNat_false]
    rw [hqueue, hwire, count_concat_toNat,
      show decide (j = signal) = decide (signal = j) from decide_eq_decide.mpr eq_comm] at hbase
    rw [hbefore] at hgoto
    simp only [Point.carries, Point.inHand, Option.some.injEq, reduceCtorEq, decide_false,
      Bool.toNat_false] at hgoto
    omega
  | flushLost signal result hqueue hwire hbefore hafter hresult hbad =>
    subst hafter
    have hloses : call.loses i j a = decide (signal = j) := by
      subst hresult
      unfold Call.loses
      rw [hbefore]
      simp [Point.inHand, hbad]
    rw [hqueue, hwire] at hbase
    rw [hbefore] at hgoto
    rw [hloses]
    simp only [Point.carries, Point.inHand, Option.some.injEq, reduceCtorEq, decide_false,
      Bool.toNat_false] at hgoto
    omega
  | sendOk hqueue hwire hbefore hafter hresult =>
    subst hafter hresult
    rw [Call.not_loses_ok, Bool.toNat_false]
    rw [hqueue, hwire, count_concat_toNat] at hbase
    rw [hbefore] at hgoto
    simp only [Point.carries, Point.inHand, Bool.and_true, Bool.and_false, reduceCtorEq,
      decide_false, Bool.toNat_false] at hgoto
    omega
  | sendLost hqueue hwire hbefore hafter hresult =>
    subst hafter
    have hloses : call.loses i j a = decide (j = i) := by
      subst hresult
      unfold Call.loses
      rw [hbefore]
      simp [Point.inHand]
    rw [hqueue, hwire] at hbase
    rw [hbefore] at hgoto
    rw [hloses]
    simp only [Point.carries, Point.inHand, Bool.and_true, Bool.and_false, reduceCtorEq,
      decide_false, Bool.toNat_false] at hgoto
    omega

/-! ## Runs -/

/-- A queueable signal is at one place at most, one that was not handed over yet is nowhere. -/
structure Accounted (s : State) : Prop where
  once : ∀ j, s.QueueableAt j → s.places j ≤ 1
  fresh : ∀ j, s.calls.length ≤ j → s.places j = 0

theorem accounted_connected : Accounted State.connected where
  once := fun j ⟨_, hcall, _⟩ => by cases hcall
  fresh := fun _ _ => rfl

/-- A call that starts has its signal. -/
theorem places_call (s : State) (operation : Operation) (j : ℕ) :
    ({ s with calls := s.calls ++ [⟨operation, .start⟩] } : State).places j =
      s.places j + if j = s.calls.length then (Queueable operation).toNat else 0 := by
  have hhand : (s.calls ++ [(⟨operation, .start⟩ : Call)]).countP
      (fun call => decide (call.point.inHand = some j)) =
      s.calls.countP fun call => decide (call.point.inHand = some j) := by
    rw [countP_append, countP_singleton]
    rfl
  unfold places carriesAt
  show (match (s.calls ++ [(⟨operation, .start⟩ : Call)])[j]? with
    | some call => call.carries | none => false).toNat + s.queue.count j + s.wire.count j + _ = _
  rw [hhand, Components.getElem?_concat]
  by_cases hj : j = s.calls.length
  · have hnone : s.calls[s.calls.length]? = none := getElem?_eq_none (Nat.le_refl _)
    rw [if_pos hj, if_pos hj, hj, hnone]
    show (Queueable operation && true).toNat + _ + _ + _ = Bool.toNat false + _ + _ + _ + _
    rw [Bool.and_true, Bool.toNat_false]
    omega
  · rw [if_neg hj, if_neg hj]
    rfl

/-- What a call hands over after a turn it handed over before. -/
theorem QueueableAt.of_goto (hturn : Turn s i call a t point) (hcall : s.calls[i]? = some call)
    (h : (t.goto i call point).QueueableAt j) :
    s.QueueableAt j ∧ (j = i → Queueable call.operation = true) := by
  obtain ⟨c, hc, hqueueable⟩ := h
  rcases hturn.of_getElem? hcall hc with ⟨rfl, rfl⟩ | ⟨hj, hc⟩
  · exact ⟨⟨call, hcall, hqueueable⟩, fun _ => hqueueable⟩
  · exact ⟨⟨c, hc, hqueueable⟩, fun h => absurd h hj⟩

theorem Accounted.step {s' : State} (h : Accounted s) (hstep : s.step a = some s') :
    Accounted s' := by
  rcases step_cases hstep with ⟨operation, -, -, rfl⟩ | ⟨i, call, t, point, hcall, hturn, rfl⟩ |
    ⟨-, rfl⟩
  · constructor
    · rintro j ⟨c, hc, hqueueable⟩
      rw [places_call]
      rcases Components.of_getElem?_concat hc with ⟨rfl, -⟩ | hc
      · rw [if_pos rfl, h.fresh _ (Nat.le_refl _)]
        cases Queueable operation <;> decide
      · rw [if_neg (Components.ne_length hc)]
        exact h.once j ⟨c, hc, hqueueable⟩
    · intro j hj
      change (s.calls ++ [_]).length ≤ j at hj
      rw [length_append, length_singleton] at hj
      rw [places_call, if_neg (by omega), h.fresh j (by omega)]
  · obtain ⟨hcalls, -, -⟩ := hturn.frame
    have hlt : i < s.calls.length := (List.getElem?_eq_some_iff.mp hcall).1
    constructor
    · intro j hj
      obtain ⟨hbefore, hown⟩ := QueueableAt.of_goto hturn hcall hj
      have hturn' := places_turn hcall hturn hown
      have honce := h.once j hbefore
      omega
    · intro j hj
      change (t.calls.set i _).length ≤ j at hj
      rw [length_set, hcalls] at hj
      have hturn' := places_turn (j := j) hcall hturn (fun hji => by omega)
      have hfresh := h.fresh j hj
      omega
  · exact ⟨h.once, h.fresh⟩

/-- The answer of the write task is for the call that goes on. -/
theorem Turn.index {k : ℕ} {result : SendResult} (h : Turn s i call (.written k result) t point) :
    k = i := by
  cases h <;> rfl

/-- Where no write fails, no signal is lost. -/
theorem not_loses (hcall : s.calls[i]? = some call) (hturn : Turn s i call a t point)
    (hok : NoWriteFails s a (t.goto i call point)) (hj : j = i → Queueable call.operation = true) :
    call.loses i j a = false := by
  unfold Call.loses
  split
  · next k result =>
    apply decide_eq_false
    rintro ⟨rfl, ⟨hhand, hbad⟩ | ⟨hpoint, hji, hws⟩⟩
    · obtain ⟨hflush, -⟩ := hok k result call rfl hcall
      cases hpoint : call.point with
      | flushSend signal => exact hbad (hflush signal hpoint)
      | _ =>
        rw [hpoint] at hhand
        cases hhand
    · exact (hok k result call rfl hcall).2 hpoint (hj hji) hws
  · rfl

/-- In exactly the runs in which no write of a flush fails and no direct write of a queueable
signal meets a websocket error, no queueable signal is lost. -/
theorem none_lost_iff (run : List Action) :
    Throughout State.step State.NoneLost State.connected run ↔
      EachStep State.step NoWriteFails State.connected run := by
  apply throughout_iff_eachStep (I := fun s => Queued s ∧ Accounted s ∧ s.NoneLost)
  · exact fun s h => h.2.2
  · rintro s a s' ⟨hq, hacc, hkept⟩ hstep
    have hq' := hq.step hstep
    have hacc' := hacc.step hstep
    rcases step_cases hstep with ⟨operation, rfl, -, rfl⟩ |
      ⟨i, call, t, point, hcall, hturn, rfl⟩ | ⟨rfl, rfl⟩
    · refine .inl ⟨fun _ _ _ heq _ => Action.noConfusion heq, hq', hacc', ?_⟩
      rintro j ⟨c, hc, hqueueable⟩
      refine (kept_iff ⟨c, hc, hqueueable⟩).mpr ?_
      rw [places_call]
      rcases Components.of_getElem?_concat hc with ⟨rfl, rfl⟩ | hc
      · rw [if_pos rfl, show Queueable operation = true from hqueueable]
        exact Nat.succ_pos _
      · rw [if_neg (Components.ne_length hc)]
        exact (kept_iff ⟨c, hc, hqueueable⟩).mp (hkept j ⟨c, hc, hqueueable⟩)
    · by_cases hok : NoWriteFails s a (t.goto i call point)
      · refine .inl ⟨hok, hq', hacc', ?_⟩
        intro j hj
        obtain ⟨hj₀, hown⟩ := QueueableAt.of_goto hturn hcall hj
        have hturn' := places_turn hcall hturn hown
        rw [not_loses hcall hturn hok hown, Bool.toNat_false] at hturn'
        have hpos := (kept_iff hj₀).mp (hkept j hj₀)
        exact (kept_iff hj).mpr (by omega)
      · refine .inr ⟨hok, ?_⟩
        intro hnone
        apply hok
        intro k result c heq hc
        subst heq
        -- a signal that is lost was at one place and is at none
        have hlost : ∀ j, s.QueueableAt j → (j = i → Queueable call.operation = true) →
            call.loses i j (.written k result) = false := by
          intro j hj hown
          cases hl : call.loses i j (.written k result) with
          | false => rfl
          | true =>
            have hturn' := places_turn hcall hturn hown
            have hj' := QueueableAt.step hstep hj
            have hpos := (kept_iff hj').mp (hnone j hj')
            have honce := hacc.once j hj
            rw [hl, Bool.toNat_true] at hturn'
            omega
        have hki : k = i := hturn.index
        subst hki
        cases hcall.symm.trans hc
        constructor
        · intro signal hpoint
          by_contra hbad
          have hhand : call.point.inHand = some signal := by rw [hpoint]; rfl
          have hsignal := hq.inHand k call signal hcall hhand
          have hno := hlost signal hsignal fun hself => by
            obtain ⟨c, hc, hqueueable⟩ := hsignal
            rw [hself, hcall, Option.some.injEq] at hc
            rw [hc]
            exact hqueueable
          exact of_decide_eq_false hno ⟨rfl, .inl ⟨hhand, hbad⟩⟩
        · intro hpoint hqueueable hws
          have hno := hlost k ⟨call, hcall, hqueueable⟩ fun _ => hqueueable
          exact of_decide_eq_false hno ⟨rfl, .inr ⟨hpoint, rfl, hws⟩⟩
    · exact .inl ⟨fun _ _ _ heq _ => Action.noConfusion heq, hq', hacc', fun j hj => hkept j hj⟩
  · exact ⟨queued_connected, accounted_connected, fun j ⟨_, hcall, _⟩ => by cases hcall⟩

/-- A signal that meets a websocket error. -/
def lossRun : List Action :=
  [.call (.send 0 .mute), .proceed 0, .proceed 0, .proceed 0, .proceed 0, .proceed 0,
    .written 0 .wsError]

/-- It is neither on the wire nor in the queue, and nobody has it. -/
theorem signal_is_lost : ¬ Throughout State.step State.NoneLost State.connected lossRun := by
  intro h
  have hkept := h lossRun [] _ rfl rfl 0 ⟨_, rfl, rfl⟩
  rcases hkept with h | h | ⟨call, hmem, hhand⟩ | ⟨call, hcall, hcarries⟩
  · cases h
  · cases h
  · cases mem_singleton.mp hmem
    cases hhand
  · cases hcall
    cases hcarries

end LiveKit.SignalClient
