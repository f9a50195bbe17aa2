import LiveKit.SignalClient.NoLoss

/-!
# Queueable signals keep their order

The wire, what a flush has in hand, and the queue make one line. A signal joins it at its end,
and a flush moves the line on, so the signals of one caller stand in it in the order in which
they were issued, unless `send` writes past the ones that still wait.
-/

namespace LiveKit.SignalClient

open List State TransitionSystem

/-- The call that hands over a queueable signal is one of this caller's. -/
def Operation.QueueableOf (caller : ℕ) : Operation → Prop
  | .send c signal => c = caller ∧ isPassThrough signal = false
  | _ => False

/-- Two queueable signals that one caller has issued in this order. -/
def State.Earlier (s : State) (i j : ℕ) : Prop :=
  i < j ∧ ∃ caller ci cj, s.calls[i]? = some ci ∧ s.calls[j]? = some cj ∧
    ci.operation.QueueableOf caller ∧ cj.operation.QueueableOf caller

/-- The signal waits in the queue, or in the hands of a flush. -/
def State.Pending (s : State) (i : ℕ) : Prop :=
  i ∈ s.queue ∨ ∃ call ∈ s.calls, call.point.inHand = some i

/-- Signals of one caller are on the wire in the order in which they were issued, and none is
there while an earlier one still waits. -/
def State.InOrder (s : State) : Prop :=
  ∀ i j, s.Earlier i j → ¬ [j, i].Sublist s.wire ∧ (j ∈ s.wire → ¬ s.Pending i)

/-- The step is no direct write past an earlier signal of the caller that still waits. -/
def NotPastEarlier (s : State) (a : Action) (_ : State) : Prop :=
  ∀ j call, a = .written j .ok → s.calls[j]? = some call → call.point = .sending →
    ∀ i, s.Earlier i j → ¬ s.Pending i

/-! ## The line -/

/-- What flushes have in hand. -/
def State.hands (s : State) : List ℕ := s.calls.filterMap fun call => call.point.inHand

/-- The signals on the wire and behind it. -/
def State.line (s : State) : List ℕ := s.wire ++ (s.hands ++ s.queue)

/-- The line is in the order of each caller, who makes one call of `send` after the other. -/
structure Lined (s : State) : Prop where
  sequential : ∀ i j, s.Earlier i j → ∃ call, s.calls[i]? = some call ∧ call.point = .done
  pairwise : s.line.Pairwise fun a b => ¬ s.Earlier b a

variable {i : ℕ} {s : State}

theorem mem_hands : i ∈ s.hands ↔ ∃ call ∈ s.calls, call.point.inHand = some i := by
  unfold hands
  rw [mem_filterMap]

theorem pending_iff : s.Pending i ↔ i ∈ s.hands ++ s.queue := by
  rw [mem_append, mem_hands, Pending, or_comm]

/-- The order of the line is the order the wire is to be in. -/
theorem inOrder_of_lined (h : Lined s) : s.InOrder := by
  intro i j hearlier
  obtain ⟨hwire, -, hbetween⟩ := pairwise_append.mp h.pairwise
  constructor
  · intro hsub
    have hpair := hwire.sublist hsub
    exact (pairwise_cons.mp hpair).1 i mem_cons_self hearlier
  · intro hj hpending
    exact hbetween j hj i (pending_iff.mp hpending) hearlier

theorem lined_connected : Lined State.connected where
  sequential := by
    rintro i j ⟨-, _, _, _, hcall, -⟩
    cases hcall
  pairwise := List.Pairwise.nil

/-! ## What a step does to the line -/

variable {β γ : Type} {f : β → Option γ} {l : List β} {b : β} {operation : Operation}

/-- The others' part of a list of results stays when one entry is replaced by one with the same. -/
theorem filterMap_set_of_eq {c : β} (h : l[i]? = some b) (heq : f c = f b) :
    (l.set i c).filterMap f = l.filterMap f := by
  induction l generalizing i with
  | nil => cases h
  | cons d l ih =>
    cases i with
    | zero =>
      rw [getElem?_cons_zero, Option.some.injEq] at h
      rw [set_cons_zero, filterMap_cons, filterMap_cons, heq, h]
    | succ i =>
      rw [getElem?_cons_succ] at h
      rw [set_cons_succ, filterMap_cons, filterMap_cons, ih h]

/-- Only the entry at `i` has a result. -/
theorem filterMap_eq_toList (h : l[i]? = some b)
    (honly : ∀ k c, l[k]? = some c → k ≠ i → f c = none) :
    l.filterMap f = (f b).toList := by
  induction l generalizing i with
  | nil => cases h
  | cons d l ih =>
    cases i with
    | zero =>
      rw [getElem?_cons_zero, Option.some.injEq] at h
      have hrest : l.filterMap f = [] := by
        apply filterMap_eq_nil_iff.mpr
        intro c hc
        obtain ⟨k, hk⟩ := mem_iff_getElem?.mp hc
        exact honly (k + 1) c hk (Nat.succ_ne_zero k)
      rw [filterMap_cons, hrest, h]
      cases f b <;> rfl
    | succ i =>
      rw [getElem?_cons_succ] at h
      have hfirst : f d = none := honly 0 d rfl (Nat.succ_ne_zero i).symm
      rw [filterMap_cons, hfirst]
      exact ih h fun k c hk hne => honly (k + 1) c hk fun heq => hne (Nat.succ.inj heq)

/-- While one flush has the queue, no other has a signal in hand. -/
theorem hands_eq (hl : Locked s) {call : Call} (hcall : s.calls[i]? = some call)
    (hhas : call.point.hasQueue = true) (hask : call.point.queueRequest = some .exclusive) :
    s.hands = call.point.inHand.toList := by
  apply filterMap_eq_toList hcall
  intro k c hc hne
  cases hhand : c.point.inHand with
  | none => rfl
  | some signal =>
    have hpoint : c.point = .flushSend signal := by
      cases hp : c.point <;> rw [hp] at hhand <;> cases hhand
      rfl
    have hmode : s.queueLock.modeOf i = some .exclusive := by
      rw [hl.queue, hcall, Option.bind_some, hask]
    have hmode' : s.queueLock.modeOf k = some .exclusive := by
      rw [hl.queue, hc, Option.bind_some, hpoint]
      rfl
    have hconf := FifoLock.not_conflicts_of_holds (Ne.symm hne)
      (hl.hasQueue i call hcall hhas) (hl.hasQueue k c hc (by rw [hpoint]; rfl)) hmode hmode'
    cases hconf

variable {t : State}

/-- Signals are issued once and for all. -/
theorem earlier_goto {j k : ℕ} {call : Call} (point : Point) (hcalls : t.calls = s.calls)
    (hcall : s.calls[i]? = some call) : (t.goto i call point).Earlier j k ↔ s.Earlier j k := by
  have hsame : ∀ (l : ℕ) caller, (∃ c, (t.goto i call point).calls[l]? = some c ∧
      c.operation.QueueableOf caller) ↔
        ∃ c, s.calls[l]? = some c ∧ c.operation.QueueableOf caller := by
    intro l caller
    rw [getElem?_goto point (by rw [hcalls, hcall]), hcalls]
    by_cases hl : l = i
    · rw [if_pos hl, hl, hcall]
      constructor
      · rintro ⟨c, hc, hop⟩
        rw [Option.some.injEq] at hc
        subst hc
        exact ⟨call, rfl, hop⟩
      · rintro ⟨c, hc, hop⟩
        rw [Option.some.injEq] at hc
        subst hc
        exact ⟨_, rfl, hop⟩
    · rw [if_neg hl]
  constructor
  · rintro ⟨hlt, caller, ci, cj, hi, hj, hqi, hqj⟩
    obtain ⟨di, hdi, hqdi⟩ := (hsame j caller).mp ⟨ci, hi, hqi⟩
    obtain ⟨dj, hdj, hqdj⟩ := (hsame k caller).mp ⟨cj, hj, hqj⟩
    exact ⟨hlt, caller, di, dj, hdi, hdj, hqdi, hqdj⟩
  · rintro ⟨hlt, caller, ci, cj, hi, hj, hqi, hqj⟩
    obtain ⟨di, hdi, hqdi⟩ := (hsame j caller).mpr ⟨ci, hi, hqi⟩
    obtain ⟨dj, hdj, hqdj⟩ := (hsame k caller).mpr ⟨cj, hj, hqj⟩
    exact ⟨hlt, caller, di, dj, hdi, hdj, hqdi, hqdj⟩

variable {a : Action} {point : Point}

/-- A call that goes on has not returned. -/
theorem Turn.not_done {call : Call} (h : Turn s i call a t point) : call.point ≠ .done := by
  cases h <;> simp_all

/-- A call that goes on hands over the last signal of its caller. -/
theorem Lined.not_earlier {call : Call} (h : Lined s) (hcall : s.calls[i]? = some call)
    (hturn : Turn s i call a t point) (j : ℕ) : ¬ s.Earlier i j := by
  intro hearlier
  obtain ⟨c, hc, hdone⟩ := h.sequential i j hearlier
  rw [hcall, Option.some.injEq] at hc
  rw [← hc] at hdone
  exact hturn.not_done hdone

theorem hands_goto {call : Call} (point : Point) (hcalls : t.calls = s.calls)
    (hcall : s.calls[i]? = some call) (hhand : point.inHand = call.point.inHand) :
    (t.goto i call point).hands = s.hands := by
  unfold hands
  show (t.calls.set i _).filterMap _ = _
  rw [hcalls]
  exact filterMap_set_of_eq hcall hhand

/-- What a turn makes of the line: it stays, loses a signal, or gets one at its end, or else `send`
writes past what waits. -/
theorem line_turn {call : Call} (hl : Locked s) (hcall : s.calls[i]? = some call)
    (hturn : Turn s i call a t point) :
    (t.goto i call point).line.Sublist (s.line ++ [i]) ∨
      a = .written i .ok ∧ call.point = .sending ∧
        (t.goto i call point).line = s.wire ++ ([i] ++ (s.hands ++ s.queue)) := by
  obtain ⟨hcalls, -, -⟩ := hturn.frame
  have hcall' : t.calls[i]? = some call := by rw [hcalls, hcall]
  have hlock' := hl.goto hcall hturn
  have hnew : (t.goto i call point).calls[i]? = some { call with point } := by
    rw [getElem?_goto point hcall', if_pos rfl]
  unfold line
  show (t.wire ++ (_ ++ t.queue)).Sublist _ ∨ _ ∧ _ ∧ t.wire ++ (_ ++ t.queue) = _
  cases hturn.effect with
  | quiet hqueue hwire _ hbefore hafter _ =>
    have hhands := hands_goto point hcalls hcall (hafter.trans hbefore.symm)
    rw [hhands, hqueue, hwire]
    exact .inl (sublist_append_left _ _)
  | push hqueue hwire hbefore hafter =>
    have hnone : point.inHand = call.point.inHand := by
      rcases hbefore with hbefore | hbefore <;> rcases hafter with hafter | hafter <;>
        rw [hbefore, hafter] <;> rfl
    rw [hands_goto point hcalls hcall hnone, hqueue, hwire]
    refine .inl ?_
    rw [append_assoc, append_assoc]
  | take signal hqueue hwire hbefore hafter =>
    subst hafter
    have hbeforeHands := hands_eq hl hcall (by rw [hbefore]; rfl) (by rw [hbefore]; rfl)
    have hafterHands := hands_eq hlock' hnew rfl rfl
    rw [hafterHands, hbeforeHands, hbefore, hwire, hqueue]
    exact .inl (sublist_append_left _ _)
  | flushOk signal hqueue hwire hbefore hafter hresult =>
    subst hafter
    have hbeforeHands := hands_eq hl hcall (by rw [hbefore]; rfl) (by rw [hbefore]; rfl)
    have hafterHands := hands_eq hlock' hnew rfl rfl
    rw [hafterHands, hbeforeHands, hbefore, hwire, hqueue]
    refine .inl ?_
    rw [append_assoc]
    exact sublist_append_left _ _
  | flushLost signal result hqueue hwire hbefore hafter hresult hbad =>
    subst hafter
    have hbeforeHands := hands_eq hl hcall (by rw [hbefore]; rfl) (by rw [hbefore]; rfl)
    have hafterHands := hands_eq hlock' hnew rfl rfl
    rw [hafterHands, hbeforeHands, hbefore, hwire, hqueue]
    refine .inl (List.Sublist.trans ?_ (sublist_append_left _ _))
    exact List.Sublist.append (List.Sublist.refl _) (sublist_append_right _ _)
  | sendOk hqueue hwire hbefore hafter hresult =>
    have hnone : point.inHand = call.point.inHand := by rw [hbefore, hafter]; rfl
    refine .inr ⟨hresult, hbefore, ?_⟩
    rw [hands_goto point hcalls hcall hnone, hqueue, hwire, append_assoc]
  | sendLost hqueue hwire hbefore hafter hresult =>
    have hnone : point.inHand = call.point.inHand := by rw [hbefore, hafter]; rfl
    rw [hands_goto point hcalls hcall hnone, hqueue, hwire]
    exact .inl (sublist_append_left _ _)

/-- A signal that was not handed over yet is not in the line. -/
theorem not_mem_line (hacc : Accounted s) : s.calls.length ∉ s.line := by
  have hzero := hacc.fresh s.calls.length (Nat.le_refl _)
  unfold places at hzero
  unfold line
  rw [mem_append, mem_append, mem_hands]
  rintro (h | ⟨call, hmem, hhand⟩ | h)
  · have := count_pos_iff.mpr h
    omega
  · have hpos : 0 < s.calls.countP fun call => call.point.inHand = some s.calls.length :=
      countP_pos_iff.mpr ⟨call, hmem, decide_eq_true hhand⟩
    omega
  · have := count_pos_iff.mpr h
    omega

/-- Who may call `send` has no call of it that has not returned. -/
theorem done_of_mayCall {caller : ℕ} {call : Call} (hmay : s.mayCall operation = true)
    (hop : operation.QueueableOf caller) (hmem : call ∈ s.calls)
    (hcall : call.operation.QueueableOf caller) : call.point = .done := by
  cases operation with
  | send c signal =>
    obtain ⟨rfl, -⟩ := hop
    cases hop' : call.operation with
    | send c' signal' =>
      rw [hop'] at hcall
      obtain ⟨rfl, -⟩ := hcall
      by_contra hnot
      have hsends : Sends c' call = true := by
        unfold Sends
        rw [hop']
        exact decide_eq_true ⟨rfl, hnot⟩
      have hany : s.calls.any (Sends c') = true := any_eq_true.mpr ⟨call, hmem, hsends⟩
      rw [mayCall, hany] at hmay
      cases hmay
    | _ =>
      rw [hop'] at hcall
      cases hcall
  | _ => cases hop

/-- A caller makes a call of `send` when the one before has returned. -/
theorem Lined.call (h : Lined s) (hacc : Accounted s) (hmay : s.mayCall operation = true) :
    Lined { s with calls := s.calls ++ [⟨operation, .start⟩] } := by
  have hold : ∀ i j, j ≠ s.calls.length →
      State.Earlier { s with calls := s.calls ++ [⟨operation, .start⟩] } i j → s.Earlier i j := by
    rintro i j hj ⟨hlt, caller, ci, cj, hi, hcj, hqi, hqj⟩
    rw [Components.getElem?_concat, if_neg hj] at hcj
    have hjlt : j < s.calls.length := (List.getElem?_eq_some_iff.mp hcj).1
    rw [Components.getElem?_concat, if_neg (by omega)] at hi
    exact ⟨hlt, caller, ci, cj, hi, hcj, hqi, hqj⟩
  constructor
  · intro i j hearlier
    by_cases hj : j = s.calls.length
    · obtain ⟨hlt, caller, ci, cj, hi, hcj, hqi, hqj⟩ := hearlier
      rw [Components.getElem?_concat, if_pos hj, Option.some.injEq] at hcj
      rw [Components.getElem?_concat, if_neg (by omega)] at hi
      subst hcj
      refine ⟨ci, ?_, done_of_mayCall hmay hqj (mem_of_getElem? hi) hqi⟩
      rw [Components.getElem?_concat, if_neg (by omega), hi]
    · obtain ⟨c, hc, hdone⟩ := h.sequential i j (hold i j hj hearlier)
      refine ⟨c, ?_, hdone⟩
      rw [Components.getElem?_concat, if_neg (Components.ne_length hc), hc]
  · have hline : State.line { s with calls := s.calls ++ [⟨operation, .start⟩] } = s.line := by
      unfold line hands
      rw [filterMap_append]
      show s.wire ++ ((s.calls.filterMap _ ++ []) ++ s.queue) = _
      rw [append_nil]
    rw [hline]
    refine h.pairwise.imp_of_mem ?_
    intro a b ha _ hnot hearlier
    have hne : a ≠ s.calls.length := by
      rintro rfl
      exact not_mem_line hacc ha
    exact hnot (hold b a hne hearlier)

/-- A direct write puts the signal on the wire. -/
theorem Turn.of_direct {call : Call} (h : Turn s i call (.written i .ok) t point)
    (hpoint : call.point = .sending) :
    t = { s with wire := s.wire ++ [i] } ∧ point = .unlockRead := by
  cases h
  case sendOk _ => exact ⟨rfl, rfl⟩
  case flushOk hflush =>
    rw [hpoint] at hflush
    cases hflush
  case flushError _ hbad => exact absurd rfl hbad
  case sendLost _ hbad _ => exact absurd rfl hbad

/-- The line stays in order, unless `send` writes past an earlier signal. -/
theorem Lined.turn {call : Call} (h : Lined s) (hl : Locked s) (hcall : s.calls[i]? = some call)
    (hturn : Turn s i call a t point) (hok : NotPastEarlier s a (t.goto i call point)) :
    Lined (t.goto i call point) := by
  obtain ⟨hcalls, -, -⟩ := hturn.frame
  have hcall' : t.calls[i]? = some call := by rw [hcalls, hcall]
  have hlast := h.not_earlier hcall hturn
  constructor
  · intro j k hearlier
    obtain ⟨c, hc, hdone⟩ := h.sequential j k ((earlier_goto point hcalls hcall).mp hearlier)
    refine ⟨c, ?_, hdone⟩
    rw [getElem?_goto point hcall', if_neg, hcalls, hc]
    rintro rfl
    rw [hcall, Option.some.injEq] at hc
    rw [← hc] at hdone
    exact hturn.not_done hdone
  · have hrel : (fun a b => ¬ (t.goto i call point).Earlier b a) = fun a b => ¬ s.Earlier b a := by
      funext a b
      rw [earlier_goto point hcalls hcall]
    rw [hrel]
    rcases line_turn hl hcall hturn with hsub | ⟨rfl, hpoint, hline⟩
    · refine List.Pairwise.sublist hsub ?_
      refine pairwise_append.mpr ⟨h.pairwise, pairwise_singleton _ _, ?_⟩
      intro j _ k hk
      rw [mem_singleton] at hk
      rw [hk]
      exact hlast j
    · rw [hline]
      obtain ⟨hwire, hrest, hbetween⟩ := pairwise_append.mp h.pairwise
      refine pairwise_append.mpr ⟨hwire, ?_, ?_⟩
      · refine pairwise_append.mpr ⟨pairwise_singleton _ _, hrest, ?_⟩
        intro j hj k hk hearlier
        rw [mem_singleton] at hj
        rw [hj] at hearlier
        exact hok i call rfl hcall hpoint k hearlier (pending_iff.mpr hk)
      · intro j hj k hk
        rcases mem_append.mp hk with hk | hk
        · rw [mem_singleton] at hk
          rw [hk]
          exact hlast j
        · exact hbetween j hj k hk

/-- In exactly the runs in which no `send` writes directly past an earlier signal of its caller
that still waits, the signals of each caller reach the wire in the order in which they were
issued, none while an earlier one waits. -/
theorem in_order_iff (run : List Action) :
    Throughout State.step State.InOrder State.connected run ↔
      EachStep State.step NotPastEarlier State.connected run := by
  apply throughout_iff_eachStep (I := fun s => Locked s ∧ Accounted s ∧ Lined s)
  · exact fun s h => inOrder_of_lined h.2.2
  · rintro s a s' ⟨hl, hacc, hline⟩ hstep
    have hl' := hl.step hstep
    have hacc' := hacc.step hstep
    rcases step_cases hstep with ⟨operation, rfl, hmay, rfl⟩ |
      ⟨i, call, t, point, hcall, hturn, rfl⟩ | ⟨rfl, rfl⟩
    · exact .inl ⟨fun _ _ heq _ => Action.noConfusion heq, hl', hacc', hline.call hacc hmay⟩
    · by_cases hok : NotPastEarlier s a (t.goto i call point)
      · exact .inl ⟨hok, hl', hacc', hline.turn hl hcall hturn hok⟩
      · refine .inr ⟨hok, ?_⟩
        intro horder
        apply hok
        rintro j c rfl hc hpoint k hearlier hpending
        have hji : j = i := hturn.index
        subst hji
        cases hcall.symm.trans hc
        obtain ⟨rfl, rfl⟩ := hturn.of_direct hpoint
        -- the signal is on the wire now, and the earlier one waits as before
        have hearlier' := (earlier_goto .unlockRead rfl hcall).mpr hearlier
        refine (horder k j hearlier').2 (mem_append_right _ mem_cons_self) ?_
        rw [pending_iff] at hpending ⊢
        have hhands := hands_goto (t := { s with wire := s.wire ++ [j] }) .unlockRead rfl hcall
          (by rw [hpoint]; rfl)
        rw [hhands]
        exact hpending
    · exact .inl ⟨fun _ _ heq _ => Action.noConfusion heq, hl', hacc', hline.sequential,
        hline.pairwise⟩
  · exact ⟨locked_connected, accounted_connected, lined_connected⟩

/-- A queued signal (call 1, while the first `restart` has failed to connect), then a `send` of the
same caller (call 2) whose flush finds no stream, then a second `restart` (call 3), then its
direct write. -/
def overtakeRun : List Action :=
  [.call .restart, .proceed 0, .proceed 0, .proceed 0, .closed 0,
    .call (.send 7 .mute), .proceed 1, .proceed 1, .proceed 1,
    .reconnected 0 false, .proceed 0, .proceed 0,
    .call (.send 7 .mute), .proceed 2, .proceed 2, .proceed 2, .proceed 2, .proceed 2,
    .call .restart, .proceed 3, .proceed 3, .proceed 3, .reconnected 3 true, .proceed 3,
    .proceed 2, .proceed 2, .written 2 .ok, .proceed 2,
    .call .setReconnected, .proceed 4, .proceed 4, .proceed 4, .proceed 4, .proceed 4,
    .written 4 .ok]

/-- The second signal of the caller is on the wire before the first. -/
theorem signal_overtakes :
    ∃ s, exec State.step State.connected overtakeRun = some s ∧ s.Earlier 1 2 ∧
      s.wire = [2, 1] := by
  refine ⟨_, rfl, ⟨by decide, 7, _, _, rfl, rfl, ⟨rfl, rfl⟩, ⟨rfl, rfl⟩⟩, rfl⟩

end LiveKit.SignalClient
