import LiveKit.Room.OptionTheorems

/-!
# The resampler

`SoxResampler` of `server/resampler.rs` hands slices to `soxr_process`, which counts in samples of a
channel while a slice counts all of them. Of slices the lengths are kept. A `usize` has 64 bits, a
vector has no more than 2^63 - 1 bytes.
-/

namespace LiveKit.Resampler

open BinaryFloat TransitionSystem
open LiveKit.Options (F64 f64)

/-! ## The calls -/

/-- A result of `usize` arithmetic. What does not fit panics where overflow is checked, and wraps
elsewhere. -/
def usize (overflowChecks : Bool) (n : ℕ) : Option ℕ :=
  if n < 2 ^ 64 then some n else if overflowChecks then none else some (n % 2 ^ 64)

structure SoxResampler where
  /-- The pointer is not null. -/
  soxrPtr : Bool
  /-- The length of the vector. -/
  outBuf : ℕ
  inputRate : F64
  outputRate : F64
  numChannels : UInt32

inductive Event where
  /-- `soxr_process` is called, with slices of so many samples. -/
  | process (soxrPtr : Bool) (input ilen output olen : ℕ)
  /-- So many samples of a vector of this length are returned. -/
  | returned (samples outBuf : ℕ)
  | failed
  | panicked

/-- The calls, and what `soxr` answers; an error is no answer. -/
inductive Action where
  | push (input : ℕ) (delay : F64) (odone : Option ℕ)
  | flush (odone : Option ℕ) (cleared : Bool)

namespace SoxResampler

/-- Whether `soxr_create` has made a resampler; there is no place where it could store its error. -/
def new (inputRate outputRate : F64) (numChannels : UInt32) (created : Bool) :
    Except String SoxResampler :=
  let error : Option String := none
  match error with
  | some message => .error message
  | none => .ok ⟨created, 0, inputRate, outputRate, numChannels⟩

/-- `(input_length as f64 * ratio).ceil() as usize` -/
def scaledLength (s : SoxResampler) (input : ℕ) : ℕ :=
  ((f64 (input / s.numChannels.toNat)).mul (s.outputRate.div s.inputRate)).ceilToNat (2 ^ 64 - 1)

/-- `input_length`, `max_out_len`, and the length of the vector that is made large enough for it. -/
def sizes (overflowChecks : Bool) (s : SoxResampler) (input : ℕ) (delay : F64) :
    Option (ℕ × ℕ × ℕ) := do
  guard (s.numChannels ≠ 0)
  let sum ← usize overflowChecks (s.scaledLength input + delay.ceilToNat (2 ^ 64 - 1))
  let maxOutLen ← usize overflowChecks (sum + 1)
  let required ← usize overflowChecks (maxOutLen * s.numChannels.toNat)
  guard (required ≤ s.outBuf ∨ required < 2 ^ 62)
  return (input / s.numChannels.toNat, maxOutLen, max s.outBuf required)

/-- The slice that is returned, if it is one of the vector. -/
def output (overflowChecks : Bool) (s : SoxResampler) (odone : ℕ) : Event :=
  match usize overflowChecks (odone * s.numChannels.toNat) with
  | some samples => if samples ≤ s.outBuf then .returned samples s.outBuf else .panicked
  | none => .panicked

/-- A step and the events of it; an answer of more samples than were asked for is none. -/
def turn (overflowChecks : Bool) (s : SoxResampler) : Action → Option (SoxResampler × List Event)
  | .push input delay odone =>
    match s.sizes overflowChecks input delay with
    | none => some (s, [.panicked])
    | some (inputLength, maxOutLen, outBuf) =>
      let s' := { s with outBuf }
      let process := Event.process s.soxrPtr input inputLength outBuf maxOutLen
      match odone with
      | none => some (s', [process, .failed])
      | some odone =>
        if odone ≤ maxOutLen then some (s', [process, s'.output overflowChecks odone]) else none
  | .flush odone cleared =>
    let process := Event.process s.soxrPtr 0 0 s.outBuf s.outBuf
    match odone with
    | none => some (s, [process, .failed])
    | some odone =>
      if odone ≤ s.outBuf then
        if cleared then some (s, [process, s.output overflowChecks odone])
        else some (s, [process, .failed])
      else none

def step (overflowChecks : Bool) (s : SoxResampler) (a : Action) : Option SoxResampler :=
  (s.turn overflowChecks a).map Prod.fst

end SoxResampler

/-! ## What is promised -/

/-- What `soxr_process` reads and writes is within the slices, and what is returned is within the
vector. -/
def Event.Safe (numChannels : UInt32) : Event → Prop
  | .process soxrPtr input ilen output olen =>
    soxrPtr = true ∧ ilen * numChannels.toNat ≤ input ∧ olen * numChannels.toNat ≤ output
  | .returned samples outBuf => samples ≤ outBuf
  | _ => True

def Safe (overflowChecks : Bool) (s : SoxResampler) (a : Action) (s' : SoxResampler) : Prop :=
  ∀ events, s.turn overflowChecks a = some (s', events) → ∀ e ∈ events, e.Safe s.numChannels

/-- How many samples of a channel `push` makes room for. -/
def SoxResampler.room (overflowChecks : Bool) (s : SoxResampler) (input : ℕ) (delay : F64) : ℕ :=
  let sum := s.scaledLength input + delay.ceilToNat (2 ^ 64 - 1) + 1
  if overflowChecks then sum else sum % 2 ^ 64

/-- There is a resampler, room for all channels does not wrap around to a length that a vector can
have, and a flush is for one channel or an empty vector. -/
def Regular (overflowChecks : Bool) (s : SoxResampler) : Action → Prop
  | .push input delay _ =>
    let all := s.room overflowChecks input delay * s.numChannels.toNat
    2 ^ 62 ≤ (if overflowChecks then all else all % 2 ^ 64) ∨ s.soxrPtr = true ∧ all < 2 ^ 64
  | .flush _ _ => s.soxrPtr = true ∧ (s.numChannels = 1 ∨ s.outBuf = 0)

/-! ## One step -/

variable {overflowChecks : Bool} {s s' : SoxResampler} {a : Action}

/-- The vector is one that can be. -/
structure Inv (s : SoxResampler) : Prop where
  channels : s.numChannels ≠ 0
  outBuf : s.outBuf < 2 ^ 62

theorem usize_true (n : ℕ) : usize true n = if n < 2 ^ 64 then some n else none := rfl

theorem usize_false (n : ℕ) : usize false n = some (n % 2 ^ 64) := by
  unfold usize
  split
  next hlt => rw [Nat.mod_eq_of_lt hlt]
  · rfl

theorem channels_pos (hinv : Inv s) : 0 < s.numChannels.toNat := by
  rw [Nat.pos_iff_ne_zero, Ne, ← UInt32.toNat_zero, UInt32.toNat_inj]
  exact hinv.channels

/-- Either there cannot be a vector so long, or it has the room. -/
theorem sizes_eq (hinv : Inv s) (overflowChecks : Bool) (input : ℕ) (delay : F64) :
    s.sizes overflowChecks input delay =
      let all := s.room overflowChecks input delay * s.numChannels.toNat
      let required := if overflowChecks then all else all % 2 ^ 64
      if 2 ^ 62 ≤ required then none
      else some (input / s.numChannels.toNat, s.room overflowChecks input delay,
        max s.outBuf required) := by
  have hpos := channels_pos hinv
  have hbuf := hinv.outBuf
  unfold SoxResampler.sizes SoxResampler.room guard
  rw [if_pos hinv.channels]
  generalize s.scaledLength input = scaled
  generalize delay.ceilToNat (2 ^ 64 - 1) = waiting
  cases overflowChecks with
  | false =>
    simp only [usize_false, Option.pure_def, Option.bind_eq_bind, Option.bind_some,
      Bool.false_eq_true, if_false, Nat.mod_add_mod]
    generalize (scaled + waiting + 1) % 2 ^ 64 * s.numChannels.toNat % 2 ^ 64 = required
    by_cases hfits : required < 2 ^ 62
    · rw [if_pos (Or.inr hfits), if_neg (Nat.not_le_of_lt hfits)]
      rfl
    · rw [if_neg (by omega), if_pos (Nat.le_of_not_lt hfits)]
      rfl
  | true =>
    simp only [usize_true, Option.pure_def, Option.bind_eq_bind, Option.bind_some, if_true]
    by_cases hsum : scaled + waiting + 1 < 2 ^ 64
    · rw [if_pos (show scaled + waiting < 2 ^ 64 by omega)]
      simp only [Option.bind_some]
      rw [if_pos hsum]
      simp only [Option.bind_some]
      generalize (scaled + waiting + 1) * s.numChannels.toNat = required
      by_cases hfits : required < 2 ^ 62
      · rw [if_pos (show required < 2 ^ 64 by omega)]
        simp only [Option.bind_some]
        rw [if_pos (Or.inr hfits), if_neg (Nat.not_le_of_lt hfits)]
        rfl
      · rw [if_pos (Nat.le_of_not_lt hfits)]
        split
        · simp only [Option.bind_some]
          rw [if_neg (by omega)]
          rfl
        · rfl
    · have hlarge : 2 ^ 62 ≤ (scaled + waiting + 1) * s.numChannels.toNat := by
        calc 2 ^ 62 ≤ scaled + waiting + 1 := by omega
          _ ≤ (scaled + waiting + 1) * s.numChannels.toNat := Nat.le_mul_of_pos_right _ hpos
      rw [if_pos hlarge]
      split
      · simp only [Option.bind_some]
        rw [if_neg hsum]
        rfl
      · rfl

/-- A slice that is returned is one of the vector. -/
theorem output_safe (overflowChecks : Bool) (s : SoxResampler) (odone : ℕ)
    (numChannels : UInt32) : (s.output overflowChecks odone).Safe numChannels := by
  unfold SoxResampler.output
  split
  · split
    next hle => exact hle
    · trivial
  · trivial

/-- The call of `soxr_process` decides whether the step is safe. -/
theorem safe_pair {process last : Event} {numChannels : UInt32} (hlast : last.Safe numChannels) :
    (∀ e ∈ [process, last], e.Safe numChannels) ↔ process.Safe numChannels := by
  constructor
  · intro hsafe
    exact hsafe process List.mem_cons_self
  · intro hprocess e he
    rw [List.mem_cons, List.mem_singleton] at he
    cases he with
    | inl hfirst => exact hfirst ▸ hprocess
    | inr hsecond => exact hsecond ▸ hlast

variable {events : List Event} {input : ℕ} {odone : Option ℕ}

variable {delay : F64} {cleared : Bool}

/-- What a `push` comes to. -/
theorem push_cases (hturn : s.turn overflowChecks (.push input delay odone) = some (s', events)) :
    s.sizes overflowChecks input delay = none ∧ s' = s ∧ events = [.panicked] ∨
      ∃ inputLength maxOutLen outBuf last,
        s.sizes overflowChecks input delay = some (inputLength, maxOutLen, outBuf) ∧
          s' = { s with outBuf } ∧ last.Safe s.numChannels ∧
          events = [.process s.soxrPtr input inputLength outBuf maxOutLen, last] := by
  unfold SoxResampler.turn at hturn
  dsimp only at hturn
  split at hturn
  next hsizes =>
    cases hturn
    exact Or.inl ⟨hsizes, rfl, rfl⟩
  next inputLength maxOutLen outBuf hsizes =>
    cases odone with
    | none =>
      cases hturn
      exact Or.inr ⟨inputLength, maxOutLen, outBuf, .failed, hsizes, rfl, trivial, rfl⟩
    | some odone =>
      obtain ⟨-, ⟨⟩⟩ := of_guard hturn
      exact Or.inr ⟨inputLength, maxOutLen, outBuf, _, hsizes, rfl,
        output_safe overflowChecks _ odone _, rfl⟩

/-- What a `flush` comes to. -/
theorem flush_cases (hturn : s.turn overflowChecks (.flush odone cleared) = some (s', events)) :
    s' = s ∧ ∃ last, last.Safe s.numChannels ∧
      events = [.process s.soxrPtr 0 0 s.outBuf s.outBuf, last] := by
  unfold SoxResampler.turn at hturn
  cases odone with
  | none =>
    cases hturn
    exact ⟨rfl, .failed, trivial, rfl⟩
  | some odone =>
    dsimp only at hturn
    split at hturn
    · split at hturn
      · cases hturn
        exact ⟨rfl, _, output_safe overflowChecks s odone _, rfl⟩
      · cases hturn
        exact ⟨rfl, .failed, trivial, rfl⟩
    · cases hturn

theorem turn_of_step (hstep : s.step overflowChecks a = some s') :
    ∃ events, s.turn overflowChecks a = some (s', events) := by
  obtain ⟨⟨t, events⟩, hturn, rfl⟩ := Option.map_eq_some_iff.mp hstep
  exact ⟨events, hturn⟩

theorem Inv.step (hinv : Inv s) (hstep : s.step overflowChecks a = some s') : Inv s' := by
  obtain ⟨events, hturn⟩ := turn_of_step hstep
  cases a with
  | push input delay odone =>
    rcases push_cases hturn with
      ⟨-, rfl, -⟩ | ⟨inputLength, maxOutLen, outBuf, last, hsizes, rfl, -⟩
    · exact hinv
    · have hsizes' := sizes_eq hinv overflowChecks input delay
      dsimp only at hsizes'
      generalize s.room overflowChecks input delay * s.numChannels.toNat = all at hsizes'
      by_cases hlarge : 2 ^ 62 ≤ if overflowChecks then all else all % 2 ^ 64
      · rw [hsizes, if_pos hlarge] at hsizes'
        cases hsizes'
      · rw [hsizes, if_neg hlarge, Option.some.injEq, Prod.mk.injEq, Prod.mk.injEq] at hsizes'
        refine ⟨hinv.channels, ?_⟩
        rw [hsizes'.2.2]
        exact max_lt hinv.outBuf (Nat.lt_of_not_le hlarge)
  | flush odone cleared =>
    obtain ⟨rfl, -⟩ := flush_cases hturn
    exact hinv

theorem safe_iff_events (hturn : s.turn overflowChecks a = some (s', events)) :
    Safe overflowChecks s a s' ↔ ∀ e ∈ events, e.Safe s.numChannels := by
  constructor
  · intro hsafe
    exact hsafe events hturn
  · intro hevents events' hturn'
    rw [hturn, Option.some.injEq, Prod.mk.injEq] at hturn'
    exact hturn'.2 ▸ hevents

theorem push_safe_iff (hinv : Inv s)
    (hturn : s.turn overflowChecks (.push input delay odone) = some (s', events)) :
    (∀ e ∈ events, e.Safe s.numChannels) ↔
      Regular overflowChecks s (.push input delay odone) := by
  have hsizes' := sizes_eq hinv overflowChecks input delay
  have hbuf := hinv.outBuf
  unfold Regular
  dsimp only at hsizes' ⊢
  generalize hall : s.room overflowChecks input delay * s.numChannels.toNat = all at hsizes' ⊢
  rcases push_cases hturn with ⟨hnone, -, rfl⟩ |
    ⟨inputLength, maxOutLen, outBuf, last, hsome, -, hlast, rfl⟩
  · have hlarge : 2 ^ 62 ≤ if overflowChecks then all else all % 2 ^ 64 := by
      by_contra hsmall
      rw [hnone, if_neg hsmall] at hsizes'
      cases hsizes'
    refine iff_of_true ?_ (Or.inl hlarge)
    intro e he
    rw [List.mem_singleton.mp he]
    trivial
  · have hsmall : ¬ 2 ^ 62 ≤ if overflowChecks then all else all % 2 ^ 64 := by
      intro hlarge
      rw [hsome, if_pos hlarge] at hsizes'
      cases hsizes'
    rw [hsome, if_neg hsmall, Option.some.injEq, Prod.mk.injEq, Prod.mk.injEq] at hsizes'
    obtain ⟨rfl, rfl, rfl⟩ := hsizes'
    rw [safe_pair hlast]
    show (_ ∧ _ ∧ _) ↔ _
    rw [hall]
    have hinput : input / s.numChannels.toNat * s.numChannels.toNat ≤ input :=
      Nat.div_mul_le_self _ _
    constructor
    · rintro ⟨hptr, -, houtput⟩
      refine Or.inr ⟨hptr, ?_⟩
      have hmax : max s.outBuf (if overflowChecks then all else all % 2 ^ 64) < 2 ^ 62 :=
        max_lt hbuf (Nat.lt_of_not_le hsmall)
      omega
    · rintro (hlarge | ⟨hptr, hfits⟩)
      · exact absurd hlarge hsmall
      · refine ⟨hptr, hinput, ?_⟩
        have hsame : (if overflowChecks then all else all % 2 ^ 64) = all := by
          rw [Nat.mod_eq_of_lt hfits, ite_self]
        rw [hsame]
        exact Nat.le_max_right _ _

theorem flush_safe_iff (hinv : Inv s)
    (hturn : s.turn overflowChecks (.flush odone cleared) = some (s', events)) :
    (∀ e ∈ events, e.Safe s.numChannels) ↔
      Regular overflowChecks s (.flush odone cleared) := by
  have hpos := channels_pos hinv
  obtain ⟨-, last, hlast, rfl⟩ := flush_cases hturn
  rw [safe_pair hlast]
  show (_ ∧ 0 * _ ≤ 0 ∧ _) ↔ _ ∧ _
  have hone : s.numChannels = 1 ↔ s.numChannels.toNat = 1 := by
    rw [← UInt32.toNat_inj]
    rfl
  have houtput : s.outBuf * s.numChannels.toNat ≤ s.outBuf ↔
      s.numChannels = 1 ∨ s.outBuf = 0 := by
    rw [hone]
    constructor
    · intro hle
      by_contra hnot
      rw [not_or] at hnot
      have htwo : s.outBuf * 2 ≤ s.outBuf * s.numChannels.toNat :=
        Nat.mul_le_mul_left _ (by omega)
      omega
    · rintro (h1 | h0)
      · rw [h1, Nat.mul_one]
      · rw [h0, Nat.zero_mul]
  rw [houtput, Nat.zero_mul]
  simp

/-! ## Whole runs -/

/-- `soxr` stays within the slices exactly if every call is regular. -/
theorem stays_within_iff (overflowChecks : Bool) (inputRate outputRate : F64)
    (numChannels : UInt32) (created : Bool) (s : SoxResampler)
    (hnew : SoxResampler.new inputRate outputRate numChannels created = .ok s)
    (hchannels : 1 ≤ numChannels) (run : List Action) :
    EachStep (SoxResampler.step overflowChecks) (Safe overflowChecks) s run ↔
      EachStep (SoxResampler.step overflowChecks) (fun s a _ => Regular overflowChecks s a) s
        run := by
  have hinit : Inv s := by
    cases hnew
    refine ⟨?_, Nat.two_pow_pos 62⟩
    rintro rfl
    exact absurd hchannels (by decide)
  refine eachStep_iff (I := Inv) ?_ ?_ hinit
  · intro s a _ s' hinv hstep
    obtain ⟨events, hturn⟩ := turn_of_step hstep
    rw [safe_iff_events hturn]
    cases a with
    | push input delay odone => exact push_safe_iff hinv hturn
    | flush odone cleared => exact flush_safe_iff hinv hturn
  · intro s a _ s' hinv hstep _
    exact hinv.step hstep

/-- With one rate for input and output there is room for the input. -/
theorem room_of_same {rate : ℕ} (hrate : 0 < rate) (hsmall : rate < 2 ^ 53)
    (hin : s.inputRate = f64 rate) (hout : s.outputRate = f64 rate)
    (hinput : input / s.numChannels.toNat < 2 ^ 53) :
    s.room true input (f64 0) = input / s.numChannels.toNat + 1 := by
  have hratio : s.outputRate.div s.inputRate = f64 1 := by
    have hne : (rate : ℚ) ≠ 0 := Nat.cast_ne_zero.mpr (Nat.ne_of_gt hrate)
    rw [hin, hout, Options.f64_of_lt hsmall]
    show (if (rate : ℚ) = 0 then _ else Value.ofRat binary64 ((rate : ℚ) / rate)) = _
    rw [if_neg hne, div_self hne]
    show Value.ofRat binary64 1 = Value.ofRat binary64 ((1 : ℕ) : ℚ)
    rw [Nat.cast_one]
  have hscaled : s.scaledLength input = input / s.numChannels.toNat := by
    have hone : 1 < 2 ^ 53 := by norm_num
    unfold SoxResampler.scaledLength
    generalize input / s.numChannels.toNat = n at hinput ⊢
    rw [hratio, Options.f64_of_lt hinput, Options.f64_of_lt hone]
    show (Value.ofRat binary64 ((n : ℚ) * ((1 : ℕ) : ℚ))).ceilToNat (2 ^ 64 - 1) = n
    rw [Nat.cast_one, mul_one, Value.ofRat_of_representable (Options.representable_of_lt hinput)]
    show min ⌈(n : ℚ)⌉₊ (2 ^ 64 - 1) = n
    rw [Nat.ceil_natCast]
    omega
  have hdelay : (f64 0).ceilToNat (2 ^ 64 - 1) = 0 := by
    have hzero : 0 < 2 ^ 53 := by norm_num
    rw [Options.f64_of_lt hzero]
    show min ⌈((0 : ℕ) : ℚ)⌉₊ (2 ^ 64 - 1) = 0
    rw [Nat.ceil_natCast]
    rfl
  unfold SoxResampler.room
  rw [hscaled, hdelay]
  rfl

/-- A push that asks for no more than a vector can have makes the vector large enough. -/
theorem step_push (hinv : Inv s) {odone : ℕ} (hodone : odone ≤ s.room true input delay)
    (hsmall : s.room true input delay * s.numChannels.toNat < 2 ^ 62) :
    s.step true (.push input delay (some odone)) =
      some { s with outBuf := max s.outBuf (s.room true input delay * s.numChannels.toNat) } := by
  have hsizes := sizes_eq hinv true input delay
  dsimp only at hsizes
  rw [if_pos rfl, if_neg (Nat.not_le_of_lt hsmall)] at hsizes
  unfold SoxResampler.step SoxResampler.turn
  dsimp only
  rw [hsizes]
  dsimp only
  rw [if_pos hodone]
  rfl

/-- One channel, pushed and flushed. -/
theorem mono_stays_within :
    EachStep (SoxResampler.step true) (Safe true) ⟨true, 0, f64 48000, f64 48000, 1⟩
      [.push 480 (f64 0) (some 480), .flush (some 0) true] := by
  refine (stays_within_iff true (f64 48000) (f64 48000) 1 true _ rfl (by decide) _).mpr ?_
  have hinv : Inv ⟨true, 0, f64 48000, f64 48000, 1⟩ := ⟨by decide, Nat.two_pow_pos 62⟩
  have hroom : SoxResampler.room true ⟨true, 0, f64 48000, f64 48000, 1⟩ 480 (f64 0) = 481 :=
    room_of_same (by norm_num : 0 < 48000) (by norm_num) rfl rfl (by decide : 480 / 1 < 2 ^ 53)
  refine EachStep.cons (step_push hinv ?_ ?_) (Or.inr ⟨rfl, ?_⟩) ?_
  · rw [hroom]
    decide
  · rw [hroom]
    decide
  · rw [hroom]
    decide
  · intro s' _
    exact ⟨⟨rfl, Or.inl rfl⟩, trivial⟩

/-- Two channels, pushed and flushed: the flush asks for twice the samples that the vector has. -/
theorem stereo_flush_overruns :
    ¬ EachStep (SoxResampler.step true) (Safe true) ⟨true, 0, f64 48000, f64 48000, 2⟩
      [.push 960 (f64 0) (some 480), .flush (some 0) true] := by
  intro hsafe
  have hinv : Inv ⟨true, 0, f64 48000, f64 48000, 2⟩ := ⟨by decide, Nat.two_pow_pos 62⟩
  have hroom : SoxResampler.room true ⟨true, 0, f64 48000, f64 48000, 2⟩ 960 (f64 0) = 481 :=
    room_of_same (by norm_num : 0 < 48000) (by norm_num) rfl rfl (by decide : 960 / 2 < 2 ^ 53)
  have hodone : 480 ≤ SoxResampler.room true ⟨true, 0, f64 48000, f64 48000, 2⟩ 960 (f64 0) := by
    rw [hroom]
    decide
  have hpush := step_push hinv hodone (by rw [hroom]; decide)
  rw [hroom] at hpush
  have hflush := ((hsafe _ hpush).2 _ rfl).1 _ rfl _ List.mem_cons_self
  exact absurd hflush.2.2 (by decide)

end LiveKit.Resampler
