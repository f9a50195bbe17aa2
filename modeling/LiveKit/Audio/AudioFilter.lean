import LiveKit.Ffi.AudioStream

/-!
# The frames of a filtered audio stream

`AudioFilterAudioStream` of `plugin.rs` hands the samples of a native stream to the filter of a
plugin. The sizes of the filter's frames are products of a rate, the duration and the channels;
they are computed exactly here before they are cut to an integer.
-/

namespace LiveKit.AudioFilter

open List
open AudioStream (AudioFrame)

inductive Poll (A : Type) where
  | ready (a : A)
  | pending

/-- What `poll_next` of a stream of frames returns. -/
abbrev PollFrame := Poll (Option AudioFrame)

/-- The rates and the channels that a stream is created with. -/
structure Format where
  inputSampleRate : UInt32
  outputSampleRate : UInt32
  numChannels : UInt32
  channels_pos : 0 < numChannels.toNat

/-- The samples that the filter writes to an output of `n` samples, after all these inputs. -/
abbrev Filter := List (List Int16) → (n : ℕ) → Fin n → Int16

structure AudioFilterAudioStream where
  /-- The inputs that the filter was given. -/
  session : List (List Int16)
  buffer : List Int16
  outputSampleRate : UInt32
  numChannels : UInt32
  inputFrameSize : ℕ
  outputFrameSize : ℕ

def frameSize (sampleRate : UInt32) (durationMs : ℕ) (numChannels : UInt32) : ℕ :=
  sampleRate.toNat * durationMs * numChannels.toNat / 1000

namespace AudioFilterAudioStream

def new (durationMs : ℕ) (format : Format) : AudioFilterAudioStream where
  session := []
  buffer := []
  outputSampleRate := format.outputSampleRate
  numChannels := format.numChannels
  inputFrameSize := frameSize format.inputSampleRate durationMs format.numChannels
  outputFrameSize := frameSize format.outputSampleRate durationMs format.numChannels

variable (filter : Filter)

/-- The loop of `poll_next` with one answer of the inner stream, and what it returns if it does. -/
def turn (self : AudioFilterAudioStream) : PollFrame → Option PollFrame × AudioFilterAudioStream
  | .pending => (some .pending, self)
  | .ready none => (some (.ready none), self)
  | .ready (some frame) =>
    let buffer := self.buffer ++ frame.data
    if self.inputFrameSize ≤ buffer.length then
      let session := self.session ++ [buffer.take self.inputFrameSize]
      let out := List.ofFn (filter session self.outputFrameSize)
      (some (.ready (some ⟨out, self.outputSampleRate, self.numChannels,
        .ofNat (self.outputFrameSize / self.numChannels.toNat)⟩)),
        { self with session, buffer := buffer.drop self.inputFrameSize })
    else (none, { self with buffer })

/-- `poll_next` on an inner stream that gives these answers, with the answers that are left. -/
def pollNext (self : AudioFilterAudioStream) :
    List PollFrame → PollFrame × AudioFilterAudioStream × List PollFrame
  | [] => (.pending, self, [])
  | answer :: answers =>
    match self.turn filter answer with
    | (some poll, self) => (poll, self, answers)
    | (none, self) => pollNext self answers

end AudioFilterAudioStream

/-- A frame that is returned, with the number of samples that are in the buffer then. -/
def emission (self : AudioFilterAudioStream) : Option PollFrame → List (AudioFrame × ℕ)
  | some (.ready (some frame)) => [(frame, self.buffer.length)]
  | _ => []

/-- The stream is polled `n` times. -/
def polls (filter : Filter) : ℕ → AudioFilterAudioStream → List PollFrame →
    List (AudioFrame × ℕ) × AudioFilterAudioStream × List PollFrame
  | 0, self, answers => ([], self, answers)
  | n + 1, self, answers =>
    let (poll, self, answers) := self.pollNext filter answers
    let (emitted, last, answers) := polls filter n self answers
    (emission self (some poll) ++ emitted, last, answers)

/-! ## What is promised -/

def framesOf (answers : List PollFrame) : List AudioFrame :=
  answers.filterMap fun
    | .ready frame => frame
    | .pending => none

/-- The frames hold 10 ms of each channel. -/
def Regular (format : Format) (frames : List AudioFrame) : Prop :=
  ∀ frame ∈ frames,
    frame.data.length = format.inputSampleRate.toNat / 100 * format.numChannels.toNat

def Format.inputFrameSize (format : Format) : ℕ :=
  frameSize format.inputSampleRate 10 format.numChannels

def Format.outputFrameSize (format : Format) : ℕ :=
  frameSize format.outputSampleRate 10 format.numChannels

/-- What holds after the frames that were `taken`, of all these, when some were `emitted`. -/
structure Framed (format : Format) (frames taken : List AudioFrame)
    (emitted : List (AudioFrame × ℕ)) (stream : AudioFilterAudioStream) : Prop where
  pieces : stream.session.flatten ++ stream.buffer = taken.flatMap AudioFrame.data
  aligned : ∀ input ∈ stream.session, format.numChannels.toNat ∣ input.length
  sizes : ∀ e ∈ emitted, e.1.Of format.outputSampleRate format.numChannels
  bounded : Regular format frames → ∀ e ∈ emitted, e.2 < format.inputFrameSize

/-- However often a stream with a duration of 10 ms is polled. -/
def AlwaysFramed (filter : Filter) (format : Format) (answers : List PollFrame) : Prop :=
  ∀ n, ∃ taken emitted self rest, answers = taken ++ rest ∧
    polls filter n (.new 10 format) answers = (emitted, self, rest) ∧
    Framed format (framesOf answers) (framesOf taken) emitted self

/-- There is a frame, and the samples of all fill one of the filter. -/
def Fills (format : Format) (frames : List AudioFrame) : Prop :=
  frames ≠ [] ∧ format.inputFrameSize ≤ (frames.flatMap AudioFrame.data).length

/-- The frames of the filter hold as many samples of each channel, and are not empty where the
frames of the inner stream hold 10 ms. -/
def Whole (format : Format) (frames : List AudioFrame) : Prop :=
  format.numChannels.toNat ∣ format.inputFrameSize ∧
    format.numChannels.toNat ∣ format.outputFrameSize ∧
    (Regular format frames → 0 < format.inputFrameSize)

/-! ## What every poll keeps -/

variable {filter : Filter} {format : Format} {self : AudioFilterAudioStream}
  {frames taken : List AudioFrame} {emitted : List (AudioFrame × ℕ)}

/-- The loop keeps this with each frame that it takes. -/
def Kept (filter : Filter)
    (I : List AudioFrame → List (AudioFrame × ℕ) → AudioFilterAudioStream → Prop) : Prop :=
  ∀ frames emitted self frame, I frames emitted self →
    let (poll, next) := self.turn filter (.ready (some frame))
    I (frames ++ [frame]) (emitted ++ emission next poll) next

variable {I : List AudioFrame → List (AudioFrame × ℕ) → AudioFilterAudioStream → Prop}

theorem pollNext_invariant (hturn : Kept filter I) (h : I frames emitted self)
    (answers : List PollFrame) :
    ∃ taken poll self' rest, self.pollNext filter answers = (poll, self', rest) ∧
      answers = taken ++ rest ∧ rest.length ≤ answers.length - 1 ∧
      I (frames ++ framesOf taken) (emitted ++ emission self' (some poll)) self' := by
  induction answers generalizing frames self with
  | nil =>
    exact ⟨[], .pending, self, [], rfl, rfl, le_refl _, by simpa [framesOf, emission] using h⟩
  | cons answer answers ih =>
    cases answer with
    | pending =>
      exact ⟨[.pending], .pending, self, answers, rfl, rfl, le_refl _,
        by simpa [framesOf, emission] using h⟩
    | ready frame =>
      cases frame with
      | none =>
        exact ⟨[.ready none], .ready none, self, answers, rfl, rfl, le_refl _,
          by simpa [framesOf, emission] using h⟩
      | some frame =>
        have hnext := hturn frames emitted self frame h
        unfold AudioFilterAudioStream.pollNext
        generalize self.turn filter (.ready (some frame)) = turned at hnext ⊢
        obtain ⟨poll, next⟩ := turned
        cases poll with
        | some poll =>
          exact ⟨[.ready (some frame)], poll, next, answers, rfl, rfl, le_refl _, hnext⟩
        | none =>
          simp only [emission, append_nil] at hnext
          obtain ⟨taken, poll, last, rest, hpoll, hsplit, hlength, hlast⟩ := ih hnext
          refine ⟨.ready (some frame) :: taken, poll, last, rest, hpoll, ?_, ?_, ?_⟩
          · rw [hsplit, cons_append]
          · rw [length_cons]
            omega
          · rw [append_assoc] at hlast
            exact hlast

theorem polls_invariant (hturn : Kept filter I) (h : I frames emitted self) (n : ℕ)
    (answers : List PollFrame) :
    ∃ taken emitted' self' rest, polls filter n self answers = (emitted', self', rest) ∧
      answers = taken ++ rest ∧ rest.length ≤ answers.length - n ∧
      I (frames ++ framesOf taken) (emitted ++ emitted') self' := by
  induction n generalizing frames emitted self answers with
  | zero =>
    exact ⟨[], [], self, answers, rfl, rfl, le_refl _, by simpa [framesOf] using h⟩
  | succ n ih =>
    obtain ⟨first, poll, next, left, hpoll, hfirst, hshorter, hnext⟩ :=
      pollNext_invariant hturn h answers
    obtain ⟨taken, emitted', last, rest, hpolls, hrest, hlength, hlast⟩ := ih hnext left
    refine ⟨first ++ taken, emission next (some poll) ++ emitted', last, rest, ?_, ?_, ?_, ?_⟩
    · unfold polls
      rw [hpoll]
      dsimp only
      rw [hpolls]
    · rw [hfirst, hrest, append_assoc]
    · omega
    · have hframes : framesOf (first ++ taken) = framesOf first ++ framesOf taken :=
        filterMap_append
      rw [hframes, ← append_assoc, ← append_assoc]
      exact hlast

/-! ## What the filter is given and what is returned -/

theorem frameSize_div (sampleRate : UInt32) (format : Format) :
    frameSize sampleRate 10 format.numChannels / format.numChannels.toNat =
      sampleRate.toNat / 100 := by
  unfold frameSize
  rw [Nat.div_div_eq_div_mul, Nat.mul_div_mul_right _ _ format.channels_pos]
  omega

/-- A frame that the stream returns. -/
def Returned (format : Format) (frame : AudioFrame) : Prop :=
  frame.sampleRate = format.outputSampleRate ∧ frame.numChannels = format.numChannels ∧
    frame.data.length = format.outputFrameSize ∧
    frame.samplesPerChannel.toNat = format.outputFrameSize / format.numChannels.toNat

structure Inv (format : Format) (taken : List AudioFrame) (emitted : List (AudioFrame × ℕ))
    (stream : AudioFilterAudioStream) : Prop where
  same : stream = { AudioFilterAudioStream.new 10 format with
    session := stream.session, buffer := stream.buffer }
  pieces : stream.session.flatten ++ stream.buffer = taken.flatMap AudioFrame.data
  full : ∀ input ∈ stream.session, input.length = format.inputFrameSize
  count : emitted.length = stream.session.length
  returned : ∀ e ∈ emitted, Returned format e.1
  /-- The filter is given an input as soon as there is one. -/
  waits : stream.session = [] ↔ ¬ Fills format taken
  bounded : Regular format taken → 0 < format.inputFrameSize →
    stream.buffer.length < format.inputFrameSize ∧ ∀ e ∈ emitted, e.2 < format.inputFrameSize

theorem inv_new : Inv format [] [] (.new 10 format) where
  same := rfl
  pieces := rfl
  full := nofun
  count := rfl
  returned := nofun
  waits := ⟨fun _ hfills => hfills.1 rfl, fun _ => rfl⟩
  bounded := fun _ hpos => ⟨hpos, nofun⟩

/-- A frame of 10 ms is not larger than one of the filter. -/
theorem length_le_of_regular {frame : AudioFrame} (h : Regular format (taken ++ [frame])) :
    frame.data.length ≤ format.inputFrameSize := by
  rw [h frame (mem_append_right _ (mem_singleton_self _))]
  have hdiv := frameSize_div format.inputSampleRate format
  rw [← hdiv]
  exact Nat.div_mul_le_self _ _

theorem inv_kept : Kept filter (Inv format) := by
  intro taken emitted stream frame h
  obtain ⟨session, buffer, rate, channels, input, output⟩ := stream
  obtain ⟨hsame, hpieces, hfull, hcount, hreturned, hwaits, hbounded⟩ := h
  cases hsame
  have hdata : session.flatten ++ (buffer ++ frame.data) =
      (taken ++ [frame]).flatMap AudioFrame.data := by
    rw [← append_assoc, hpieces, flatMap_append, flatMap_singleton]
  have hregular : Regular format (taken ++ [frame]) → Regular format taken :=
    fun hall f hf => hall f (mem_append_left _ hf)
  have hlonger : (buffer ++ frame.data).length = buffer.length + frame.data.length :=
    length_append
  unfold AudioFilterAudioStream.turn
  dsimp only
  have htotal := congrArg List.length hdata
  rw [length_append] at htotal
  split
  · next hlarge =>
    have hlarge : format.inputFrameSize ≤ (buffer ++ frame.data).length := hlarge
    have hrest : ((buffer ++ frame.data).drop format.inputFrameSize).length =
        (buffer ++ frame.data).length - format.inputFrameSize := length_drop
    refine ⟨rfl, ?_, ?_, ?_, ?_, ⟨?_, ?_⟩, ?_⟩
    · show (session ++ [(buffer ++ frame.data).take format.inputFrameSize]).flatten ++
        (buffer ++ frame.data).drop format.inputFrameSize = _
      rw [flatten_append, flatten_singleton, append_assoc, take_append_drop,
        hdata]
    · intro piece hpiece
      rcases mem_append.mp hpiece with hold | hnew
      · exact hfull piece hold
      · rw [mem_singleton.mp hnew]
        exact length_take_of_le hlarge
    · show (emitted ++ [_]).length = (session ++ [_]).length
      rw [length_append, length_append, hcount]
      rfl
    · intro e he
      rcases mem_append.mp he with hold | hnew
      · exact hreturned e hold
      · rw [mem_singleton.mp hnew]
        refine ⟨rfl, rfl, length_ofFn, ?_⟩
        -- the cast of the quotient does not overflow
        have hdiv := frameSize_div format.outputSampleRate format
        have hrate := format.outputSampleRate.toNat_lt
        apply UInt32.toNat_ofNat_of_lt'
        show frameSize format.outputSampleRate 10 format.numChannels / format.numChannels.toNat < _
        rw [hdiv]
        exact Nat.lt_of_le_of_lt (Nat.div_le_self _ _) hrate
    · exact fun hbad => absurd hbad (append_ne_nil_of_right_ne_nil _ (cons_ne_nil _ _))
    · refine fun hnot => absurd ⟨?_, ?_⟩ hnot
      · exact append_ne_nil_of_right_ne_nil _ (cons_ne_nil _ _)
      · omega
    · intro hall hpos
      obtain ⟨hshort, hbefore⟩ := hbounded (hregular hall) hpos
      have hframe := length_le_of_regular hall
      have hnext : ((buffer ++ frame.data).drop format.inputFrameSize).length <
          format.inputFrameSize := by
        have hshort : buffer.length < format.inputFrameSize := hshort
        omega
      refine ⟨hnext, ?_⟩
      intro e he
      rcases mem_append.mp he with hold | hnew
      · exact hbefore e hold
      · rw [mem_singleton.mp hnew]
        exact hnext
  · next hsmall =>
    have hsmall : (buffer ++ frame.data).length < format.inputFrameSize := Nat.lt_of_not_le hsmall
    show Inv format _ (emitted ++ []) _
    rw [append_nil]
    refine ⟨rfl, hdata, hfull, hcount, hreturned, ?_, ?_⟩
    · show session = [] ↔ _
      constructor
      · rintro rfl
        refine fun hfills => absurd hfills.2 ?_
        rw [flatten_nil, length_nil] at htotal
        omega
      · intro hnot
        refine hwaits.mpr fun hfills => hnot ⟨?_, ?_⟩
        · exact append_ne_nil_of_left_ne_nil hfills.1 _
        · rw [flatMap_append, length_append]
          exact Nat.le_add_right_of_le hfills.2
    · exact fun hall hpos => ⟨hsmall, (hbounded (hregular hall) hpos).2⟩

/-! ## The exact condition -/

/-- Some samples are never handed on, or all frames are whole. -/
theorem framed_of_inv (h : Inv format taken emitted self)
    (htaken : taken <+: frames) (hwhole : Fills format frames → Whole format frames) :
    Framed format frames taken emitted self := by
  have hfills : self.session ≠ [] → Whole format frames := by
    intro hsession
    have htaken' : Fills format taken := by
      by_contra hnot
      exact hsession (h.waits.mpr hnot)
    obtain ⟨later, rfl⟩ := htaken
    refine hwhole ⟨append_ne_nil_of_left_ne_nil htaken'.1 _, ?_⟩
    rw [flatMap_append, length_append]
    exact Nat.le_add_right_of_le htaken'.2
  have hemitted : ∀ e ∈ emitted, Whole format frames := by
    intro e he
    apply hfills
    intro hnil
    have hcount := h.count
    rw [hnil] at hcount
    rw [eq_nil_of_length_eq_zero hcount] at he
    cases he
  refine ⟨h.pieces, ?_, ?_, ?_⟩
  · intro input hinput
    rw [h.full input hinput]
    exact (hfills (ne_nil_of_mem hinput)).1
  · intro e he
    obtain ⟨hrate, hchannels, hlength, hsamples⟩ := h.returned e he
    refine ⟨hrate, hchannels, ?_⟩
    rw [hlength, hsamples, Nat.div_mul_cancel (hemitted e he).2.1]
  · intro hall e he
    have hregular : Regular format taken := fun frame hframe =>
      hall frame (htaken.subset hframe)
    exact (h.bounded hregular ((hemitted e he).2.2 hall)).2 e he

/-- The filter was given an input, and a frame was returned. -/
theorem whole_of_framed (h : Inv format frames emitted self)
    (hframed : Framed format frames frames emitted self) (hfills : Fills format frames) :
    Whole format frames := by
  have hsession : self.session ≠ [] := fun hnil => h.waits.mp hnil hfills
  have hemitted : emitted ≠ [] := by
    intro hnil
    have hcount := h.count
    rw [hnil] at hcount
    exact hsession (eq_nil_of_length_eq_zero hcount.symm)
  obtain ⟨input, hinput⟩ := exists_mem_of_ne_nil _ hsession
  obtain ⟨e, he⟩ := exists_mem_of_ne_nil _ hemitted
  refine ⟨?_, ?_, ?_⟩
  · rw [← h.full input hinput]
    exact hframed.aligned input hinput
  · obtain ⟨-, -, hlength, -⟩ := h.returned e he
    rw [← hlength, (hframed.sizes e he).2.2]
    exact Nat.dvd_mul_left _ _
  · exact fun hall => Nat.zero_lt_of_lt (hframed.bounded hall e he)

theorem whole_of_alwaysFramed {answers : List PollFrame}
    (h : AlwaysFramed filter format answers) (hfills : Fills format (framesOf answers)) :
    Whole format (framesOf answers) := by
  obtain ⟨taken, emitted, self, rest, hpolls, hsplit, hlength, hinv⟩ :=
    polls_invariant inv_kept inv_new answers.length answers
  obtain ⟨taken', emitted', self', rest', hsplit', hpolls', hframed⟩ := h answers.length
  rw [hpolls] at hpolls'
  cases hpolls'
  have hrest : rest = [] := eq_nil_of_length_eq_zero (by omega)
  rw [hrest, append_nil] at hsplit hsplit'
  rw [← hsplit] at hinv
  rw [← hsplit'] at hframed
  exact whole_of_framed hinv hframed hfills

/-- The frames are aligned and bounded just if the samples do not fill one, or the filter's frames
are whole. -/
theorem alwaysFramed_iff (filter : Filter) (format : Format) (answers : List PollFrame) :
    AlwaysFramed filter format answers ↔
      (Fills format (framesOf answers) → Whole format (framesOf answers)) := by
  refine ⟨whole_of_alwaysFramed, fun hwhole n => ?_⟩
  have hkept : Kept filter (Inv format) := inv_kept
  obtain ⟨taken, emitted, self, rest, hpolls, hsplit, -, hinv⟩ :=
    polls_invariant hkept inv_new n answers
  refine ⟨taken, emitted, self, rest, hsplit, hpolls, framed_of_inv hinv ?_ hwhole⟩
  refine ⟨framesOf rest, ?_⟩
  rw [hsplit]
  exact filterMap_append.symm

/-- At 22050 Hz, the frames of a filter with two channels hold 441 samples. -/
theorem stereo_not_framed :
    ¬ ∀ (filter : Filter) (format : Format) (answers : List PollFrame),
      (∀ frame ∈ framesOf answers, format.numChannels.toNat ∣ frame.data.length) →
        AlwaysFramed filter format answers := by
  intro hall
  let frame : AudioFrame := ⟨List.replicate 440 0, 22050, 2, 220⟩
  have hlength : frame.data.length = 440 := length_replicate
  have hframed := hall (fun _ _ _ => 0) ⟨22050, 22050, 2, by decide⟩
    [.ready (some frame), .ready (some frame)] (by simp [framesOf, hlength])
  have hwhole := whole_of_alwaysFramed hframed ⟨cons_ne_nil _ _, by
    simp only [framesOf, filterMap_cons, filterMap_nil, flatMap_cons,
      length_append, hlength]
    decide⟩
  exact absurd hwhole.1 (by decide)

end LiveKit.AudioFilter
