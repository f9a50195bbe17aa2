import LiveKit.PeerTransport.MungeTheorems

/-!
# What the formats ask for

After the edits each Opus format should have a parameter `stereo`, and each VP9 and AV1 format one
start bitrate. The edits look for the text of the name anywhere in the line: so a parameter such as
`sprop-stereo=1` is taken for the one that is looked for.
-/

namespace LiveKit.PeerTransport.Munge

open List TextSearch

/-! ## What is promised -/

/-- The format parameters of this name. -/
def paramsNamed (name params : Text) : List Text :=
  (params.splitOn ';').filter (paramName · = name)

/-- What follows the name and its `=`. -/
def paramValue (param : Text) : Text := (param.dropWhile (· ≠ '=')).drop 1

/-- There is one parameter of this name, with this value. -/
def HasOnly (name value params : Text) : Prop :=
  ∃ param, paramsNamed name params = [param] ∧ paramValue param = value

/-- Of the lines of the result, in the line ending that the text is taken to use: every format line
of these codecs has such parameters, and each format line of the text is still one, of the same
payload type. -/
structure FormatsHave (isTarget : Text → Bool) (P : Text → Prop) (sdp munged : Text) : Prop where
  every : ∀ pt ∈ payloadTypes isTarget (lines (detectEol sdp) munged), ∀ params,
    fmtpPrefix pt ++ params ∈ lines (detectEol sdp) munged → P params
  kept : ∀ (i : ℕ), ∀ pt ∈ payloadTypes isTarget (lines (detectEol sdp) sdp),
    ∀ line ∈ (lines (detectEol sdp) sdp)[i]?, fmtpPrefix pt <+: line →
      ∃ line' ∈ (lines (detectEol sdp) munged)[i]?, fmtpPrefix pt <+: line'

/-- Every Opus format has a parameter `stereo`, and every VP9 or AV1 format one start bitrate, which
is the one that was set. -/
structure AsksFor (sdp : Text) (startBitrateKbps : UInt32) : Prop where
  stereo : FormatsHave isOpus (paramsNamed stereoName · ≠ []) sdp (mungeStereoForAudio sdp)
  bitrate : FormatsHave isVp9OrAv1 (HasOnly startBitrateName (decimal startBitrateKbps)) sdp
    (mungeXGoogleStartBitrate sdp startBitrateKbps)

/-! ## When it is kept -/

/-- The parameters of the format lines of these codecs. -/
def EachFormat (isTarget : Text → Bool) (Q : Text → Text → Prop) (sdp : Text) : Prop :=
  ∀ pt ∈ payloadTypes isTarget (lines (detectEol sdp) sdp), ∀ params,
    fmtpPrefix pt ++ params ∈ lines (detectEol sdp) sdp → Q pt params

/-- A line with the text `stereo=` has a parameter `stereo`. -/
def StereoNamed (pt params : Text) : Prop :=
  stereoKey <:+: fmtpPrefix pt ++ params → paramsNamed stereoName params ≠ []

/-- Where the payload type has the name of the start bitrate, it has this value already. -/
def PayloadTypeKept (startBitrateKbps : UInt32) (pt params : Text) : Prop :=
  ∀ pos ∈ find startBitrateKey (fmtpPrefix pt ++ params), pos < (fmtpPrefix pt).length →
    decimal startBitrateKbps ++ [';'] <+:
      (fmtpPrefix pt ++ params).drop (pos + startBitrateKey.length)

/-- A line with the text `x-google-start-bitrate=` has one parameter of this name, and the text is
first in this parameter or the parameter has the value already; a line without the text has no
parameter of this name. -/
def StartBitrateNamed (startBitrateKbps : UInt32) (pt params : Text) : Prop :=
  if startBitrateKey <:+: fmtpPrefix pt ++ params then
    ∃ param, paramsNamed startBitrateName params = [param] ∧
      (StartsParam pt (fmtpPrefix pt ++ params) ∨
        paramValue param = decimal startBitrateKbps ∧ PayloadTypeKept startBitrateKbps pt params)
  else paramsNamed startBitrateName params = []

/-! ## Edits of format lines in any text -/

/-- The line ending that is added to the text has no other characters than its own. -/
theorem newline_mem (eol : Eol) : '\n' ∈ eol.text := by cases eol <;> decide

theorem Whole.append {eol : Eol} {line x : Text} {c : Char} (h : Whole eol line)
    (hc : c ∉ eol.text) (hx : Whole eol x) : Whole eol (line ++ c :: x) := by
  intro hin
  rcases (infix_append_cons_iff eol.text_ne_nil hc).mp hin with hleft | hright
  · exact h hleft
  · exact hx hright

theorem whole_of_not_mem {eol : Eol} {line : Text} (h : '\n' ∉ line) : Whole eol line :=
  fun hin => h (hin.subset (newline_mem eol))

section Edit

variable {isTarget : Text → Bool} {edit : Text → Text} {P : Text → Prop}

/-- Without a payload type no line is rewritten. -/
theorem lines_mungeFmtp (isTarget : Text → Bool)
    (hwhole : ∀ eol line, Whole eol line → Whole eol (edit line)) (sdp : Text) :
    ∃ tail : List Text, (tail = [] ∨ tail = [[]]) ∧
      lines (detectEol sdp) (mungeFmtp isTarget edit sdp) =
        (lines (detectEol sdp) sdp).map
          (rewriteFmtp edit (payloadTypes isTarget (lines (detectEol sdp) sdp))) ++ tail := by
  unfold mungeFmtp
  dsimp only
  generalize detectEol sdp = eol
  by_cases hpts : payloadTypes isTarget (lines eol sdp) = []
  · rw [if_pos hpts, hpts]
    refine ⟨[], .inl rfl, ?_⟩
    have hsame : rewriteFmtp edit [] = id := rfl
    rw [hsame, map_id, append_nil]
  · rw [if_neg hpts, lines_rejoin, closed]
    · split
      · exact ⟨[], .inl rfl, (append_nil _).symm⟩
      · exact ⟨[[]], .inr rfl, rfl⟩
    · exact fun hnil => lines_ne_nil eol sdp (map_eq_nil_iff.mp hnil)
    · intro line hin
      obtain ⟨old, hold, rfl⟩ := mem_map.mp hin
      have hline := lines_whole eol sdp old hold
      rcases rewriteFmtp_cases edit (payloadTypes isTarget (lines eol sdp)) old with
        ⟨-, -, -, heq⟩ | ⟨-, heq⟩
      · rw [heq]
        exact hwhole eol old hline
      · rw [heq]
        exact hline

/-- A payload type ends at the blank. -/
theorem fmtpPrefix_inj {pt pt' params params' : Text} (hpt : ' ' ∉ pt) (hpt' : ' ' ∉ pt')
    (h : fmtpPrefix pt ++ params = fmtpPrefix pt' ++ params') : pt = pt' ∧ params = params' := by
  unfold fmtpPrefix at h
  rw [append_assoc, append_assoc, append_assoc, append_assoc] at h
  have hrest : pt ++ ' ' :: params = pt' ++ ' ' :: params' := append_cancel_left h
  obtain ⟨v, rfl, hv⟩ := append_cons_eq_append hpt' hrest
  cases v with
  | nil => exact ⟨append_nil _, (List.cons.inj hv).2⟩
  | cons c v =>
    have hc : c = ' ' := (List.cons.inj hv).1
    rw [hc] at hpt
    exact absurd (mem_append_right _ mem_cons_self) hpt

/-- The promise for each format line by itself. -/
theorem formatsHave_iff (hwhole : ∀ eol line, Whole eol line → Whole eol (edit line))
    (hkey : ∀ line, fmtpKey <+: line → fmtpKey <+: edit line) (sdp : Text) :
    FormatsHave isTarget P sdp (mungeFmtp isTarget edit sdp) ↔
      EachFormat isTarget (fun pt params => ∃ params',
        edit (fmtpPrefix pt ++ params) = fmtpPrefix pt ++ params' ∧ P params') sdp := by
  obtain ⟨tail, htail, hlines⟩ := lines_mungeFmtp isTarget hwhole sdp
  have hpts : payloadTypes isTarget (lines (detectEol sdp) (mungeFmtp isTarget edit sdp)) =
      payloadTypes isTarget (lines (detectEol sdp) sdp) := by
    have hnone : payloadTypes isTarget tail = [] := by
      rcases htail with rfl | rfl
      · rfl
      · rfl
    unfold payloadTypes at hnone ⊢
    rw [hlines, filterMap_append, hnone, append_nil]
    exact payloadTypes_rewritten isTarget fun pt _ line _ hline => hkey line (fmtp_start hline)
  have hat : ∀ (i : ℕ) (pt line : Text), pt ∈ payloadTypes isTarget (lines (detectEol sdp) sdp) →
      (lines (detectEol sdp) sdp)[i]? = some line → fmtpPrefix pt <+: line →
      (lines (detectEol sdp) (mungeFmtp isTarget edit sdp))[i]? = some (edit line) := by
    intro i pt line hpt hline hpre
    have hlt := (List.getElem?_eq_some_iff.mp hline).1
    rw [hlines, getElem?_append_left (by rw [length_map]; exact hlt), getElem?_map,
      hline, Option.map_some, rewriteFmtp_of_mem edit hpt hpre]
  constructor
  · intro h pt hpt params hin
    obtain ⟨i, hi⟩ := mem_iff_getElem?.mp hin
    have hedited := hat i pt _ hpt hi (prefix_append _ _)
    obtain ⟨line', hline', hpre⟩ := h.kept i pt hpt _ hi (prefix_append _ _)
    obtain rfl : edit (fmtpPrefix pt ++ params) = line' :=
      Option.some.inj (hedited.symm.trans hline')
    obtain ⟨params', hparams'⟩ := hpre
    refine ⟨params', hparams'.symm, h.every pt ?_ params' ?_⟩
    · rw [hpts]
      exact hpt
    · rw [hparams']
      exact mem_of_getElem? hedited
  · intro h
    refine ⟨fun pt hpt params' hin => ?_, fun i pt hpt line hline hpre => ?_⟩
    · rw [hpts] at hpt
      rw [hlines, mem_append] at hin
      rcases hin with hin | hin
      · obtain ⟨old, hold, hnew⟩ := mem_map.mp hin
        rcases rewriteFmtp_cases edit (payloadTypes isTarget (lines (detectEol sdp) sdp)) old with
          ⟨pt', hpt', ⟨params, rfl⟩, heq⟩ | ⟨hnone, heq⟩
        · obtain ⟨params'', hedit, hP⟩ := h pt' hpt' params hold
          have hsame := fmtpPrefix_inj (space_not_mem_payloadType hpt')
            (space_not_mem_payloadType hpt) (hedit.symm.trans (heq.symm.trans hnew))
          exact hsame.2 ▸ hP
        · rw [heq] at hnew
          rw [hnew] at hnone
          exact absurd (prefix_append _ _) (hnone pt hpt)
      · -- the line that was added is empty
        rcases htail with rfl | rfl
        · cases hin
        · have hnil := mem_singleton.mp hin
          exact absurd hnil (append_ne_nil_of_left_ne_nil
            (append_ne_nil_of_right_ne_nil _ (cons_ne_nil _ _)) _)
    · obtain ⟨params, rfl⟩ := hpre
      obtain ⟨params', hedit, -⟩ := h pt hpt params (mem_of_getElem? hline)
      refine ⟨_, hat i pt _ hpt hline (prefix_append _ _), ?_⟩
      rw [hedit]
      exact prefix_append _ _

theorem eachFormat_congr {Q R : Text → Text → Prop} {sdp : Text}
    (h : ∀ pt params, ' ' ∉ pt → (Q pt params ↔ R pt params)) :
    EachFormat isTarget Q sdp ↔ EachFormat isTarget R sdp := by
  unfold EachFormat
  refine forall_congr' fun pt => forall_congr' fun hpt => forall_congr' fun params => ?_
  rw [h pt params (space_not_mem_payloadType hpt)]

end Edit

/-! ## Parameters -/

variable {name param params pt value rest before : Text}

theorem paramsNamed_append (params : Text) (hsemi : ';' ∉ param) (hname : paramName param = name) :
    paramsNamed name (params ++ ';' :: param) = paramsNamed name params ++ [param] := by
  have hkeep : [param].filter (fun p => decide (paramName p = name)) = [param] :=
    filter_cons_of_pos (by simp [hname])
  rw [paramsNamed, splitOn_append_cons_self, filter_append,
    splitOn_eq_singleton hsemi, hkeep, paramsNamed]

/-- The value of a start bitrate, blanks before its name aside. -/
theorem paramValue_blank {blank : Text} (h : ∀ c ∈ blank, isWhitespace c = true) (value : Text) :
    paramValue (blank ++ (startBitrateKey ++ value)) = value := by
  have hname : ∀ c ∈ blank ++ startBitrateName, decide (c ≠ '=') = true := by
    intro c hin
    rw [decide_eq_true_eq]
    intro hc
    rw [hc, mem_append] at hin
    rcases hin with hblank | hkey
    · exact absurd (h '=' hblank) (by decide)
    · exact absurd hkey (by decide)
  unfold paramValue
  rw [startBitrateKey_eq, append_assoc, ← append_assoc blank,
    dropWhile_append_of_pos hname, singleton_append,
    dropWhile_cons_of_neg (by decide)]
  rfl

/-! ## Stereo -/

theorem addStereo_whole (eol : Eol) (line : Text) (h : Whole eol line) :
    Whole eol (addStereo line) := by
  rcases addStereo_cases line with heq | heq
  · rw [heq]
    exact h
  · rw [heq]
    exact h.append (by cases eol <;> decide) (whole_of_not_mem (by decide))

/-- A parameter is added unless the text of its name is there. -/
theorem addStereo_asks (pt params : Text) :
    (∃ params', addStereo (fmtpPrefix pt ++ params) = fmtpPrefix pt ++ params' ∧
      paramsNamed stereoName params' ≠ []) ↔ StereoNamed pt params := by
  unfold StereoNamed addStereo
  by_cases hin : stereoKey <:+: fmtpPrefix pt ++ params
  · rw [if_pos hin]
    constructor
    · rintro ⟨params', heq, hnamed⟩ -
      rw [append_cancel_left heq]
      exact hnamed
    · intro h
      exact ⟨params, rfl, h hin⟩
  · rw [if_neg hin]
    refine iff_of_true ⟨params ++ ';' :: (stereoKey ++ ['1']), append_assoc _ _ _, ?_⟩
      fun hbad => absurd hbad hin
    rw [paramsNamed_append params (by decide) (by decide)]
    exact append_ne_nil_of_right_ne_nil _ (cons_ne_nil _ _)

theorem stereo_iff (sdp : Text) :
    FormatsHave isOpus (paramsNamed stereoName · ≠ []) sdp (mungeStereoForAudio sdp) ↔
      EachFormat isOpus StereoNamed sdp := by
  unfold mungeStereoForAudio
  rw [formatsHave_iff addStereo_whole (fun line h => h.trans (prefix_addStereo line)) sdp]
  exact eachFormat_congr fun pt params _ => addStereo_asks pt params

/-! ## The start bitrate -/

theorem startBitrateKey_cons : ∃ tail, startBitrateKey = 'x' :: tail ∧ '\n' ∉ tail :=
  ⟨startBitrateKey.tail, by decide, by decide⟩

theorem newline_not_mem_value (k : UInt32) : '\n' ∉ startBitrateKey ++ decimal k :=
  not_mem_value k (by decide) (by decide)

theorem setStartBitrate_whole (k : UInt32) (eol : Eol) (line : Text) (h : Whole eol line) :
    Whole eol (setStartBitrate k line) := by
  have hsemi : ';' ∉ eol.text := by cases eol <;> decide
  cases hfind : find startBitrateKey line with
  | none =>
    rw [setStartBitrate_append k (find_eq_none.mp hfind)]
    exact h.append hsemi (whole_of_not_mem (newline_not_mem_value k))
  | some pos =>
    obtain ⟨before, value, rest, rfl, -, hfirst, hvalue, hrest⟩ := exists_value hfind
    rw [setStartBitrate_replace k hfirst hvalue hrest]
    -- the line is cut at the first character of the name and at the end of the value
    obtain ⟨tail, htail, hnot⟩ := startBitrateKey_cons
    have hx : 'x' ∉ eol.text := by cases eol <;> decide
    have hbefore : Whole eol before := by
      intro hin
      apply h
      rw [append_assoc]
      exact infix_append_of_infix_left hin
    have hdigits : '\n' ∉ tail ++ decimal k := by
      intro hin
      apply newline_not_mem_value k
      rw [htail, cons_append]
      exact mem_cons_of_mem _ hin
    rw [htail, append_assoc, cons_append, ← append_assoc tail]
    apply hbefore.append hx
    rcases hrest with hnil | ⟨more, rfl⟩
    · rw [hnil, append_nil]
      exact whole_of_not_mem hdigits
    · apply (whole_of_not_mem hdigits).append hsemi
      intro hin
      apply h
      rw [← append_assoc]
      exact infix_append_of_infix_right (infix_cons_iff.mpr (.inr hin))

theorem setStartBitrate_key (k : UInt32) (line : Text) (h : fmtpKey <+: line) :
    fmtpKey <+: setStartBitrate k line := by
  cases hfind : find startBitrateKey line with
  | none =>
    rw [setStartBitrate_append k (find_eq_none.mp hfind)]
    exact h.trans (prefix_append _ _)
  | some pos =>
    obtain ⟨before, value, rest, rfl, -, hfirst, hvalue, hrest⟩ := exists_value hfind
    rw [setStartBitrate_replace k hfirst hvalue hrest]
    obtain ⟨tail, htail, -⟩ := startBitrateKey_cons
    have hbefore : fmtpKey <+: before := by
      rw [htail, append_assoc, cons_append] at h
      exact prefix_of_append_cons (by decide) h
    rw [append_assoc]
    exact hbefore.trans (prefix_append _ _)

theorem paramsNamed_of_fields {fields more : List Text}
    (h : params.splitOn ';' = fields ++ param :: more) :
    paramsNamed name params = fields.filter (paramName · = name) ++
      ((if paramName param = name then [param] else []) ++ more.filter (paramName · = name)) := by
  rw [paramsNamed, h, filter_append]
  by_cases hname : paramName param = name
  · rw [if_pos hname, filter_cons_of_pos (by simp [hname])]
    rfl
  · rw [if_neg hname, filter_cons_of_neg (by simp [hname])]
    rfl

/-- A list around an element has no other. -/
theorem around_eq_singleton {α : Type} {before after : List α} {a b : α}
    (h : before ++ ([a] ++ after) = [b]) : before = [] ∧ after = [] ∧ a = b := by
  cases before with
  | nil =>
    obtain ⟨rfl, rfl⟩ := List.cons.inj h
    exact ⟨rfl, rfl, rfl⟩
  | cons c before =>
    have hlen := congrArg List.length h
    rw [length_append, length_append, length_cons, length_singleton,
      length_singleton] at hlen
    omega

/-- Where the name first occurs among the parameters: the parameter it is in has this name if only
blanks are before it, and then it is the one whose value is set; else nothing of this name
changes. -/
theorem replace_asks {start : Text} (k : UInt32)
    (hfirst : First startBitrateKey (fmtpPrefix pt ++ start)) (hvalue : ';' ∉ value)
    (hrest : EndsParam rest) :
    HasOnly startBitrateName (decimal k) (start ++ startBitrateKey ++ (decimal k ++ rest)) ↔
      ∃ param, paramsNamed startBitrateName (start ++ startBitrateKey ++ (value ++ rest)) =
          [param] ∧
        (StartsParam pt (fmtpPrefix pt ++ (start ++ startBitrateKey ++ (value ++ rest))) ∨
          paramValue param = decimal k) := by
  obtain ⟨fields, last, more, hstart, hold, hnew⟩ := splitOn_edited start hvalue hrest k
  have hline : fmtpPrefix pt ++ (start ++ startBitrateKey ++ (value ++ rest)) =
      fmtpPrefix pt ++ start ++ startBitrateKey ++ (value ++ rest) := by
    simp only [append_assoc]
  have hblank : StartsParam pt (fmtpPrefix pt ++ (start ++ startBitrateKey ++ (value ++ rest))) ↔
      ∀ c ∈ last, isWhitespace c = true := by
    rw [hline]
    constructor
    · intro h
      obtain ⟨params, hparams, hblank⟩ := h.exists_before hfirst (by
        rw [append_assoc, append_assoc]
        exact prefix_append _ _)
      rw [← append_cancel_left hparams, hstart] at hblank
      exact hblank last getLast?_concat
    · intro hblank pos hpos
      obtain rfl := Option.some.inj ((find_append hfirst _).symm.trans hpos)
      refine ⟨by rw [length_append]; omega, fun param hlast => ?_⟩
      rw [append_assoc _ startBitrateKey, take_left, drop_left, hstart,
        getLast?_concat] at hlast
      rw [← Option.some.inj hlast]
      exact hblank
  unfold HasOnly
  rw [hblank, paramsNamed_of_fields hold, paramsNamed_of_fields hnew]
  by_cases hall : ∀ c ∈ last, isWhitespace c = true
  · rw [if_pos (paramName_blank hall _), if_pos (paramName_blank hall _)]
    constructor
    · rintro ⟨param, hparam, -⟩
      obtain ⟨hbefore, hafter, -⟩ := around_eq_singleton hparam
      rw [hbefore, hafter]
      exact ⟨_, rfl, .inl hall⟩
    · rintro ⟨param, hparam, -⟩
      obtain ⟨hbefore, hafter, -⟩ := around_eq_singleton hparam
      rw [hbefore, hafter]
      exact ⟨_, rfl, paramValue_blank hall (decimal k)⟩
  · -- the first key stands after this piece, so the piece has another name
    have hnot : ¬ startBitrateKey <:+: last := by
      intro hin
      apply hfirst.not_infix (by decide)
      exact hin.trans ((suffix_of_splitOn hstart).isInfix.trans (suffix_append _ _).isInfix)
    have hsome : ∃ c ∈ last, isWhitespace c = false := by
      push Not at hall
      obtain ⟨c, hin, hc⟩ := hall
      exact ⟨c, hin, by simpa using hc⟩
    rw [if_neg (paramName_not_blank hnot hsome _), if_neg (paramName_not_blank hnot hsome _)]
    constructor
    · rintro ⟨param, hparam, hset⟩
      exact ⟨param, hparam, .inr hset⟩
    · rintro ⟨param, hparam, hset⟩
      exact ⟨param, hparam, hset.resolve_left hall⟩

theorem blank_mem_of_inside {x : Text} (hline : before ++ x = fmtpPrefix pt ++ params)
    (hinside : before.length < (fmtpPrefix pt).length) : ' ' ∈ x := by
  obtain ⟨z, -, hx⟩ := exists_inside hline hinside
  rw [hx]
  exact mem_append_right _ mem_cons_self

theorem decimal_eq_of_prefix {k : UInt32} (hvalue : ';' ∉ value) (hrest : EndsParam rest)
    (h : decimal k ++ [';'] <+: value ++ rest) : decimal k = value := by
  obtain ⟨r, hr⟩ := h
  rw [append_assoc, singleton_append] at hr
  obtain ⟨v, hv, hsemi⟩ := append_cons_eq_append hvalue hr
  cases v with
  | nil => rw [hv, append_nil]
  | cons c v =>
    have hc : c = ';' := by
      rcases hrest with hnil | ⟨more, rfl⟩
      · rw [hnil] at hsemi
        cases hsemi
      · exact (List.cons.inj hsemi).1
    have hin : ';' ∈ decimal k := by
      rw [hv, hc]
      exact mem_append_right _ mem_cons_self
    exact absurd (digit_of_mem_decimal hin) (by decide)

/-- Where the name first occurs in the payload type, the line stays the same or is of another
payload type. -/
theorem inside_asks (k : UInt32) (hspace : ' ' ∉ pt)
    (hline : before ++ startBitrateKey ++ (value ++ rest) = fmtpPrefix pt ++ params)
    (hfirst : First startBitrateKey before) (hvalue : ';' ∉ value) (hrest : EndsParam rest)
    (hinside : before.length < (fmtpPrefix pt).length) :
    (∃ params', before ++ startBitrateKey ++ (decimal k ++ rest) = fmtpPrefix pt ++ params' ∧
        HasOnly startBitrateName (decimal k) params') ↔
      ∃ param, paramsNamed startBitrateName params = [param] ∧
        (StartsParam pt (fmtpPrefix pt ++ params) ∨
          paramValue param = decimal k ∧ PayloadTypeKept k pt params) := by
  have hfind : find startBitrateKey (fmtpPrefix pt ++ params) = some before.length := by
    rw [← hline]
    exact find_append hfirst _
  have hstarts : ¬ StartsParam pt (fmtpPrefix pt ++ params) := by
    intro h
    have hle := (h before.length hfind).1
    omega
  have hdrop : (fmtpPrefix pt ++ params).drop (before.length + startBitrateKey.length) =
      value ++ rest := by
    rw [← hline, ← length_append, drop_left]
  constructor
  · rintro ⟨params', hkept, param, hparam, hset⟩
    have hsame : decimal k = value := by
      by_contra hne
      have hle := length_le_of_kept hspace hvalue hrest hne hline hkept
      omega
    rw [hsame, hline] at hkept
    refine ⟨param, ?_, .inr ⟨hset, ?_⟩⟩
    · rw [append_cancel_left hkept]
      exact hparam
    · intro pos hpos _
      obtain rfl := Option.some.inj (hfind.symm.trans hpos)
      rw [hdrop, hsame]
      rcases hrest with hnil | ⟨more, rfl⟩
      · -- the blank after the payload type would be in the value
        rw [hnil, append_nil, append_assoc, ← hsame] at hline
        have hblank := blank_mem_of_inside hline hinside
        exact absurd hblank (not_mem_value k (by decide) (by decide))
      · exact ⟨more, by rw [append_assoc]; rfl⟩
  · rintro ⟨param, hparam, hset⟩
    obtain ⟨hset, hkept⟩ := hset.resolve_left hstarts
    have hvalueAt := hkept before.length hfind hinside
    rw [hdrop] at hvalueAt
    have hsame := decimal_eq_of_prefix hvalue hrest hvalueAt
    exact ⟨params, by rw [hsame, hline], param, hparam, hset⟩

theorem setStartBitrate_asks (params : Text) (k : UInt32) (hspace : ' ' ∉ pt) :
    (∃ params', setStartBitrate k (fmtpPrefix pt ++ params) = fmtpPrefix pt ++ params' ∧
        HasOnly startBitrateName (decimal k) params') ↔ StartBitrateNamed k pt params := by
  unfold StartBitrateNamed
  cases hfind : find startBitrateKey (fmtpPrefix pt ++ params) with
  | none =>
    have hnot := find_eq_none.mp hfind
    rw [if_neg hnot, setStartBitrate_append k hnot, append_assoc]
    have hname := paramName_blank (fun c hc => absurd hc not_mem_nil) (decimal k)
    have hadded := paramsNamed_append params (semicolon_not_mem_value k) hname
    constructor
    · rintro ⟨params', hparams', param, hparam, -⟩
      rw [← append_cancel_left hparams'] at hparam
      have hlist := hadded.symm.trans hparam
      rw [append_eq_singleton_iff] at hlist
      rcases hlist with ⟨hnil, -⟩ | ⟨-, hnil⟩
      · exact hnil
      · cases hnil
    · intro hnil
      refine ⟨_, rfl, startBitrateKey ++ decimal k, ?_,
        paramValue_blank (fun c hc => absurd hc not_mem_nil) (decimal k)⟩
      exact hadded.trans (by rw [hnil]; rfl)
  | some pos =>
    have hin : startBitrateKey <:+: fmtpPrefix pt ++ params := by
      by_contra hnot
      rw [find_eq_none.mpr hnot] at hfind
      cases hfind
    rw [if_pos hin]
    obtain ⟨before, value, rest, hline, -, hfirst, hvalue, hrest⟩ := exists_value hfind
    rw [hline, setStartBitrate_replace k hfirst hvalue hrest, ← hline]
    by_cases hinside : before.length < (fmtpPrefix pt).length
    · exact inside_asks k hspace hline.symm hfirst hvalue hrest hinside
    · obtain ⟨start, rfl⟩ : fmtpPrefix pt <+: before := by
        refine prefix_of_prefix_length_le ⟨params, hline⟩ ?_ (Nat.not_lt.mp hinside)
        rw [append_assoc]
        exact prefix_append _ _
      have hkept : PayloadTypeKept k pt params := by
        intro pos' hpos' hbad
        rw [hline] at hpos'
        obtain rfl := Option.some.inj ((find_append hfirst _).symm.trans hpos')
        exact absurd hbad hinside
      obtain rfl : params = start ++ startBitrateKey ++ (value ++ rest) := by
        rw [append_assoc, append_assoc, ← append_assoc start] at hline
        exact append_cancel_left hline
      simp only [hkept, and_true]
      rw [← replace_asks k hfirst hvalue hrest]
      simp only [append_assoc]
      constructor
      · rintro ⟨params', hparams', hset⟩
        rw [append_cancel_left hparams']
        exact hset
      · intro hset
        exact ⟨_, rfl, hset⟩

theorem bitrate_iff (sdp : Text) (k : UInt32) :
    FormatsHave isVp9OrAv1 (HasOnly startBitrateName (decimal k)) sdp
        (mungeXGoogleStartBitrate sdp k) ↔
      EachFormat isVp9OrAv1 (StartBitrateNamed k) sdp := by
  unfold mungeXGoogleStartBitrate
  rw [formatsHave_iff (setStartBitrate_whole k) (setStartBitrate_key k) sdp]
  exact eachFormat_congr fun pt params hspace => setStartBitrate_asks params k hspace

/-- The result asks for stereo and for the start bitrate if and only if each format line that has
the text of the name has a parameter of this name, which is the one that the text is first in. -/
theorem asksFor_iff (sdp : Text) (startBitrateKbps : UInt32) :
    AsksFor sdp startBitrateKbps ↔ EachFormat isOpus StereoNamed sdp ∧
      EachFormat isVp9OrAv1 (StartBitrateNamed startBitrateKbps) sdp := by
  rw [← stereo_iff, ← bitrate_iff]
  exact ⟨fun h => ⟨h.stereo, h.bitrate⟩, fun h => ⟨h.1, h.2⟩⟩

/-- An Opus format that says of the sender that it sends stereo. -/
def spropStereo : Text := "a=rtpmap:111 opus/48000/2\na=fmtp:111 sprop-stereo=1\n".toList

/-- It is not asked for stereo. -/
theorem spropStereo_keeps_mono : ¬ ∀ sdp startBitrateKbps, AsksFor sdp startBitrateKbps := by
  intro h
  apply (h spropStereo 0).stereo.every "111".toList (by decide +kernel) "sprop-stereo=1".toList
    (by decide +kernel)
  decide +kernel

end LiveKit.PeerTransport.Munge
