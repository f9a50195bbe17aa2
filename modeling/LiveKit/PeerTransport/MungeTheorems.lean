import LiveKit.PeerTransport.Munge
import Mathlib.Data.List.Chain
import Mathlib.Data.List.TakeWhile

/-!
# Session descriptions are edited minimally

The lines of the result are the rewritten lines, with one empty line more where the text lacked its
final line ending: that gives the same ending and the same lines again to the next edit. What an
edit does is then a matter of one line. The start bitrate is looked for anywhere in its line, so
the edit is minimal exactly where the name, when the line has it, begins a parameter.
-/

namespace LiveKit.PeerTransport.Munge

open List Option TextSearch

/-! ## Lines and line endings -/

theorem Eol.text_ne_nil (eol : Eol) : eol.text ≠ [] := by cases eol <;> exact cons_ne_nil _ _

variable {eol : Eol} {line : Text}

theorem Clean.not_mem (h : Clean eol line) : '\n' ∉ line := by
  cases eol with
  | lf => exact h.1
  | crlf => exact h

/-- A line that the line ending does not cut. -/
def Whole (eol : Eol) (line : Text) : Prop := ¬ eol.text <:+: line

theorem Clean.whole (h : Clean eol line) : Whole eol line := by
  intro hin
  apply h.not_mem
  apply hin.subset
  cases eol with
  | lf => exact mem_singleton_self _
  | crlf => exact mem_cons_of_mem _ (mem_singleton_self _)

/-- The line ending of a line is where the next line starts. -/
theorem Whole.first (h : Whole eol line) : First eol.text line := by
  cases eol with
  | lf =>
    show First ([] ++ ['\n']) line
    exact first_of_last not_mem_nil fun hin => h ((singleton_infix_iff _ _).mpr hin)
  | crlf =>
    intro j hj hpre
    obtain ⟨r, hr⟩ := hpre
    by_cases hfit : j + 1 < line.length
    · apply h
      have hin : ['\r', '\n'] <+: line.drop j := by
        refine prefix_of_prefix_length_le ⟨r, hr⟩ ?_ ?_
        · rw [drop_append_of_le_length (by omega)]
          exact prefix_append _ _
        · show 2 ≤ (line.drop j).length
          rw [length_drop]
          omega
      exact hin.isInfix.trans (drop_suffix j line).isInfix
    · -- the second character would be the first of the line ending
      have hat : (line ++ ['\r', '\n'])[j + 1]? = some '\n' := by
        have hget := congrArg (fun l => l[1]?) hr
        simp only [Eol.text, getElem?_drop] at hget
        exact hget.symm
      rw [show j + 1 = line.length by omega, getElem?_append_right (Nat.le_refl _),
        Nat.sub_self] at hat
      exact absurd (some.inj hat) (by decide)

/-- No line of a text contains the line end it was split at. -/
theorem lines_whole (eol : Eol) (sdp : Text) : ∀ line ∈ lines eol sdp, Whole eol line :=
  fun _ hin => not_infix_of_mem_split eol.text_ne_nil hin

theorem clean_nil (eol : Eol) : Clean eol [] := by cases eol <;> decide

/-- A line stays clean when characters that end no line follow it. -/
theorem Clean.append {x : Text} (h : Clean eol line) (hlf : '\n' ∉ x) (hcr : '\r' ∉ x) :
    Clean eol (line ++ x) := by
  have hnot : '\n' ∉ line ++ x := by
    rw [mem_append, not_or]
    exact ⟨h.not_mem, hlf⟩
  cases eol with
  | crlf => exact hnot
  | lf =>
    refine ⟨hnot, fun hlast => ?_⟩
    rw [getLast?_append, or_eq_some_iff] at hlast
    cases hlast with
    | inl hin => exact hcr (mem_of_getLast? hin)
    | inr hin => exact h.2 hin.2

theorem clean_append_iff {x : Text} (hx : x ≠ []) :
    Clean eol (line ++ x) ↔ '\n' ∉ line ∧ Clean eol x := by
  cases eol with
  | lf => rw [Clean, Clean, mem_append, not_or, getLast?_append_of_ne_nil _ hx, and_assoc]
  | crlf => rw [Clean, Clean, mem_append, not_or]

theorem lines_ne_nil (eol : Eol) (sdp : Text) : lines eol sdp ≠ [] := split_ne_nil _ _

/-- Joining the lines of a text with their line end gives the text back. -/
theorem join_lines (eol : Eol) (sdp : Text) : eol.text.intercalate (lines eol sdp) = sdp :=
  intercalate_split eol.text_ne_nil sdp

variable {ls : List Text}

/-- Lines that are joined are split into the same lines. -/
theorem lines_join (hne : ls ≠ []) (hwhole : ∀ line ∈ ls, Whole eol line) :
    lines eol (eol.text.intercalate ls) = ls :=
  split_intercalate eol.text_ne_nil hne fun line hin => (hwhole line hin).first

/-- No line ending of lines that end in LF is a CR LF. -/
theorem isChain_of_clean (h : ∀ line ∈ ls, Clean .lf line) :
    (Eol.lf.text.intercalate ls).IsChain fun a b => ¬ (a = '\r' ∧ b = '\n') := by
  have hline : ∀ line ∈ ls, line.IsChain fun a b => ¬ (a = '\r' ∧ b = '\n') := by
    intro line hin
    have hpair : line.Pairwise fun a b => ¬ (a = '\r' ∧ b = '\n') :=
      pairwise_of_forall_mem_list fun a _ b hb hab => (h line hin).1 (hab.2 ▸ hb)
    exact hpair.isChain
  induction ls with
  | nil => exact isChain_nil
  | cons l ls ih =>
    have hl := hline l mem_cons_self
    cases ls with
    | nil =>
      rw [intercalate_singleton]
      exact hl
    | cons l' ls =>
      have hrest := ih (fun m hm => h m (mem_cons_of_mem _ hm))
        fun m hm => hline m (mem_cons_of_mem _ hm)
      rw [intercalate_cons_cons, append_assoc]
      refine isChain_append.mpr ⟨hl, ?_, ?_⟩
      · refine isChain_append.mpr ⟨isChain_singleton _, hrest, ?_⟩
        intro a ha b hb hab
        have hlf : a = '\n' := by simpa [Eol.text] using ha.symm
        exact absurd (hlf.symm.trans hab.1) (by decide)
      · intro a ha b hb hab
        exact (h l mem_cons_self).2 (by rw [← hab.1]; exact ha)

variable {sdp : Text}

/-- The edits take a text to use the line ending that it uses. -/
theorem SameEol.detect (h : SameEol eol sdp) : detectEol sdp = eol := by
  cases eol with
  | lf =>
    have hchain := isChain_of_clean h.clean
    rw [join_lines] at hchain
    refine if_neg fun hin => ?_
    have hpair := hchain.infix hin
    rw [Eol.text, isChain_pair] at hpair
    exact hpair ⟨rfl, rfl⟩
  | crlf =>
    refine if_pos ?_
    by_contra hnot
    have htwo := h.ends rfl
    rw [lines, split_of_not_infix hnot, length_singleton] at htwo
    omega

/-! ## Joining the lines again -/

/-- The lines with an empty one at the end, after the final line ending. -/
def closed (ls : List Text) : List Text :=
  if ls.getLast? = some [] ∧ 2 ≤ ls.length then ls else ls ++ [[]]

theorem closed_ne_nil (ls : List Text) : closed ls ≠ [] := by
  rw [closed]
  split
  next h =>
    intro hnil
    rw [hnil] at h
    exact absurd h.1 (by simp)
  next => exact append_ne_nil_of_right_ne_nil _ (cons_ne_nil _ _)

/-- What the empty line and every line satisfy, every closed line satisfies. -/
theorem closed_all {P : Text → Prop} (hnil : P []) (h : ∀ line ∈ ls, P line) :
    ∀ line ∈ closed ls, P line := by
  intro line hin
  rw [closed] at hin
  split at hin
  next => exact h line hin
  next =>
    rw [mem_append, mem_singleton] at hin
    cases hin with
    | inl hin => exact h line hin
    | inr heq =>
      rw [heq]
      exact hnil

/-- Lines that end with the empty one are not given another. -/
theorem closed_closed (hne : ls ≠ []) : closed (closed ls) = closed ls := by
  have hlen := length_pos_of_ne_nil hne
  by_cases h : ls.getLast? = some [] ∧ 2 ≤ ls.length
  · have heq : closed ls = ls := if_pos h
    rw [heq, heq]
  · have heq : closed ls = ls ++ [[]] := if_neg h
    rw [heq]
    refine if_pos ⟨getLast?_concat, ?_⟩
    rw [length_append, length_singleton]
    omega

/-- Closing adds at most one line, and that line is empty and last. -/
theorem length_closed (ls : List Text) :
    (closed ls).length = ls.length ∨
      (closed ls).length = ls.length + 1 ∧ (closed ls).getLast? = some [] := by
  rw [closed]
  split
  next => exact .inl rfl
  next => exact .inr ⟨length_append, getLast?_concat⟩

/-- Closing keeps every line where it was. -/
theorem getElem?_closed {i : ℕ} (h : i < ls.length) : (closed ls)[i]? = ls[i]? := by
  rw [closed]
  split
  next => rfl
  next => exact getElem?_append_left h

/-- A line edit that neither empties a line nor fills an empty one. -/
theorem closed_map {f : Text → Text} (hnil : f [] = [])
    (hf : ∀ line ∈ ls, f line = [] → line = []) : closed (ls.map f) = (closed ls).map f := by
  have hiff : (ls.map f).getLast? = some [] ↔ ls.getLast? = some [] := by
    rw [getLast?_map]
    constructor
    · intro h
      obtain ⟨line, hlast, hline⟩ := map_eq_some_iff.mp h
      rw [hlast, hf line (mem_of_getLast? hlast) hline]
    · intro h
      rw [h, map_some, hnil]
  by_cases h : ls.getLast? = some [] ∧ 2 ≤ ls.length
  · rw [closed, closed, if_pos h, if_pos ⟨hiff.mpr h.1, by rw [length_map]; exact h.2⟩]
  · have hmap : ¬ ((ls.map f).getLast? = some [] ∧ 2 ≤ (ls.map f).length) := by
      rw [hiff, length_map]
      exact h
    rw [closed, closed, if_neg h, if_neg hmap, map_append, map_singleton, hnil]

variable {before : Text}

/-- A line that is not empty does not end in the line ending, not even together with the one before
it. -/
theorem Whole.not_suffix {last : Text} (h : Whole eol last) (hne : last ≠ [])
    (hbefore : before = [] ∨ ∃ start, before = start ++ eol.text) :
    ¬ eol.text <:+ before ++ last := by
  intro hsuf
  have hpos := length_pos_of_ne_nil hne
  by_cases hlong : eol.text.length ≤ last.length
  · exact h (suffix_of_suffix_length_le hsuf (suffix_append _ _) hlong).isInfix
  · cases eol with
    | lf =>
      have hone : Eol.lf.text.length = 1 := rfl
      omega
    | crlf =>
      have htwo : Eol.crlf.text.length = 2 := rfl
      obtain ⟨c, rfl⟩ := length_eq_one_iff.mp (by omega : last.length = 1)
      obtain ⟨r, hr⟩ := hsuf
      have hcut : r ++ ['\r'] ++ ['\n'] = before ++ [c] := by
        rw [append_assoc]
        exact hr
      have hlast := (append_inj' hcut rfl).1
      rcases hbefore with hnil | ⟨start, hstart⟩
      · rw [hnil] at hlast
        exact absurd hlast (append_ne_nil_of_right_ne_nil _ (cons_ne_nil _ _))
      · have hends : r ++ ['\r'] = start ++ ['\r'] ++ ['\n'] := by
          rw [hlast, hstart, append_assoc]
          rfl
        exact absurd (append_inj' hends rfl).2 (by decide)

/-- Only an empty last line leaves the joined text with a line ending at its end. -/
theorem suffix_join (hne : ls ≠ []) (hwhole : ∀ line ∈ ls, Whole eol line) :
    eol.text <:+ eol.text.intercalate ls ↔ ls.getLast? = some [] ∧ 2 ≤ ls.length := by
  obtain ⟨before, last, rfl⟩ : ∃ before last, ls = before ++ [last] :=
    ⟨ls.dropLast, ls.getLast hne, (dropLast_append_getLast hne).symm⟩
  rw [getLast?_concat, some.injEq, length_append, length_singleton]
  have hlast := hwhole last (mem_append_right _ (mem_singleton_self _))
  cases before with
  | nil =>
    rw [nil_append, intercalate_singleton, length_nil]
    refine iff_of_false (fun hsuf => hlast hsuf.isInfix) fun h => ?_
    omega
  | cons b bs =>
    rw [intercalate_concat _ _ (cons_ne_nil b bs), length_cons]
    constructor
    · intro hsuf
      refine ⟨?_, by omega⟩
      by_contra hcons
      exact hlast.not_suffix hcons (.inr ⟨_, rfl⟩) hsuf
    · intro h
      rw [h.1, append_nil]
      exact suffix_append _ _

/-- `rejoin` joins the lines, and ends the last one. -/
theorem rejoin_eq (hne : ls ≠ []) (hwhole : ∀ line ∈ ls, Whole eol line) :
    rejoin eol ls = eol.text.intercalate (closed ls) := by
  have hiff := suffix_join hne hwhole
  rw [rejoin, closed]
  by_cases h : ls.getLast? = some [] ∧ 2 ≤ ls.length
  · rw [if_pos h, if_pos (hiff.mpr h)]
  · rw [if_neg h, if_neg fun hsuf => h (hiff.mp hsuf), intercalate_concat _ _ hne, append_nil]

theorem whole_nil (eol : Eol) : Whole eol [] := (clean_nil eol).whole

/-- The lines of what was joined. -/
theorem lines_rejoin (hne : ls ≠ []) (hwhole : ∀ line ∈ ls, Whole eol line) :
    lines eol (rejoin eol ls) = closed ls := by
  rw [rejoin_eq hne hwhole, lines_join (closed_ne_nil ls) (closed_all (whole_nil eol) hwhole)]

/-- Rejoining does not see whether the lines were closed before. -/
theorem rejoin_closed (hne : ls ≠ []) (hwhole : ∀ line ∈ ls, Whole eol line) :
    rejoin eol (closed ls) = rejoin eol ls := by
  rw [rejoin_eq (closed_ne_nil ls) (closed_all (whole_nil eol) hwhole), rejoin_eq hne hwhole,
    closed_closed hne]

/-- The lines of an edit: as many as the text has, each clean, and the others unchanged. -/
structure LineEdit (eol : Eol) (Target : ℕ → Prop) (sdp : Text) (out : List Text) : Prop where
  length_eq : out.length = (lines eol sdp).length
  clean : ∀ line ∈ out, Clean eol line
  untouched : ∀ i < (lines eol sdp).length, ¬ Target i → out[i]? = (lines eol sdp)[i]?

namespace LineEdit

variable {eol : Eol} {Target : ℕ → Prop} {sdp : Text} {out : List Text}

section

variable (h : LineEdit eol Target sdp out)

include h

/-- An edit leaves no text without lines. -/
theorem ne_nil : out ≠ [] := by
  have hlen := length_pos_of_ne_nil (lines_ne_nil eol sdp)
  rw [← h.length_eq] at hlen
  exact ne_nil_of_length_pos hlen

theorem whole : ∀ line ∈ out, Whole eol line :=
  fun line hin => (h.clean line hin).whole

/-- Splitting a rejoined text gives the closed lines back. -/
theorem lines_eq : lines eol (rejoin eol out) = closed out :=
  lines_rejoin h.ne_nil h.whole

/-- An edit keeps the line ending. -/
theorem same_eol (hsdp : SameEol eol sdp) :
    SameEol eol (rejoin eol out) where
  clean := by
    rw [h.lines_eq]
    exact closed_all (clean_nil eol) h.clean
  ends := by
    intro hcrlf
    have htwo := hsdp.ends hcrlf
    have hcount := length_closed out
    rw [h.lines_eq]
    rw [← h.length_eq] at htwo
    omega

/-- An edit of lines is an edit of the text. -/
theorem minimal (hsdp : SameEol eol sdp) :
    MinimalEdit eol Target sdp (rejoin eol out) where
  same_eol := h.same_eol hsdp
  count := by
    rw [h.lines_eq, ← h.length_eq]
    exact length_closed out
  untouched := by
    intro i hi hnot
    rw [h.lines_eq, getElem?_closed (by rw [h.length_eq]; exact hi)]
    exact h.untouched i hi hnot

end

end LineEdit

/-- To change nothing is a minimal edit. -/
theorem SameEol.minimal (h : SameEol eol sdp) (Target : ℕ → Prop) :
    MinimalEdit eol Target sdp sdp := ⟨h, .inl rfl, fun _ _ _ => rfl⟩

/-! ## Directions -/

/-- The section that the lines end in is that of their last media line. -/
theorem foldl_enterSection (inRtp : Bool) (before : List Text) :
    before.foldl enterSection inRtp = ((before.filter isMediaLine).getLast?).elim inRtp isRtp := by
  induction before using List.reverseRecOn with
  | nil => rfl
  | append_singleton before line ih =>
    rw [foldl_append, foldl_cons, foldl_nil, ih, enterSection, filter_append]
    by_cases h : isMediaLine line = true
    · rw [if_pos h, filter_cons_of_pos h, filter_nil, getLast?_concat]
      rfl
    · rw [if_neg h, filter_cons_of_neg h, filter_nil, append_nil]

theorem inRtpSection_iff (before : List Text) :
    InRtpSection before ↔ before.foldl enterSection false = true := by
  rw [foldl_enterSection, InRtpSection]
  cases (before.filter isMediaLine).getLast? <;> simp

theorem length_inactiveToRecvonly (inRtp : Bool) (ls : List Text) :
    (inactiveToRecvonly inRtp ls).length = ls.length := by
  induction ls generalizing inRtp with
  | nil => rfl
  | cons line ls ih => rw [inactiveToRecvonly, length_cons, length_cons, ih]

/-- A line is changed if it is in an RTP section and says `a=inactive`. -/
theorem getElem?_inactiveToRecvonly (inRtp : Bool) (ls : List Text) (i : ℕ) :
    (inactiveToRecvonly inRtp ls)[i]? = ls[i]?.map fun line =>
      if (ls.take (i + 1)).foldl enterSection inRtp && trim line == inactive then recvonly
      else line := by
  induction ls generalizing inRtp i with
  | nil => rfl
  | cons line ls ih =>
    rw [inactiveToRecvonly]
    cases i with
    | zero => rfl
    | succ i =>
      rw [getElem?_cons_succ, getElem?_cons_succ, ih, take_succ_cons,
        foldl_cons]

/-- The direction pass keeps lines free of line ends. -/
theorem inactiveToRecvonly_clean (inRtp : Bool) (h : ∀ line ∈ ls, Clean eol line) :
    ∀ line ∈ inactiveToRecvonly inRtp ls, Clean eol line := by
  intro line hin
  obtain ⟨i, hi⟩ := mem_iff_getElem?.mp hin
  rw [getElem?_inactiveToRecvonly] at hi
  obtain ⟨old, hold, hline⟩ := map_eq_some_iff.mp hi
  split at hline
  next =>
    rw [← hline]
    cases eol <;> decide
  next =>
    rw [← hline]
    exact h old (mem_of_getElem? hold)

/-- The direction pass is a line edit that touches inactive lines only. -/
theorem lineEdit_inactiveToRecvonly (h : SameEol eol sdp) :
    LineEdit eol (InactiveLine (lines eol sdp)) sdp
      (inactiveToRecvonly false (lines eol sdp)) where
  length_eq := length_inactiveToRecvonly false _
  clean := inactiveToRecvonly_clean false h.clean
  untouched := by
    intro i hi hnot
    rw [getElem?_inactiveToRecvonly]
    have hat : (lines eol sdp)[i]? = some (lines eol sdp)[i] := getElem?_eq_getElem hi
    rw [hat, map_some]
    split
    next hboth =>
      rw [Bool.and_eq_true, beq_iff_eq] at hboth
      exact absurd ⟨_, hat, hboth.2, (inRtpSection_iff _).mpr hboth.1⟩ hnot
    next => rfl

/-- A line that says `inactive` starts no section. -/
theorem enterSection_inactive {inRtp : Bool} (h : trim line = inactive) :
    enterSection inRtp line = inRtp := by
  have hmedia : isMediaLine line = false := by
    rw [isMediaLine, h]
    decide
  rw [enterSection, hmedia]
  rfl

theorem enterSection_recvonly (inRtp : Bool) : enterSection inRtp recvonly = inRtp := by
  have hmedia : isMediaLine recvonly = false := by decide
  rw [enterSection, hmedia]
  rfl

/-- There is nothing left to change. -/
theorem inactiveToRecvonly_twice (inRtp : Bool) (ls : List Text) :
    inactiveToRecvonly inRtp (inactiveToRecvonly inRtp ls) = inactiveToRecvonly inRtp ls := by
  induction ls generalizing inRtp with
  | nil => rfl
  | cons line ls ih =>
    by_cases h : (enterSection inRtp line && trim line == inactive) = true
    · have hboth := h
      rw [Bool.and_eq_true, beq_iff_eq] at hboth
      have hne : (trim recvonly == inactive) = false := by decide
      rw [inactiveToRecvonly, if_pos h, enterSection_inactive hboth.2, inactiveToRecvonly,
        enterSection_recvonly, ih, hne, Bool.and_false]
      rfl
    · rw [inactiveToRecvonly, if_neg h, inactiveToRecvonly, if_neg h, ih]

/-- An empty last line passes through the direction pass. -/
theorem inactiveToRecvonly_concat (inRtp : Bool) (ls : List Text) :
    inactiveToRecvonly inRtp (ls ++ [[]]) = inactiveToRecvonly inRtp ls ++ [[]] := by
  induction ls generalizing inRtp with
  | nil =>
    have hempty : (trim [] == inactive) = false := by decide
    show [if enterSection inRtp [] && trim [] == inactive then recvonly else []] = [[]]
    rw [hempty, Bool.and_false]
    rfl
  | cons line ls ih => rw [cons_append, inactiveToRecvonly, inactiveToRecvonly, ih]; rfl

/-- The direction is changed in inactive lines and nowhere else. -/
theorem direction_minimal (h : SameEol eol sdp) :
    MinimalEdit eol (InactiveLine (lines eol sdp)) sdp (mungeInactiveToRecvonlyForMedia sdp) := by
  rw [mungeInactiveToRecvonlyForMedia, h.detect]
  exact (lineEdit_inactiveToRecvonly h).minimal h

/-- To change the direction twice is to change it once. -/
theorem direction_twice (h : SameEol eol sdp) :
    mungeInactiveToRecvonlyForMedia (mungeInactiveToRecvonlyForMedia sdp) =
      mungeInactiveToRecvonlyForMedia sdp := by
  have hedit := lineEdit_inactiveToRecvonly h
  have hsame := hedit.same_eol h
  have honce : mungeInactiveToRecvonlyForMedia sdp =
      rejoin eol (inactiveToRecvonly false (lines eol sdp)) := by
    rw [mungeInactiveToRecvonlyForMedia, h.detect]
  have hclosed : inactiveToRecvonly false (closed (inactiveToRecvonly false (lines eol sdp))) =
      closed (inactiveToRecvonly false (lines eol sdp)) := by
    generalize lines eol sdp = ls
    rw [closed]
    split
    next => exact inactiveToRecvonly_twice false ls
    next => rw [inactiveToRecvonly_concat, inactiveToRecvonly_twice]
  rw [honce, mungeInactiveToRecvonlyForMedia, hsame.detect, hedit.lines_eq]
  show rejoin eol (inactiveToRecvonly false _) = _
  rw [hclosed, rejoin_closed hedit.ne_nil hedit.whole]

/-! ## Format lines -/

variable {pt : Text} {pts : List Text}

/-- The parameters of a payload type are edited if it is one of those. -/
theorem rewriteFmtp_of_mem (edit : Text → Text) (hpt : pt ∈ pts) (hpre : fmtpPrefix pt <+: line) :
    rewriteFmtp edit pts line = edit line := by
  induction pts with
  | nil => exact absurd hpt not_mem_nil
  | cons p ps ih =>
    rw [rewriteFmtp]
    split
    next => rfl
    next hnot =>
      refine ih ((mem_cons.mp hpt).resolve_left fun heq => hnot ?_)
      rw [← heq]
      exact hpre

/-- Other lines stay as they are. -/
theorem rewriteFmtp_of_not (edit : Text → Text) (h : ∀ pt ∈ pts, ¬ fmtpPrefix pt <+: line) :
    rewriteFmtp edit pts line = line := by
  induction pts with
  | nil => rfl
  | cons p ps ih =>
    rw [rewriteFmtp, if_neg (h p mem_cons_self)]
    exact ih fun pt hin => h pt (mem_cons_of_mem _ hin)

theorem rewriteFmtp_nil (edit : Text → Text) (pts : List Text) : rewriteFmtp edit pts [] = [] := by
  refine rewriteFmtp_of_not edit fun pt _ hpre => ?_
  rw [prefix_nil] at hpre
  exact append_ne_nil_of_right_ne_nil _ (cons_ne_nil _ _) hpre

theorem fmtpKey_eq : fmtpKey = ['a', '=', 'f', 'm', 't', 'p', ':'] := String.toList_ofList

/-- The text that starts a format line starts no other. -/
theorem not_rtpmap (h : fmtpKey <+: line) : ¬ rtpmapKey <+: trim line := by
  have hstart : trimStart line = line := by
    obtain ⟨rest, hrest⟩ := h
    rw [← hrest, fmtpKey_eq]
    rfl
  have htrim : trim line <+: line := by
    rw [trim, hstart]
    have hsuf := dropWhile_suffix (l := line.reverse) isWhitespace
    rw [← reverse_prefix, reverse_reverse] at hsuf
    exact hsuf
  intro hmap
  cases prefix_or_prefix_of_prefix h (hmap.trans htrim) with
  | inl hin | inr hin => exact absurd hin (by decide +kernel)

/-- A format parameter line names no payload type. -/
theorem payloadType_fmtp (isTarget : Text → Bool) (h : fmtpKey <+: line) :
    payloadType isTarget line = none := by
  rw [payloadType, stripPrefix, if_neg (not_rtpmap h)]
  rfl

theorem fmtp_start (h : fmtpPrefix pt <+: line) : fmtpKey <+: line := by
  rw [fmtpPrefix, append_assoc] at h
  exact (prefix_append fmtpKey _).trans h

/-- An edit of format lines leaves the lines clean. -/
def KeepsClean (eol : Eol) (edit : Text → Text) : Prop :=
  ∀ line, Clean eol line → Clean eol (edit line)

/-- An edit of format lines leaves them format lines of their payload type. -/
def KeepsPrefix (pts ls : List Text) (edit : Text → Text) : Prop :=
  ∀ pt ∈ pts, ∀ line ∈ ls, fmtpPrefix pt <+: line → fmtpPrefix pt <+: edit line

/-- A line is edited if it holds the parameters of a chosen payload type, and kept otherwise. -/
theorem rewriteFmtp_cases (edit : Text → Text) (pts : List Text) (line : Text) :
    (∃ pt ∈ pts, fmtpPrefix pt <+: line ∧ rewriteFmtp edit pts line = edit line) ∨
      (∀ pt ∈ pts, ¬ fmtpPrefix pt <+: line) ∧ rewriteFmtp edit pts line = line := by
  by_cases h : ∃ pt ∈ pts, fmtpPrefix pt <+: line
  · obtain ⟨pt, hpt, hpre⟩ := h
    exact .inl ⟨pt, hpt, hpre, rewriteFmtp_of_mem edit hpt hpre⟩
  · have hnone : ∀ pt ∈ pts, ¬ fmtpPrefix pt <+: line := fun pt hpt hpre => h ⟨pt, hpt, hpre⟩
    exact .inr ⟨hnone, rewriteFmtp_of_not edit hnone⟩

variable {edit : Text → Text}

/-- Rewriting parameters is a line edit that touches parameter lines only. -/
theorem lineEdit_rewriteFmtp (h : SameEol eol sdp) (hclean : KeepsClean eol edit)
    (pts : List Text) :
    LineEdit eol (FmtpLine pts (lines eol sdp)) sdp
      ((lines eol sdp).map (rewriteFmtp edit pts)) where
  length_eq := length_map _
  clean := by
    intro line hin
    obtain ⟨old, hold, rfl⟩ := mem_map.mp hin
    cases rewriteFmtp_cases edit pts old with
    | inl hedit =>
      obtain ⟨pt, -, -, heq⟩ := hedit
      rw [heq]
      exact hclean old (h.clean old hold)
    | inr hsame =>
      rw [hsame.2]
      exact h.clean old hold
  untouched := by
    intro i hi hnot
    have hat : (lines eol sdp)[i]? = some (lines eol sdp)[i] := getElem?_eq_getElem hi
    rw [getElem?_map, hat, map_some,
      rewriteFmtp_of_not edit fun pt hpt hpre => hnot ⟨_, hat, pt, hpt, hpre⟩]

section
variable {eol : Eol} {sdp : Text} (h : SameEol eol sdp) (isTarget : Text → Bool)
  {edit : Text → Text}

include h

/-- Without a payload type the text stays as it is. -/
theorem mungeFmtp_of_nil (hpts : payloadTypes isTarget (lines eol sdp) = []) :
    mungeFmtp isTarget edit sdp = sdp := by
  rw [mungeFmtp, h.detect]
  exact if_pos hpts

/-- With a payload type the lines are edited and joined. -/
theorem mungeFmtp_of_ne_nil (hpts : payloadTypes isTarget (lines eol sdp) ≠ []) :
    mungeFmtp isTarget edit sdp = rejoin eol ((lines eol sdp).map
      (rewriteFmtp edit (payloadTypes isTarget (lines eol sdp)))) := by
  rw [mungeFmtp, h.detect]
  exact if_neg hpts

/-- Lines with parameters of the payload types are edited and nothing else. -/
theorem mungeFmtp_minimal (hclean : KeepsClean eol edit) :
    MinimalEdit eol (FmtpLine (payloadTypes isTarget (lines eol sdp)) (lines eol sdp)) sdp
      (mungeFmtp isTarget edit sdp) := by
  by_cases hpts : payloadTypes isTarget (lines eol sdp) = []
  · rw [mungeFmtp_of_nil h isTarget hpts]
    exact h.minimal _
  · rw [mungeFmtp_of_ne_nil h isTarget hpts]
    exact (lineEdit_rewriteFmtp h hclean _).minimal h

/-- What becomes of a target line. -/
theorem mungeFmtp_target (hclean : KeepsClean eol edit) {i : ℕ} {pt line : Text}
    (hpt : pt ∈ payloadTypes isTarget (lines eol sdp)) (hline : (lines eol sdp)[i]? = some line)
    (hpre : fmtpPrefix pt <+: line) :
    (lines eol (mungeFmtp isTarget edit sdp))[i]? = some (edit line) := by
  have hedit := lineEdit_rewriteFmtp h hclean (payloadTypes isTarget (lines eol sdp))
  have hlt : i < (lines eol sdp).length := (List.getElem?_eq_some_iff.mp hline).1
  rw [mungeFmtp_of_ne_nil h isTarget (ne_nil_of_mem hpt), hedit.lines_eq,
    getElem?_closed (by rw [length_map]; exact hlt), getElem?_map, hline,
    map_some, rewriteFmtp_of_mem edit hpt hpre]

end

/-- Closing the lines changes no payload type. -/
theorem payloadTypes_closed (isTarget : Text → Bool) (ls : List Text) :
    payloadTypes isTarget (closed ls) = payloadTypes isTarget ls := by
  rw [closed]
  split
  next => rfl
  next =>
    rw [payloadTypes, filterMap_append]
    exact append_nil _

/-- Edited format lines are still format lines, which map no payload type. -/
theorem payloadTypes_rewritten (isTarget : Text → Bool)
    (hkey : ∀ pt ∈ pts, ∀ line ∈ ls, fmtpPrefix pt <+: line → fmtpKey <+: edit line) :
    payloadTypes isTarget (ls.map (rewriteFmtp edit pts)) = payloadTypes isTarget ls := by
  rw [payloadTypes, filterMap_map]
  apply filterMap_congr
  intro line hin
  show payloadType isTarget (rewriteFmtp edit pts line) = payloadType isTarget line
  cases rewriteFmtp_cases edit pts line with
  | inl hedit =>
    obtain ⟨pt, hpt, hline, heq⟩ := hedit
    rw [heq, payloadType_fmtp isTarget (hkey pt hpt line hin hline),
      payloadType_fmtp isTarget (fmtp_start hline)]
  | inr hsame => rw [hsame.2]

theorem rewriteFmtp_eq_nil (hpre : KeepsPrefix pts ls edit) (hin : line ∈ ls)
    (h : rewriteFmtp edit pts line = []) : line = [] := by
  cases rewriteFmtp_cases edit pts line with
  | inl hedit =>
    obtain ⟨pt, hpt, hline, heq⟩ := hedit
    have hnil := hpre pt hpt line hin hline
    rw [← heq, h, prefix_nil] at hnil
    exact absurd hnil (append_ne_nil_of_right_ne_nil _ (cons_ne_nil _ _))
  | inr hsame => rwa [hsame.2] at h

/-- Two edits after each other are the second alone, if they are on each format line. -/
theorem mungeFmtp_mungeFmtp (h : SameEol eol sdp) (isTarget : Text → Bool)
    {first second : Text → Text} (hclean : KeepsClean eol first) (hclean' : KeepsClean eol second)
    (hpre : KeepsPrefix (payloadTypes isTarget (lines eol sdp)) (lines eol sdp) first)
    (hpre' : KeepsPrefix (payloadTypes isTarget (lines eol sdp)) (lines eol sdp) second)
    (hlast : ∀ pt ∈ payloadTypes isTarget (lines eol sdp), ∀ line ∈ lines eol sdp,
      fmtpPrefix pt <+: line → second (first line) = second line) :
    mungeFmtp isTarget second (mungeFmtp isTarget first sdp) = mungeFmtp isTarget second sdp := by
  by_cases hpts : payloadTypes isTarget (lines eol sdp) = []
  · rw [mungeFmtp_of_nil h isTarget hpts]
  · have hedit := lineEdit_rewriteFmtp h hclean (payloadTypes isTarget (lines eol sdp))
    have hedit' := lineEdit_rewriteFmtp h hclean' (payloadTypes isTarget (lines eol sdp))
    have hsame := hedit.same_eol h
    have hlines := hedit.lines_eq
    have hkept : payloadTypes isTarget (lines eol (rejoin eol ((lines eol sdp).map
        (rewriteFmtp first (payloadTypes isTarget (lines eol sdp)))))) =
          payloadTypes isTarget (lines eol sdp) := by
      rw [hlines, payloadTypes_closed, payloadTypes_rewritten isTarget fun pt hpt line hin hline =>
        fmtp_start (hpre pt hpt line hin hline)]
    have hmap :
        ((lines eol sdp).map (rewriteFmtp first (payloadTypes isTarget (lines eol sdp)))).map
        (rewriteFmtp second (payloadTypes isTarget (lines eol sdp))) =
          (lines eol sdp).map (rewriteFmtp second (payloadTypes isTarget (lines eol sdp))) := by
      rw [List.map_map]
      apply map_congr_left
      intro line hin
      show rewriteFmtp second _ (rewriteFmtp first _ line) = rewriteFmtp second _ line
      cases rewriteFmtp_cases first (payloadTypes isTarget (lines eol sdp)) line with
      | inl hcase =>
        obtain ⟨pt, hpt, hline, heq⟩ := hcase
        rw [heq, rewriteFmtp_of_mem second hpt (hpre pt hpt line hin hline),
          rewriteFmtp_of_mem second hpt hline, hlast pt hpt line hin hline]
      | inr hcase => rw [hcase.2]
    rw [mungeFmtp_of_ne_nil h isTarget hpts,
      mungeFmtp_of_ne_nil hsame isTarget (by rw [hkept]; exact hpts), hkept, hlines,
      ← closed_map (rewriteFmtp_nil second _) ?_, hmap, rejoin_closed hedit'.ne_nil hedit'.whole,
      mungeFmtp_of_ne_nil h isTarget hpts]
    -- an edited line that the second edit empties was empty
    intro line hin hnil
    obtain ⟨old, hold, rfl⟩ := mem_map.mp hin
    have hsecond : rewriteFmtp second (payloadTypes isTarget (lines eol sdp)) old = [] := by
      have hcongr := List.map_inj_left.mp (List.map_map ▸ hmap) old hold
      exact hcongr.symm.trans hnil
    rw [rewriteFmtp_eq_nil hpre' hold hsecond, rewriteFmtp_nil]

/-! ## Stereo -/

/-- `stereo=1` is added at the end, or the line stays as it is. -/
theorem addStereo_cases (line : Text) :
    addStereo line = line ∨ addStereo line = line ++ ';' :: (stereoKey ++ ['1']) := by
  rw [addStereo]
  split
  next => exact .inl rfl
  next => exact .inr rfl

/-- Adding the stereo parameter keeps a line clean. -/
theorem addStereo_clean (eol : Eol) : KeepsClean eol addStereo := by
  intro line h
  cases addStereo_cases line with
  | inl heq =>
    rw [heq]
    exact h
  | inr heq =>
    rw [heq]
    exact h.append (by decide) (by decide)

/-- The stereo parameter goes after everything the line had. -/
theorem prefix_addStereo (line : Text) : line <+: addStereo line := by
  cases addStereo_cases line with
  | inl heq => rw [heq]
  | inr heq =>
    rw [heq]
    exact prefix_append _ _

/-- `stereo=1` is added once. -/
theorem addStereo_twice (line : Text) : addStereo (addStereo line) = addStereo line := by
  by_cases h : stereoKey <:+: line
  · have heq : addStereo line = line := if_pos h
    rw [heq, heq]
  · have heq : addStereo line = line ++ ';' :: (stereoKey ++ ['1']) := if_neg h
    rw [heq]
    exact if_pos ⟨line ++ [';'], ['1'], by rw [append_assoc, append_assoc]; rfl⟩

/-- A parameter of this name at the end is not one of the others. -/
theorem otherParams_append {name param : Text} (params : Text) (hsemi : ';' ∉ param)
    (hname : paramName param = name) :
    otherParams name (params ++ ';' :: param) = otherParams name params := by
  have hdrop : [param].filter (fun p => decide (paramName p ≠ name)) = [] :=
    filter_cons_of_neg (by simp [hname])
  rw [otherParams, splitOn_append_cons_self, filter_append,
    splitOn_eq_singleton hsemi, hdrop, append_nil, otherParams]

/-- The other parameters stay as they are. -/
theorem stereo_others (h : SameEol eol sdp) :
    KeepsOthers eol isOpus stereoName sdp (mungeStereoForAudio sdp) := by
  intro i pt hpt params hline
  have hat := mungeFmtp_target h isOpus (addStereo_clean eol) hpt hline (prefix_append _ _)
  cases addStereo_cases (fmtpPrefix pt ++ params) with
  | inl heq =>
    rw [heq] at hat
    exact ⟨params, hat, rfl⟩
  | inr heq =>
    rw [heq, append_assoc] at hat
    exact ⟨_, hat, otherParams_append params (by decide) (by decide)⟩

/-- To munge for stereo twice is to do it once. -/
theorem stereo_twice (h : SameEol eol sdp) :
    mungeStereoForAudio (mungeStereoForAudio sdp) = mungeStereoForAudio sdp := by
  have hpre : KeepsPrefix (payloadTypes isOpus (lines eol sdp)) (lines eol sdp) addStereo :=
    fun pt _ line _ hline => hline.trans (prefix_addStereo line)
  exact mungeFmtp_mungeFmtp h isOpus (addStereo_clean eol) (addStereo_clean eol) hpre hpre
    fun _ _ line _ _ => addStereo_twice line

/-! ## The start bitrate -/

/-- What a value is followed by. -/
def EndsParam (rest : Text) : Prop := rest = [] ∨ ∃ more, rest = ';' :: more

/-- A number is written with digits only. -/
theorem digit_of_mem_decimal {k : UInt32} {c : Char} (h : c ∈ decimal k) : c.isDigit = true :=
  Nat.isDigit_of_mem_toDigits (by omega) (by omega) h

theorem not_mem_value (k : UInt32) {c : Char} (hkey : c ∉ startBitrateKey)
    (hdigit : c.isDigit = false) : c ∉ startBitrateKey ++ decimal k := by
  rw [mem_append, not_or]
  refine ⟨hkey, fun hin => ?_⟩
  rw [digit_of_mem_decimal hin] at hdigit
  cases hdigit

/-- The written parameter does not contain the separator of parameters. -/
theorem semicolon_not_mem_value (k : UInt32) : ';' ∉ startBitrateKey ++ decimal k :=
  not_mem_value k (by decide) (by decide)

/-- A line without a start bitrate gets one at its end. -/
theorem setStartBitrate_append (k : UInt32) (h : ¬ startBitrateKey <:+: line) :
    setStartBitrate k line = line ++ ';' :: (startBitrateKey ++ decimal k) := by
  rw [setStartBitrate, find_eq_none.mpr h]

variable {value : Text}

/-- The first value is replaced up to the end of its parameter. -/
theorem setStartBitrate_replace (k : UInt32) {rest : Text} (hfirst : First startBitrateKey before)
    (hvalue : ';' ∉ value) (hrest : EndsParam rest) :
    setStartBitrate k (before ++ startBitrateKey ++ (value ++ rest)) =
      before ++ startBitrateKey ++ (decimal k ++ rest) := by
  have hsemi : ';' ∉ startBitrateKey ++ value := by
    rw [mem_append, not_or]
    exact ⟨by decide, hvalue⟩
  rw [setStartBitrate, find_append hfirst]
  dsimp only
  rw [append_assoc before, drop_left, take_left, ← append_assoc _ value]
  cases hrest with
  | inl hnil =>
    have hnone : find [';'] (startBitrateKey ++ value ++ rest) = none := by
      rw [hnil, append_nil, find_eq_none, singleton_infix_iff]
      exact hsemi
    rw [hnone]
    dsimp only
    rw [hnil, drop_length]
    simp only [append_assoc, append_nil]
  | inr hmore =>
    obtain ⟨more, rfl⟩ := hmore
    have hsome : find [';'] (startBitrateKey ++ value ++ ';' :: more) =
        some (startBitrateKey ++ value).length := by
      have hfind := find_append (first_of_last not_mem_nil hsemi) more
      rw [nil_append, append_assoc _ [';']] at hfind
      exact hfind
    rw [hsome]
    dsimp only
    rw [← length_append, ← append_assoc before _ (';' :: more), drop_left]
    simp only [append_assoc]

/-- A line that names the start bitrate, cut at the first value. -/
theorem exists_value {pos : ℕ} (h : find startBitrateKey line = some pos) :
    ∃ before value rest, line = before ++ startBitrateKey ++ (value ++ rest) ∧
      before.length = pos ∧ First startBitrateKey before ∧ ';' ∉ value ∧ EndsParam rest := by
  obtain ⟨before, after, rfl, hlen, hfirst⟩ := find_eq_some h
  refine ⟨before, after.takeWhile (· ≠ ';'), after.dropWhile (· ≠ ';'), ?_, hlen, hfirst, ?_, ?_⟩
  · rw [takeWhile_append_dropWhile]
  · intro hin
    have hne := mem_takeWhile_imp hin
    exact absurd hne (by decide)
  · cases hdrop : after.dropWhile (· ≠ ';') with
    | nil => exact .inl rfl
    | cons c more =>
      have hhead := head?_dropWhile_not (· ≠ ';') after
      rw [hdrop] at hhead
      have hc : c = ';' := by simpa using hhead
      exact .inr ⟨more, by rw [hc]⟩

/-- Setting the start bitrate keeps a line clean. -/
theorem setStartBitrate_clean (eol : Eol) (k : UInt32) : KeepsClean eol (setStartBitrate k) := by
  intro line h
  have hvalue : Clean eol (startBitrateKey ++ decimal k) :=
    (clean_nil eol).append (not_mem_value k (by decide) (by decide))
      (not_mem_value k (by decide) (by decide))
  cases hfind : find startBitrateKey line with
  | none =>
    rw [setStartBitrate_append k (find_eq_none.mp hfind), append_cons]
    exact (h.append (by decide) (by decide)).append (not_mem_value k (by decide) (by decide))
      (not_mem_value k (by decide) (by decide))
  | some pos =>
    obtain ⟨before, value, rest, rfl, -, hfirst, hsemi, hrest⟩ := exists_value hfind
    have hnot := h.not_mem
    simp only [mem_append, not_or] at hnot
    rw [setStartBitrate_replace k hfirst hsemi hrest]
    cases hrest with
    | inl hnil =>
      rw [hnil, append_nil, append_assoc]
      refine (clean_append_iff (append_ne_nil_of_left_ne_nil (by decide) _)).mpr ?_
      exact ⟨hnot.1.1, hvalue⟩
    | inr hmore =>
      obtain ⟨more, rfl⟩ := hmore
      have hcons : ';' :: more ≠ [] := cons_ne_nil _ _
      rw [← append_assoc] at h
      rw [← append_assoc]
      refine (clean_append_iff hcons).mpr ⟨?_, ((clean_append_iff hcons).mp h).2⟩
      rw [append_assoc, mem_append, not_or]
      exact ⟨hnot.1.1, hvalue.not_mem⟩

/-- The last start bitrate stands, wherever the line names it. -/
theorem setStartBitrate_last (k₁ k₂ : UInt32) (line : Text) :
    setStartBitrate k₂ (setStartBitrate k₁ line) = setStartBitrate k₂ line := by
  have hsemi : ∀ k, ';' ∉ decimal k := fun k hin =>
    semicolon_not_mem_value k (mem_append_right _ hin)
  cases hfind : find startBitrateKey line with
  | none =>
    have hnot := find_eq_none.mp hfind
    have hfirst : First startBitrateKey (line ++ [';']) := first_of_not_infix hnot (by decide)
    have hthen := setStartBitrate_replace k₂ hfirst (hsemi k₁) (.inl rfl)
    rw [append_nil, append_nil, append_assoc, append_assoc] at hthen
    rw [setStartBitrate_append k₁ hnot, setStartBitrate_append k₂ hnot, append_cons,
      append_cons _ _ (startBitrateKey ++ decimal k₂)]
    simpa only [append_assoc] using hthen
  | some pos =>
    obtain ⟨before, value, rest, rfl, -, hfirst, hvalue, hrest⟩ := exists_value hfind
    rw [setStartBitrate_replace k₁ hfirst hvalue hrest,
      setStartBitrate_replace k₂ hfirst (hsemi k₁) hrest,
      setStartBitrate_replace k₂ hfirst hvalue hrest]

/-! ## Where the name begins a parameter -/

/-- The text before the name, where a parameter begins there. -/
theorem StartsParam.exists_before {after : Text}
    (h : StartsParam pt (before ++ startBitrateKey ++ after))
    (hfirst : First startBitrateKey before)
    (hpre : fmtpPrefix pt <+: before ++ startBitrateKey ++ after) :
    ∃ params, before = fmtpPrefix pt ++ params ∧
      ∀ param ∈ (params.splitOn ';').getLast?, ∀ c ∈ param, isWhitespace c = true := by
  obtain ⟨hle, hblank⟩ := h before.length (find_append hfirst after)
  have hbefore : fmtpPrefix pt <+: before := by
    refine prefix_of_prefix_length_le hpre ?_ hle
    rw [append_assoc]
    exact prefix_append _ _
  obtain ⟨params, rfl⟩ := hbefore
  rw [append_assoc _ startBitrateKey, take_left, drop_left] at hblank
  exact ⟨params, rfl, hblank⟩

/-- Setting the start bitrate keeps the key and the payload type of the line. -/
theorem prefix_setStartBitrate (k : UInt32) (h : StartsParam pt line)
    (hpre : fmtpPrefix pt <+: line) : fmtpPrefix pt <+: setStartBitrate k line := by
  cases hfind : find startBitrateKey line with
  | none =>
    rw [setStartBitrate_append k (find_eq_none.mp hfind)]
    exact hpre.trans (prefix_append _ _)
  | some pos =>
    obtain ⟨before, value, rest, rfl, -, hfirst, hvalue, hrest⟩ := exists_value hfind
    obtain ⟨params, rfl, -⟩ := h.exists_before hfirst hpre
    rw [setStartBitrate_replace k hfirst hvalue hrest, append_assoc, append_assoc]
    exact prefix_append _ _

theorem startBitrateKey_eq : startBitrateKey = startBitrateName ++ ['='] := by decide

/-- The name of a parameter of which the name comes after blanks. -/
theorem paramName_blank {blank : Text} (h : ∀ c ∈ blank, isWhitespace c = true) (value : Text) :
    paramName (blank ++ (startBitrateKey ++ value)) = startBitrateName := by
  have heq : ∀ c ∈ blank, decide (c ≠ '=') = true := by
    intro c hin
    have hblank := h c hin
    rw [decide_eq_true_eq]
    intro hc
    rw [hc] at hblank
    exact absurd hblank (by decide)
  have hname : (startBitrateKey ++ value).takeWhile (· ≠ '=') = startBitrateName := by
    have hall : ∀ c ∈ startBitrateName, decide (c ≠ '=') = true := by
      intro c hin
      rw [decide_eq_true_eq]
      intro hc
      rw [hc] at hin
      exact absurd hin (by decide)
    rw [startBitrateKey_eq, append_assoc,
      takeWhile_append_of_pos hall, singleton_append,
      takeWhile_cons_of_neg (by decide), append_nil]
  rw [paramName, takeWhile_append_of_pos heq, hname, trimStart,
    dropWhile_append_of_pos h]
  decide

/-- The fields of the parameters around the value. -/
theorem splitOn_value {rest : Text} (hvalue : ';' ∉ value) (hrest : EndsParam rest) :
    ∃ more, (value ++ rest).splitOn ';' = value :: more ∧
      ∀ value', ';' ∉ value' → (value' ++ rest).splitOn ';' = value' :: more := by
  cases hrest with
  | inl hnil =>
    rw [hnil]
    have hsingle : ∀ value' : Text, ';' ∉ value' → (value' ++ []).splitOn ';' = [value'] := by
      intro value' hnot
      rw [append_nil, splitOn_eq_singleton hnot]
    exact ⟨[], hsingle value hvalue, hsingle⟩
  | inr hmore =>
    obtain ⟨more, rfl⟩ := hmore
    have hcons : ∀ value' : Text, ';' ∉ value' →
        (value' ++ ';' :: more).splitOn ';' = value' :: more.splitOn ';' := fun value' hnot =>
      splitOn_append_cons_self_of_not_mem hnot more
    exact ⟨more.splitOn ';', hcons value hvalue, hcons⟩

/-- The parameters around the value of the first start bitrate, before and after the edit. -/
theorem splitOn_edited {rest : Text} (params : Text) (hvalue : ';' ∉ value) (hrest : EndsParam rest)
    (k : UInt32) :
    ∃ fields last more, params.splitOn ';' = fields ++ [last] ∧
      (params ++ startBitrateKey ++ (value ++ rest)).splitOn ';' =
        fields ++ (last ++ (startBitrateKey ++ value)) :: more ∧
      (params ++ startBitrateKey ++ (decimal k ++ rest)).splitOn ';' =
        fields ++ (last ++ (startBitrateKey ++ decimal k)) :: more := by
  have hsemi : ';' ∉ startBitrateKey ++ value := by
    rw [mem_append, not_or]
    exact ⟨by decide, hvalue⟩
  obtain ⟨fields, last, hparams, happend⟩ := splitOn_append ';' params
  obtain ⟨more, hold, hnew⟩ := splitOn_value hsemi hrest
  refine ⟨fields, last, more, hparams, ?_, ?_⟩
  · rw [append_assoc, ← append_assoc startBitrateKey, happend, hold]
    rfl
  · rw [append_assoc, ← append_assoc startBitrateKey, happend,
      hnew _ (semicolon_not_mem_value k)]
    rfl

variable {params : Text}

/-- The start bitrate of a line where its name begins a parameter is the only parameter edited. -/
theorem StartsParam.others (h : StartsParam pt (fmtpPrefix pt ++ params)) (k : UInt32) :
    ∃ params', setStartBitrate k (fmtpPrefix pt ++ params) = fmtpPrefix pt ++ params' ∧
      otherParams startBitrateName params' = otherParams startBitrateName params := by
  have hpre : fmtpPrefix pt <+: fmtpPrefix pt ++ params := prefix_append _ _
  cases hfind : find startBitrateKey (fmtpPrefix pt ++ params) with
  | none =>
    refine ⟨params ++ ';' :: (startBitrateKey ++ decimal k), ?_, ?_⟩
    · rw [setStartBitrate_append k (find_eq_none.mp hfind), append_assoc]
    · have hname := paramName_blank (fun c hc => absurd hc not_mem_nil) (decimal k)
      exact otherParams_append params (semicolon_not_mem_value k) hname
  | some pos =>
    obtain ⟨before, value, rest, hline, -, hfirst, hvalue, hrest⟩ := exists_value hfind
    rw [hline] at h hpre
    obtain ⟨start, rfl, hblank⟩ := h.exists_before hfirst hpre
    have hparams : params = start ++ startBitrateKey ++ (value ++ rest) := by
      rw [append_assoc, append_assoc, ← append_assoc start] at hline
      exact append_cancel_left hline
    obtain ⟨fields, last, more, hstart, hold, hnew⟩ := splitOn_edited start hvalue hrest k
    refine ⟨start ++ startBitrateKey ++ (decimal k ++ rest), ?_, ?_⟩
    · rw [hline, setStartBitrate_replace k hfirst hvalue hrest]
      simp only [append_assoc]
    · have hlast : ∀ c ∈ last, isWhitespace c = true :=
        hblank last (by rw [hstart]; exact getLast?_concat)
      rw [hparams, otherParams, otherParams, hold, hnew, filter_append, filter_append,
        filter_cons_of_neg (by simp [paramName_blank hlast]),
        filter_cons_of_neg (by simp [paramName_blank hlast])]

/-- Where something other than blanks is before the name, the parameter has another name. -/
theorem paramName_not_blank (hnot : ¬ startBitrateKey <:+: before)
    (h : ∃ c ∈ before, isWhitespace c = false) (value : Text) :
    paramName (before ++ (startBitrateKey ++ value)) ≠ startBitrateName := by
  intro hname
  rw [paramName, startBitrateKey_eq] at hname
  by_cases heq : '=' ∈ before
  · -- the parameter's own name is the whole name, and its `=` is in `before`
    have htake : (before ++ (startBitrateName ++ ['='] ++ value)).takeWhile (· ≠ '=') =
        before.takeWhile (· ≠ '=') := by
      rw [takeWhile_append, if_neg]
      intro hlen
      have hself : before.takeWhile (· ≠ '=') = before :=
        (List.takeWhile_prefix _).eq_of_length hlen
      rw [← hself] at heq
      exact absurd (mem_takeWhile_imp heq) (by decide)
    rw [htake] at hname
    apply hnot
    have hdrop : ∃ r, before.dropWhile (· ≠ '=') = '=' :: r := by
      cases hcase : before.dropWhile (· ≠ '=') with
      | nil =>
        rw [dropWhile_eq_nil_iff] at hcase
        exact absurd (hcase '=' heq) (by decide)
      | cons c r =>
        have hhead := head?_dropWhile_not (· ≠ '=') before
        rw [hcase] at hhead
        have hc : c = '=' := by simpa using hhead
        exact ⟨r, by rw [hc]⟩
    obtain ⟨r, hr⟩ := hdrop
    refine ⟨(before.takeWhile (· ≠ '=')).takeWhile isWhitespace, r, ?_⟩
    calc (before.takeWhile (· ≠ '=')).takeWhile isWhitespace ++ startBitrateKey ++ r
        = (before.takeWhile (· ≠ '=')).takeWhile isWhitespace ++
            trimStart (before.takeWhile (· ≠ '=')) ++ '=' :: r := by
          rw [hname, startBitrateKey_eq]
          simp only [append_assoc, singleton_append]
      _ = before.takeWhile (· ≠ '=') ++ '=' :: r := by
          rw [trimStart, takeWhile_append_dropWhile]
      _ = before := by rw [← hr, takeWhile_append_dropWhile]
  · have hall : ∀ c ∈ before ++ startBitrateName, decide (c ≠ '=') = true := by
      intro c hin
      rw [decide_eq_true_eq]
      intro hc
      rw [hc, mem_append] at hin
      exact hin.elim heq (by decide)
    rw [append_assoc, ← append_assoc before, takeWhile_append_of_pos hall,
      singleton_append, takeWhile_cons_of_neg (by decide), append_nil, trimStart,
      dropWhile_append, if_neg] at hname
    · -- what is left of `before` makes the name longer
      have hlen := congrArg List.length hname
      rw [length_append] at hlen
      obtain ⟨c, hin, hblank⟩ := h
      have hnil : before.dropWhile isWhitespace = [] := eq_nil_of_length_eq_zero (by omega)
      rw [dropWhile_eq_nil_iff] at hnil
      rw [hnil c hin] at hblank
      cases hblank
    · intro hempty
      obtain ⟨c, hin, hblank⟩ := h
      rw [List.isEmpty_iff, List.dropWhile_eq_nil_iff] at hempty
      rw [hempty c hin] at hblank
      cases hblank

theorem space_not_mem_payloadType {isTarget : Text → Bool} (h : pt ∈ payloadTypes isTarget ls) :
    ' ' ∉ pt := by
  obtain ⟨line, -, hline⟩ := mem_filterMap.mp h
  obtain ⟨rest, -, hpt⟩ := bind_eq_some_iff.mp hline
  dsimp only at hpt
  split at hpt
  next =>
    cases hpt
    intro hin
    cases hword : (splitWhitespace rest)[0]? with
    | none =>
      rw [hword] at hin
      exact absurd hin not_mem_nil
    | some word =>
      rw [hword] at hin
      have hmem := (mem_filter.mp (mem_of_getElem? hword)).1
      exact absurd (not_of_mem_splitOnP isWhitespace hmem ' ' hin) (by decide)
  next => cases hpt

/-- No text is the decimal of every number. -/
theorem exists_decimal_ne (value : Text) : ∃ k, decimal k ≠ value := by
  by_cases h : decimal 0 = value
  · refine ⟨1, ?_⟩
    rw [← h]
    decide
  · exact ⟨0, h⟩

/-- What stands from a place within the payload type on. -/
theorem exists_inside {x : Text} (hline : before ++ x = fmtpPrefix pt ++ params)
    (hinside : before.length < (fmtpPrefix pt).length) :
    ∃ z, before ++ z = fmtpKey ++ pt ∧ x = z ++ ' ' :: params := by
  rw [fmtpPrefix, length_append, length_singleton] at hinside
  rw [fmtpPrefix, append_assoc (fmtpKey ++ pt), singleton_append] at hline
  obtain ⟨z, hz⟩ : before <+: fmtpKey ++ pt :=
    prefix_of_prefix_length_le ⟨_, hline⟩ (prefix_append _ _) (by omega)
  rw [← hz, append_assoc] at hline
  exact ⟨z, hz, append_cancel_left hline⟩

/-- An edit within the payload type is seen by the line's start. -/
theorem length_le_of_kept {k : UInt32} {params' rest : Text} (hspace : ' ' ∉ pt)
    (hvalue : ';' ∉ value) (hrest : EndsParam rest) (hk : decimal k ≠ value)
    (hline : before ++ startBitrateKey ++ (value ++ rest) = fmtpPrefix pt ++ params)
    (hkept : before ++ startBitrateKey ++ (decimal k ++ rest) = fmtpPrefix pt ++ params') :
    (fmtpPrefix pt).length ≤ before.length := by
  have hbody : ' ' ∉ fmtpKey ++ pt := by
    rw [mem_append, not_or]
    exact ⟨by decide, hspace⟩
  have hdigits : ' ' ∉ decimal k := fun hin => absurd (digit_of_mem_decimal hin) (by decide)
  by_contra hlt
  rw [Nat.not_le] at hlt
  rw [append_assoc] at hline hkept
  -- the name is within the payload type
  obtain ⟨z, hz, hin⟩ := exists_inside hline hlt
  obtain ⟨z', hz', hin'⟩ := exists_inside hkept hlt
  have hkey : ' ' ∉ startBitrateKey := by decide
  obtain ⟨v, hv, hold⟩ := append_cons_eq_append hkey hin.symm
  obtain ⟨v', hv', hnew⟩ := append_cons_eq_append hkey hin'.symm
  have hrest' : z' = z := append_cancel_left (hz'.trans hz.symm)
  rw [hrest'] at hv'
  have hsame : v' = v := append_cancel_left (hv'.symm.trans hv)
  rw [hsame] at hnew
  obtain ⟨w, rfl, hw⟩ := append_cons_eq_append hdigits hnew
  cases hrest with
  | inl hnil =>
    rw [hnil] at hw
    exact absurd hw (append_ne_nil_of_right_ne_nil _ (cons_ne_nil _ _))
  | inr hmore =>
    obtain ⟨more, rfl⟩ := hmore
    cases w with
    | nil => exact absurd (List.cons.inj hw).1 (by decide)
    | cons c w =>
      have hc : c = ';' := (List.cons.inj hw).1
      rw [hc, append_assoc, cons_append] at hold
      have hsemi : ';' ∉ decimal k := fun hin => absurd (digit_of_mem_decimal hin) (by decide)
      have hfields := congrArg (List.splitOn ';') hold
      rw [splitOn_append_cons_self_of_not_mem hsemi,
        splitOn_append_cons_self_of_not_mem hvalue] at hfields
      exact hk (List.cons.inj hfields).1

/-- A format line of which every start bitrate keeps the other parameters. -/
theorem startsParam_of_kept (hspace : ' ' ∉ pt)
    (h : ∀ k, ∃ params', setStartBitrate k (fmtpPrefix pt ++ params) = fmtpPrefix pt ++ params' ∧
      otherParams startBitrateName params' = otherParams startBitrateName params) :
    StartsParam pt (fmtpPrefix pt ++ params) := by
  intro pos hpos
  obtain ⟨before, value, rest, hline, rfl, hfirst, hvalue, hrest⟩ := exists_value hpos
  obtain ⟨k, hk⟩ := exists_decimal_ne value
  obtain ⟨params', hkept, hothers⟩ := h k
  rw [hline, setStartBitrate_replace k hfirst hvalue hrest] at hkept
  have hle := length_le_of_kept hspace hvalue hrest hk hline.symm hkept
  refine ⟨hle, fun param hlast c hc => ?_⟩
  by_contra hblank
  obtain ⟨start, rfl⟩ : fmtpPrefix pt <+: before := by
    refine prefix_of_prefix_length_le ⟨params, hline⟩ ?_ hle
    rw [append_assoc]
    exact prefix_append _ _
  obtain ⟨fields, last, more, hstart, hold, hnew⟩ := splitOn_edited start hvalue hrest k
  have hparam : param = last := by
    rw [hline, append_assoc _ startBitrateKey, take_left, drop_left, hstart,
      getLast?_concat] at hlast
    exact (some.inj hlast).symm
  have hnot : ¬ startBitrateKey <:+: last := by
    intro hin
    apply hfirst.not_infix (by decide)
    exact hin.trans ((suffix_of_splitOn hstart).isInfix.trans (suffix_append _ _).isInfix)
  have hsome : ∃ c ∈ last, isWhitespace c = false := ⟨c, hparam ▸ hc, by simpa using hblank⟩
  -- the parameter with the value is one of the others, and it changes
  have hparams : params = start ++ startBitrateKey ++ (value ++ rest) := by
    rw [append_assoc, append_assoc, ← append_assoc start] at hline
    exact append_cancel_left hline
  have hparams' : params' = start ++ startBitrateKey ++ (decimal k ++ rest) := by
    rw [append_assoc, append_assoc, ← append_assoc start] at hkept
    exact (append_cancel_left hkept).symm
  rw [hparams, hparams', otherParams, otherParams, hold, hnew, filter_append,
    filter_append, filter_cons_of_pos (by simpa using paramName_not_blank hnot hsome _),
    filter_cons_of_pos (by simpa using paramName_not_blank hnot hsome _)] at hothers
  have hcons := (List.cons.inj (append_cancel_left hothers)).1
  exact hk (append_cancel_left (append_cancel_left hcons))

/-! ## The edits together -/

/-- The edits are minimal and idempotent exactly where each start bitrate in a VP9 or AV1 format
line begins a parameter. -/
theorem munges_minimally_iff (eol : Eol) (sdp : Text) (h : SameEol eol sdp) :
    MungesMinimally eol sdp ↔ StartBitratesAreParams eol sdp := by
  constructor
  · intro hmin pt hpt line hin hpre
    obtain ⟨params, rfl⟩ := hpre
    obtain ⟨i, hi⟩ := mem_iff_getElem?.mp hin
    refine startsParam_of_kept (space_not_mem_payloadType hpt) fun k => ?_
    have hat := mungeFmtp_target h isVp9OrAv1 (setStartBitrate_clean eol k) hpt hi
      (prefix_append _ _)
    obtain ⟨params', hat', hothers⟩ := hmin.bitrate_others k i pt hpt params hi
    exact ⟨params', some.inj (hat.symm.trans hat'), hothers⟩
  · intro hstarts
    have hpre : ∀ k, KeepsPrefix (payloadTypes isVp9OrAv1 (lines eol sdp)) (lines eol sdp)
        (setStartBitrate k) := fun k pt hpt line hin hline =>
      prefix_setStartBitrate k (hstarts pt hpt line hin hline) hline
    have hlast : ∀ k₁ k₂, mungeXGoogleStartBitrate (mungeXGoogleStartBitrate sdp k₁) k₂ =
        mungeXGoogleStartBitrate sdp k₂ := fun k₁ k₂ =>
      mungeFmtp_mungeFmtp h isVp9OrAv1 (setStartBitrate_clean eol k₁) (setStartBitrate_clean eol k₂)
        (hpre k₁) (hpre k₂) fun _ _ line _ _ => setStartBitrate_last k₁ k₂ line
    exact {
      direction := direction_minimal h
      direction_twice := direction_twice h
      stereo := mungeFmtp_minimal h isOpus (addStereo_clean eol)
      stereo_others := stereo_others h
      stereo_twice := stereo_twice h
      bitrate := fun k => mungeFmtp_minimal h isVp9OrAv1 (setStartBitrate_clean eol k)
      bitrate_others := by
        intro k i pt hpt params hi
        have hline : fmtpPrefix pt <+: fmtpPrefix pt ++ params := prefix_append _ _
        obtain ⟨params', heq, hothers⟩ :=
          (hstarts pt hpt _ (mem_of_getElem? hi) hline).others k
        have hat := mungeFmtp_target h isVp9OrAv1 (setStartBitrate_clean eol k) hpt hi hline
        rw [heq] at hat
        exact ⟨params', hat, hothers⟩
      bitrate_twice := fun k => hlast k k
      bitrate_last := hlast }

/-- A start bitrate among the parameters of a VP9 format. -/
def amongParams : Text :=
  ("m=video 9 UDP/TLS/RTP/SAVPF 98\r\na=inactive\r\na=rtpmap:98 VP9/90000\r\n" ++
    "a=fmtp:98 profile-id=0; x-google-start-bitrate=300;level=1").toList

theorem amongParams_eq : amongParams =
    ['m', '=', 'v', 'i', 'd', 'e', 'o', ' ', '9', ' ', 'U', 'D', 'P', '/', 'T', 'L', 'S', '/', 'R',
      'T', 'P', '/', 'S', 'A', 'V', 'P', 'F', ' ', '9', '8', '\r', '\n', 'a', '=', 'i', 'n', 'a',
      'c', 't', 'i', 'v', 'e', '\r', '\n', 'a', '=', 'r', 't', 'p', 'm', 'a', 'p', ':', '9', '8',
      ' ', 'V', 'P', '9', '/', '9', '0', '0', '0', '0', '\r', '\n'] ++
    ['a', '=', 'f', 'm', 't', 'p', ':', '9', '8', ' ', 'p', 'r', 'o', 'f', 'i', 'l', 'e', '-', 'i',
      'd', '=', '0', ';', ' ', 'x', '-', 'g', 'o', 'o', 'g', 'l', 'e', '-', 's', 't', 'a', 'r', 't',
      '-', 'b', 'i', 't', 'r', 'a', 't', 'e', '=', '3', '0', '0', ';', 'l', 'e', 'v', 'e', 'l', '=',
      '1'] := by
  unfold amongParams
  rw [String.toList_append]
  exact congrArg₂ (· ++ ·) String.toList_ofList String.toList_ofList

theorem amongParams_lines : lines .crlf amongParams =
    [amongParams.take 30, (amongParams.drop 32).take 10, (amongParams.drop 44).take 21,
      amongParams.drop 67] := by
  rw [amongParams_eq]
  decide +kernel

theorem amongParams_payloadTypes :
    payloadTypes isVp9OrAv1 (lines .crlf amongParams) = [['9', '8']] := by
  rw [amongParams_lines, amongParams_eq]
  decide +kernel

theorem amongParams_start : StartBitratesAreParams .crlf amongParams := by
  intro pt hpt line hline hpre
  rw [amongParams_payloadTypes, mem_singleton] at hpt
  rw [hpt] at hpre ⊢
  rw [amongParams_lines, mem_cons, mem_cons, mem_cons, mem_singleton, amongParams_eq] at hline
  rcases hline with rfl | rfl | rfl | rfl
  · exact absurd hpre (by decide +kernel)
  · exact absurd hpre (by decide +kernel)
  · exact absurd hpre (by decide +kernel)
  · -- the format line
    intro pos hpos
    have hfind : find startBitrateKey (amongParams.drop 67) = some 24 := by
      rw [amongParams_eq]
      decide +kernel
    rw [← amongParams_eq] at hpos ⊢
    rw [hfind, mem_some_iff] at hpos
    have hlast : ((((amongParams.drop 67).take 24).drop (fmtpPrefix ['9', '8']).length).splitOn
        ';').getLast? = some [' '] := by
      rw [amongParams_eq, fmtpPrefix, fmtpKey_eq]
      rfl
    rw [← hpos, hlast]
    refine ⟨?_, ?_⟩
    · rw [fmtpPrefix, fmtpKey_eq]
      decide
    · intro param hparam c hc
      rw [mem_some_iff] at hparam
      rw [← hparam, mem_singleton] at hc
      rw [hc]
      decide

theorem among_params_minimal : MungesMinimally .crlf amongParams :=
  (munges_minimally_iff .crlf amongParams (by decide +kernel)).mpr amongParams_start

/-- A parameter whose name ends in that of the start bitrate. -/
def longerName : Text := "a=rtpmap:98 VP9/90000\na=fmtp:98 my-x-google-start-bitrate=300\n".toList

/-- The value of the other parameter is replaced. -/
theorem longer_name_edited : ¬ ∀ eol sdp, SameEol eol sdp → MungesMinimally eol sdp := by
  intro h
  have hmin := h .lf longerName (by decide +kernel)
  obtain ⟨params', hat, hothers⟩ := hmin.bitrate_others 7 1 "98".toList (by decide +kernel)
    "my-x-google-start-bitrate=300".toList (by decide +kernel)
  have hedited : (lines .lf (mungeXGoogleStartBitrate longerName 7))[1]? =
      some (fmtpPrefix "98".toList ++ "my-x-google-start-bitrate=7".toList) := by decide +kernel
  rw [hedited, some.injEq] at hat
  rw [← append_cancel_left hat] at hothers
  exact absurd hothers (by decide +kernel)

end LiveKit.PeerTransport.Munge
