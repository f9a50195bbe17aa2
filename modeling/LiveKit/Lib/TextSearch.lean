import Mathlib.Data.List.Infix

/-!
# A pattern in a text

Where a pattern occurs first, and a text cut at each occurrence that is met from left to right.
`First pat u` says that the occurrence right after `u` is met first, whatever follows it; lines
that are `First` are what a text of lines is cut into again.
-/

namespace TextSearch

open List

variable {α : Type*} [DecidableEq α]

/-- Where the pattern occurs first. -/
def find (pat : List α) : List α → Option ℕ
  | [] => if pat = [] then some 0 else none
  | c :: t => if pat <+: c :: t then some 0 else (find pat t).map (· + 1)

/-- The text between the separators; so many characters still belong to the last one met. -/
def splitFrom (sep : List α) : ℕ → List α → List (List α)
  | _, [] => [[]]
  | k + 1, _ :: t => splitFrom sep k t
  | 0, c :: t =>
    if sep <+: c :: t then [] :: splitFrom sep (sep.length - 1) t
    else (splitFrom sep 0 t).modifyHead (c :: ·)

/-- The text between the separators. -/
def split (sep t : List α) : List (List α) := splitFrom sep 0 t

/-- An occurrence of the pattern right after this text is the first. -/
def First (pat u : List α) : Prop := ∀ j < u.length, ¬ pat <+: (u ++ pat).drop j

/-! ## What comes first -/

variable {pat u : List α}

variable {c a : α} {x : List α}

omit [DecidableEq α] in
theorem First.tail (h : First pat (c :: u)) : First pat u := by
  intro j hj hpre
  have hlt : j + 1 < (c :: u).length := by
    rw [length_cons]
    omega
  apply h (j + 1) hlt
  show pat <+: (u ++ pat).drop j
  exact hpre

omit [DecidableEq α] in
/-- What follows the occurrence plays no part. -/
theorem First.not_prefix (h : First pat (c :: u)) (x : List α) :
    ¬ pat <+: c :: u ++ pat ++ x := by
  intro hpre
  apply h 0 (by rw [length_cons]; omega)
  rw [drop_zero]
  refine prefix_of_prefix_length_le hpre (prefix_append _ _) ?_
  rw [length_append]
  omega

omit [DecidableEq α] in
theorem First.not_infix (hpat : pat ≠ []) (h : First pat u) : ¬ pat <:+: u := by
  intro hin
  obtain ⟨s, r, rfl⟩ := hin
  have hpos : 0 < pat.length := length_pos_of_ne_nil hpat
  apply h s.length (by rw [length_append, length_append]; omega)
  rw [append_assoc, append_assoc, drop_left]
  exact prefix_append _ _

omit [DecidableEq α] in
/-- A text without the pattern's last character. -/
theorem first_of_last {p : List α} (hp : c ∉ p) (hu : c ∉ u) : First (p ++ [c]) u := by
  intro j hj hpre
  obtain ⟨r, hr⟩ := hpre
  -- the last character of the occurrence would lie in `u ++ p`
  have hat : (u ++ (p ++ [c]))[j + p.length]? = some c := by
    rw [← getElem?_drop, ← hr, append_assoc, getElem?_append_right (le_refl _),
      Nat.sub_self]
    rfl
  rw [← append_assoc, getElem?_append_left (by rw [length_append]; omega)] at hat
  have hmem := mem_of_getElem? hat
  rw [mem_append] at hmem
  cases hmem with
  | inl h => exact hu h
  | inr h => exact hp h

omit [DecidableEq α] in
/-- A text without the pattern, and a character that the pattern does not have. -/
theorem first_of_not_infix (h : ¬ pat <:+: u) (ha : a ∉ pat) : First pat (u ++ [a]) := by
  intro j hj hpre
  rw [length_append, length_singleton] at hj
  obtain ⟨r, hr⟩ := hpre
  by_cases hfit : j + pat.length ≤ u.length
  · apply h
    refine ⟨u.take j, (u.drop j).drop pat.length, ?_⟩
    have hpre : pat <+: u.drop j := by
      refine prefix_of_prefix_length_le (⟨r, hr⟩ : pat <+: _) ?_ ?_
      · rw [append_assoc, drop_append_of_le_length (by omega)]
        exact prefix_append _ _
      · rw [length_drop]
        omega
    rw [append_assoc, prefix_iff_eq_append.mp hpre, take_append_drop]
  · -- the occurrence reaches over the character
    have hat : pat[u.length - j]? = some a := by
      have hget : (pat ++ r)[u.length - j]? = some a := by
        rw [hr, getElem?_drop, show j + (u.length - j) = u.length by omega, append_assoc,
          getElem?_append_right (le_refl _), Nat.sub_self]
        rfl
      rwa [getElem?_append_left (by omega)] at hget
    exact ha (mem_of_getElem? hat)

/-! ## Searching -/

theorem find_append (h : First pat u) (x : List α) : find pat (u ++ pat ++ x) = some u.length := by
  induction u with
  | nil =>
    rw [nil_append]
    cases hx : pat ++ x with
    | nil =>
      rw [find, if_pos (append_eq_nil_iff.mp hx).1, length_nil]
    | cons c t =>
      rw [find, if_pos (by rw [← hx]; exact prefix_append _ _), length_nil]
  | cons c u ih =>
    have hnot := h.not_prefix x
    rw [cons_append, cons_append] at hnot ⊢
    rw [find, if_neg hnot, ih h.tail, Option.map_some, length_cons]

variable {t : List α}

theorem find_eq_none : find pat t = none ↔ ¬ pat <:+: t := by
  induction t with
  | nil =>
    rw [find, infix_nil]
    by_cases h : pat = [] <;> simp [h]
  | cons c t ih =>
    rw [find, infix_cons_iff]
    by_cases h : pat <+: c :: t
    · simp [h]
    · rw [if_neg h, Option.map_eq_none_iff, ih]
      simp [h]

/-- Where the pattern is found, it occurs first. -/
theorem find_eq_some {i : ℕ} (h : find pat t = some i) :
    ∃ u x, t = u ++ pat ++ x ∧ u.length = i ∧ First pat u := by
  induction t generalizing i with
  | nil =>
    rw [find] at h
    split at h
    next hpat =>
      cases h
      refine ⟨[], [], ?_, rfl, fun j hj => absurd hj (Nat.not_lt_zero j)⟩
      rw [hpat]
      rfl
    next => cases h
  | cons c t ih =>
    rw [find] at h
    split at h
    next hpre =>
      cases h
      obtain ⟨x, hx⟩ := hpre
      refine ⟨[], x, ?_, rfl, fun j hj => absurd hj (Nat.not_lt_zero j)⟩
      rw [nil_append, hx]
    next hpre =>
      obtain ⟨k, hk, rfl⟩ := Option.map_eq_some_iff.mp h
      obtain ⟨u, x, rfl, rfl, hfirst⟩ := ih hk
      refine ⟨c :: u, x, rfl, rfl, ?_⟩
      intro j hj hat
      cases j with
      | zero =>
        rw [drop_zero] at hat
        exact hpre (hat.trans (prefix_append _ _))
      | succ j =>
        have hlt : j < u.length := by
          rw [length_cons] at hj
          omega
        exact hfirst j hlt hat

/-! ## Cutting -/

theorem splitFrom_ne_nil (sep : List α) (k : ℕ) (t : List α) : splitFrom sep k t ≠ [] := by
  induction t generalizing k with
  | nil => cases k <;> simp [splitFrom]
  | cons c t ih =>
    cases k with
    | succ k =>
      rw [splitFrom]
      exact ih k
    | zero =>
      rw [splitFrom]
      split
      next => exact cons_ne_nil _ _
      next =>
        intro h
        exact ih 0 (modifyHead_eq_nil_iff.mp h)

theorem split_ne_nil (sep t : List α) : split sep t ≠ [] := splitFrom_ne_nil sep 0 t

theorem splitFrom_append (sep x t : List α) :
    splitFrom sep x.length (x ++ t) = split sep t := by
  induction x with
  | nil => rfl
  | cons c x ih =>
    rw [length_cons, cons_append, splitFrom]
    exact ih

variable {sep : List α}

/-- A text is cut at the separator that comes first. -/
theorem split_append (hsep : sep ≠ []) (h : First sep u) (t : List α) :
    split sep (u ++ sep ++ t) = u :: split sep t := by
  induction u with
  | nil =>
    obtain ⟨c, s, rfl⟩ := exists_cons_of_ne_nil hsep
    rw [nil_append, split, cons_append, splitFrom,
      if_pos (by rw [← cons_append]; exact prefix_append _ _), length_cons,
      Nat.add_sub_cancel, splitFrom_append]
  | cons c u ih =>
    have hnot := h.not_prefix t
    rw [cons_append, cons_append] at hnot ⊢
    rw [split, splitFrom, if_neg hnot]
    show (split sep (u ++ sep ++ t)).modifyHead _ = _
    rw [ih h.tail]
    rfl

theorem split_of_not_infix (h : ¬ sep <:+: t) : split sep t = [t] := by
  induction t with
  | nil => rfl
  | cons c t ih =>
    rw [infix_cons_iff, not_or] at h
    rw [split, splitFrom, if_neg h.1]
    show (split sep t).modifyHead _ = _
    rw [ih h.2]
    rfl

variable {ls : List (List α)}

omit [DecidableEq α] in
theorem intercalate_modifyHead (sep : List α) (c : α) (h : ls ≠ []) :
    sep.intercalate (ls.modifyHead (c :: ·)) = c :: sep.intercalate ls := by
  obtain ⟨l, ls, rfl⟩ := exists_cons_of_ne_nil h
  rw [modifyHead_cons]
  exact intercalate_cons_cons_left

/-- The pieces joined again are the text. -/
theorem intercalate_splitFrom (hsep : sep ≠ []) (k : ℕ) (t : List α) :
    sep.intercalate (splitFrom sep k t) = t.drop k := by
  induction t generalizing k with
  | nil => cases k <;> simp [splitFrom]
  | cons c t ih =>
    cases k with
    | succ k =>
      rw [splitFrom, ih, drop_succ_cons]
    | zero =>
      rw [splitFrom, drop_zero]
      split
      next hpre =>
        have hpos : 0 < sep.length := length_pos_of_ne_nil hsep
        have hdrop : (c :: t).drop sep.length = t.drop (sep.length - 1) := by
          rw [show sep.length = sep.length - 1 + 1 by omega, drop_succ_cons]
          rfl
        rw [intercalate_cons_of_ne_nil (splitFrom_ne_nil _ _ _), ih, nil_append, ← hdrop]
        exact (prefix_iff_eq_append.mp hpre)
      next =>
        rw [intercalate_modifyHead sep c (splitFrom_ne_nil _ _ _), ih, drop_zero]

theorem intercalate_split (hsep : sep ≠ []) (t : List α) : sep.intercalate (split sep t) = t := by
  rw [split, intercalate_splitFrom hsep, drop_zero]

/-- No piece has the separator. -/
theorem not_infix_of_mem_split {l : List α} (hsep : sep ≠ []) (h : l ∈ split sep t) :
    ¬ sep <:+: l := by
  induction hn : t.length using Nat.strongRecOn generalizing t with
  | ind n ih =>
    cases hfind : find sep t with
    | none =>
      have hnot := find_eq_none.mp hfind
      have hone : split sep t = [t] := split_of_not_infix hnot
      rw [hone, mem_singleton] at h
      rw [h]
      exact hnot
    | some i =>
      obtain ⟨u, x, rfl, -, hfirst⟩ := find_eq_some hfind
      rw [split_append hsep hfirst] at h
      cases mem_cons.mp h with
      | inl heq =>
        rw [heq]
        exact hfirst.not_infix hsep
      | inr hin =>
        have hpos := length_pos_of_ne_nil hsep
        rw [length_append, length_append] at hn
        exact ih x.length (by omega) hin rfl

/-- Joined lines are cut into themselves. -/
theorem split_intercalate (hsep : sep ≠ []) (hls : ls ≠ []) (h : ∀ l ∈ ls, First sep l) :
    split sep (sep.intercalate ls) = ls := by
  induction ls with
  | nil => exact absurd rfl hls
  | cons l ls ih =>
    have hl := h l mem_cons_self
    cases ls with
    | nil =>
      rw [intercalate_singleton]
      exact split_of_not_infix (hl.not_infix hsep)
    | cons l' ls =>
      rw [intercalate_cons_cons, split_append hsep hl,
        ih (cons_ne_nil _ _) fun m hm => h m (mem_cons_of_mem _ hm)]

omit [DecidableEq α] in
theorem intercalate_concat (sep l : List α) (h : ls ≠ []) :
    sep.intercalate (ls ++ [l]) = sep.intercalate ls ++ sep ++ l := by
  induction ls with
  | nil => exact absurd rfl h
  | cons m ls ih =>
    cases ls with
    | nil => simp
    | cons m' ls =>
      rw [cons_append, cons_append, intercalate_cons_cons, ← cons_append,
        ih (cons_ne_nil _ _), intercalate_cons_cons]
      simp only [append_assoc]

omit [DecidableEq α] in
/-- The words between separators have none. -/
theorem not_of_mem_splitOnP (p : α → Bool) {w : List α} (h : w ∈ t.splitOnP p) :
    ∀ c ∈ w, p c = false := by
  induction t generalizing w with
  | nil =>
    rw [splitOnP_nil, mem_singleton] at h
    rw [h]
    exact fun c hc => absurd hc not_mem_nil
  | cons c t ih =>
    rw [splitOnP_cons_eq_if_modifyHead] at h
    split at h
    next =>
      cases mem_cons.mp h with
      | inl heq =>
        rw [heq]
        exact fun c hc => absurd hc not_mem_nil
      | inr hin => exact ih hin
    next hp =>
      obtain ⟨f, fs, hf⟩ := exists_cons_of_ne_nil (splitOnP_ne_nil p t)
      rw [hf] at h ih
      cases mem_cons.mp h with
      | inl heq =>
        rw [heq]
        intro d hd
        cases mem_cons.mp hd with
        | inl hdc =>
          rw [hdc]
          simpa using hp
        | inr hin => exact ih mem_cons_self d hin
      | inr hin => exact ih (mem_cons_of_mem _ hin)

omit [DecidableEq α] in
/-- A separator that the first text does not have is in the rest of the other. -/
theorem append_cons_eq_append {y z : List α} (ha : a ∉ y) (h : u ++ a :: x = y ++ z) :
    ∃ v, u = y ++ v ∧ v ++ a :: x = z := by
  cases append_eq_append_iff.mp h with
  | inl hcase =>
    obtain ⟨v, rfl, hv⟩ := hcase
    cases v with
    | nil => exact ⟨[], by rw [append_nil, append_nil], by simpa using hv⟩
    | cons b v =>
      have hb : a = b := (List.cons.inj hv).1
      rw [hb] at ha
      exact absurd (mem_append_right u mem_cons_self) ha
  | inr hcase =>
    obtain ⟨v, hu, hz⟩ := hcase
    exact ⟨v, hu, hz.symm⟩

omit [DecidableEq α] in
/-- A pattern does not reach over a character that it does not have. -/
theorem prefix_of_append_cons (ha : a ∉ pat) (h : pat <+: u ++ a :: x) :
    pat <+: u := by
  obtain ⟨r, hr⟩ := h
  obtain ⟨v, hv, -⟩ := append_cons_eq_append ha hr.symm
  exact ⟨v, hv.symm⟩

omit [DecidableEq α] in
/-- A pattern occurs on one side of a character that it does not have. -/
theorem infix_append_cons_iff (hpat : pat ≠ []) (ha : a ∉ pat) :
    pat <:+: u ++ a :: x ↔ pat <:+: u ∨ pat <:+: x := by
  constructor
  · intro h
    induction u with
    | nil =>
      rw [nil_append, infix_cons_iff] at h
      refine .inr (h.resolve_left fun hpre => hpat ?_)
      exact prefix_nil.mp (prefix_of_append_cons ha (u := []) hpre)
    | cons c u ih =>
      rw [cons_append, infix_cons_iff] at h
      cases h with
      | inl hpre =>
        rw [← cons_append] at hpre
        exact .inl (prefix_of_append_cons ha hpre).isInfix
      | inr hin => exact (ih hin).imp_left fun h => infix_cons_iff.mpr (.inr h)
  · intro h
    cases h with
    | inl hin => exact infix_append_of_infix_left hin
    | inr hin =>
      exact infix_append_of_infix_right (infix_cons_iff.mpr (.inr hin))

/-- The last field is a suffix of the text. -/
theorem suffix_of_splitOn {d : α} {last : List α} {fields : List (List α)}
    (h : t.splitOn d = fields ++ [last]) : last <:+ t := by
  have hjoin : [d].intercalate (t.splitOn d) = t := intercalate_splitOn d
  rw [h] at hjoin
  cases fields with
  | nil =>
    rw [nil_append, intercalate_singleton] at hjoin
    rw [hjoin]
  | cons f fs =>
    rw [intercalate_concat _ _ (cons_ne_nil _ _)] at hjoin
    exact ⟨_, hjoin⟩

/-- What is appended to a text goes on with its last field. -/
theorem splitOn_append (d : α) (t : List α) :
    ∃ fields last, t.splitOn d = fields ++ [last] ∧
      ∀ x, (t ++ x).splitOn d = fields ++ (x.splitOn d).modifyHead (last ++ ·) := by
  induction t with
  | nil =>
    refine ⟨[], [], rfl, fun x => ?_⟩
    obtain ⟨f, fs, hf⟩ := exists_cons_of_ne_nil (splitOn_ne_nil d x)
    rw [nil_append, hf]
    rfl
  | cons c t ih =>
    obtain ⟨fields, last, ht, hx⟩ := ih
    by_cases hc : c = d
    · refine ⟨[] :: fields, last, ?_, fun x => ?_⟩
      · rw [splitOn_cons_eq_if_modifyHead, if_pos (by simpa using hc), ht]
        rfl
      · rw [cons_append, splitOn_cons_eq_if_modifyHead, if_pos (by simpa using hc), hx]
        rfl
    · have hbeq : ¬ (c == d) = true := by simpa using hc
      cases fields with
      | nil =>
        refine ⟨[], c :: last, ?_, fun x => ?_⟩
        · rw [splitOn_cons_eq_if_modifyHead, if_neg hbeq, ht]
          rfl
        · obtain ⟨f, fs, hf⟩ := exists_cons_of_ne_nil (splitOn_ne_nil d x)
          rw [cons_append, splitOn_cons_eq_if_modifyHead, if_neg hbeq, hx, hf]
          rfl
      | cons f fs =>
        refine ⟨(c :: f) :: fs, last, ?_, fun x => ?_⟩
        · rw [splitOn_cons_eq_if_modifyHead, if_neg hbeq, ht]
          rfl
        · rw [cons_append, splitOn_cons_eq_if_modifyHead, if_neg hbeq, hx]
          rfl

end TextSearch
