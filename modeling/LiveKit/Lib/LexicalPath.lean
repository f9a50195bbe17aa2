import Mathlib.Data.List.Induction

/-!
# Paths, read lexically

A path is the text of its components between separators. `normalize` makes of it how many levels it
goes up and which names it goes down then, without a look at any file system. A path that is joined
to a directory goes on from where the directory is, unless it is absolute: then it replaces the
directory. `inside_join` says which paths end below the directory they are joined to.
-/

namespace LexicalPath

open List

/-- The text of a path, and of a component. -/
abbrev Path := List Char

def isAbsolute (p : Path) : Bool := p.head? = some '/'

/-- The components; an empty one and `.` mean nothing. -/
def components (p : Path) : List Path := (p.splitOn '/').filter fun n => n ≠ [] ∧ n ≠ ['.']

/-- The last component names a file or a directory. -/
def NamesFile (p : Path) : Prop :=
  ∃ n, (p.splitOn '/').getLast? = some n ∧ n ≠ [] ∧ n ≠ ['.'] ∧ n ≠ ['.', '.']

instance (p : Path) : Decidable (NamesFile p) :=
  match h : (p.splitOn '/').getLast? with
  | none => isFalse fun hfile => by
      obtain ⟨n, hn, -⟩ := hfile
      rw [h] at hn
      cases hn
  | some n =>
    decidable_of_iff (n ≠ [] ∧ n ≠ ['.'] ∧ n ≠ ['.', '.']) <| by
      constructor
      · exact fun hne => ⟨n, h, hne⟩
      · intro hfile
        obtain ⟨m, hm, hne⟩ := hfile
        rw [h, Option.some.injEq] at hm
        rw [hm]
        exact hne

/-- A path in normal form. -/
structure Normal where
  rooted : Bool
  /-- How many levels it goes up. -/
  ups : ℕ
  names : List Path

namespace Normal

/-- One more component; above the root there is the root. -/
def push (d : Normal) (n : Path) : Normal :=
  if n = ['.', '.'] then
    if d.names = [] then if d.rooted then d else { d with ups := d.ups + 1 }
    else { d with names := d.names.dropLast }
  else { d with names := d.names ++ [n] }

/-- So many levels up. -/
def climb (d : Normal) (k : ℕ) : Normal where
  rooted := d.rooted
  ups := if d.rooted then d.ups else d.ups + (k - d.names.length)
  names := d.names.take (d.names.length - k)

/-- These names down. -/
def descend (d : Normal) (names : List Path) : Normal := { d with names := d.names ++ names }

/-- The second path is strictly below the first. -/
def Inside (d p : Normal) : Prop :=
  p.rooted = d.rooted ∧ p.ups = d.ups ∧ ∃ n ns, p.names = d.names ++ n :: ns

/-- Nothing. -/
def here : Normal := ⟨false, 0, []⟩

end Normal

def normalize (p : Path) : Normal := (components p).foldl Normal.push ⟨isAbsolute p, 0, []⟩

/-- A path joined to a directory. -/
def join (dir name : Path) : Path :=
  if isAbsolute name then name
  else if dir = [] ∨ dir.getLast? = some '/' then dir ++ name
  else dir ++ '/' :: name

/-! ## Components of a path that is joined -/

theorem components_append (p q : Path) :
    components (p ++ '/' :: q) = components p ++ components q := by
  unfold components
  rw [splitOn_append_cons_self, filter_append]

theorem components_nil : components [] = [] := rfl

theorem isAbsolute_append {p : Path} (hp : p ≠ []) (q : Path) :
    isAbsolute (p ++ q) = isAbsolute p := by
  cases p with
  | nil => exact absurd rfl hp
  | cons => rfl

/-- A relative path goes on from the directory. -/
theorem normalize_join {dir name : Path} (h : isAbsolute name = false) :
    normalize (join dir name) = (components name).foldl Normal.push (normalize dir) := by
  unfold join
  rw [if_neg (by rw [h]; decide)]
  by_cases hdir : dir = []
  · subst hdir
    rw [if_pos (.inl rfl), nil_append]
    unfold normalize
    rw [h]
    rfl
  · by_cases hsep : dir.getLast? = some '/'
    · rw [if_pos (.inr hsep)]
      obtain ⟨start, rfl⟩ := getLast?_eq_some_iff.mp hsep
      unfold normalize
      rw [isAbsolute_append hdir, append_assoc, singleton_append, components_append,
        foldl_append, components_append, components_nil, append_nil]
    · rw [if_neg (by rintro (hbad | hbad); exacts [hdir hbad, hsep hbad])]
      unfold normalize
      rw [isAbsolute_append hdir, components_append, foldl_append]

theorem splitOn_getLast? (p q : Path) :
    ((p ++ '/' :: q).splitOn '/').getLast? = (q.splitOn '/').getLast? := by
  rw [splitOn_append_cons_self, getLast?_append]
  obtain ⟨n, hn⟩ := Option.ne_none_iff_exists'.mp
    (mt getLast?_eq_none_iff.mp (splitOn_ne_nil '/' q))
  rw [hn]
  rfl

/-- The path names a file where the name does. -/
theorem namesFile_join (dir name : Path) : NamesFile (join dir name) ↔ NamesFile name := by
  unfold join
  split
  · rfl
  · split
    · next h =>
      rcases h with rfl | hsep
      · rfl
      · obtain ⟨start, rfl⟩ := getLast?_eq_some_iff.mp hsep
        unfold NamesFile
        rw [append_assoc, singleton_append, splitOn_getLast?]
    · unfold NamesFile
      rw [splitOn_getLast?]

/-! ## Where a relative path leads -/

namespace Normal

theorem push_name (d : Normal) {n : Path} (hn : n ≠ ['.', '.']) : d.push n = d.descend [n] := by
  unfold push
  rw [if_neg hn]
  rfl

theorem push_up (d : Normal) (hnames : d.names ≠ []) :
    d.push ['.', '.'] = { d with names := d.names.dropLast } := by
  unfold push
  rw [if_pos rfl, if_neg hnames]

/-- One more level up. -/
theorem push_climb (d : Normal) (k : ℕ) : (d.climb k).push ['.', '.'] = d.climb (k + 1) := by
  by_cases hlen : d.names.length ≤ k
  · -- no names are left
    have hzero : d.names.length - k = 0 := by omega
    have hzero' : d.names.length - (k + 1) = 0 := by omega
    have hups : k + 1 - d.names.length = k - d.names.length + 1 := by omega
    unfold push climb
    simp only [hzero, hzero', take_zero, if_true, hups]
    cases d.rooted
    · rfl
    · rfl
  · have hne : (d.climb k).names ≠ [] := by
      intro hnil
      have hlength := congrArg List.length hnil
      unfold climb at hlength
      rw [length_take, length_nil] at hlength
      omega
    have hlast : (d.names.take (d.names.length - k)).dropLast =
        d.names.take (d.names.length - (k + 1)) := by
      rw [dropLast_eq_take, length_take, take_take]
      congr 1
      omega
    have hups : k + 1 - d.names.length = k - d.names.length := by omega
    rw [push_up _ hne]
    unfold climb
    simp only [hlast, hups]

/-- What is pushed on a relative path is pushed on the path from the directory. -/
theorem push_descend (d r : Normal) (hrooted : r.rooted = false) (n : Path) :
    ((d.climb r.ups).descend r.names).push n =
      (d.climb (r.push n).ups).descend (r.push n).names := by
  by_cases hn : n = ['.', '.']
  · subst hn
    by_cases hnames : r.names = []
    · have hup : r.push ['.', '.'] = { r with ups := r.ups + 1 } := by
        unfold push
        rw [if_pos rfl, if_pos hnames, if_neg (by rw [hrooted]; decide)]
      have hclimb := d.push_climb r.ups
      rw [hup, hnames]
      unfold descend
      simp only [append_nil]
      exact hclimb
    · have hne : ((d.climb r.ups).descend r.names).names ≠ [] :=
        append_ne_nil_of_right_ne_nil _ hnames
      rw [push_up _ hne, push_up _ hnames]
      unfold descend
      simp only [dropLast_append_of_ne_nil hnames]
  · rw [push_name _ hn, push_name _ hn]
    unfold descend
    simp only [append_assoc]

theorem foldl_push_rooted (d : Normal) (ns : List Path) :
    (ns.foldl push d).rooted = d.rooted := by
  induction ns generalizing d with
  | nil => rfl
  | cons n ns ih =>
    rw [foldl_cons, ih]
    unfold push
    split_ifs <;> rfl

/-- To go up and down is what the normal form of the components says. -/
theorem foldl_push (d : Normal) (ns : List Path) :
    ns.foldl push d =
      (d.climb (ns.foldl push here).ups).descend (ns.foldl push here).names := by
  induction ns using List.reverseRecOn with
  | nil =>
    unfold climb descend here
    simp
  | append_singleton ns n ih =>
    rw [foldl_append, foldl_append, ih]
    exact push_descend d _ (foldl_push_rooted here ns) n

/-- Up `k` levels and down these names is below the directory if and only if there are so many
levels, or the root stops the way up, and the way down is the way back and more. -/
theorem inside_climb (d : Normal) (k : ℕ) (names : List Path) :
    Inside d ((d.climb k).descend names) ↔ (d.rooted = true ∨ k ≤ d.names.length) ∧
      ∃ n ns, names = d.names.drop (d.names.length - k) ++ n :: ns := by
  have hback : ∀ n ns, d.names.take (d.names.length - k) ++ names = d.names ++ n :: ns ↔
      names = d.names.drop (d.names.length - k) ++ n :: ns := by
    intro n ns
    conv_lhs =>
      rhs
      rw [← take_append_drop (d.names.length - k) d.names]
    rw [append_assoc, append_cancel_left_eq]
  unfold Inside
  show _ ∧ (if d.rooted = true then d.ups else d.ups + (k - d.names.length)) = d.ups ∧
    (∃ n ns, d.names.take (d.names.length - k) ++ names = d.names ++ n :: ns) ↔ _
  simp only [hback]
  by_cases hroot : d.rooted = true
  · rw [if_pos hroot]
    simp [climb, descend, hroot]
  · rw [if_neg hroot]
    simp only [climb, descend, hroot]
    constructor
    · rintro ⟨-, hups, hnames⟩
      exact ⟨.inr (by omega), hnames⟩
    · rintro ⟨hlen, hnames⟩
      refine ⟨trivial, ?_, hnames⟩
      have hle : k ≤ d.names.length := hlen.resolve_left (by decide)
      omega

theorem foldl_push_ups {d : Normal} (hroot : d.rooted = true) (ns : List Path) :
    (ns.foldl push d).ups = d.ups := by
  induction ns generalizing d with
  | nil => rfl
  | cons n ns ih =>
    have hsame : (d.push n).rooted = true ∧ (d.push n).ups = d.ups := by
      unfold push
      split_ifs <;> exact ⟨hroot, rfl⟩
    rw [foldl_cons, ih hsame.1, hsame.2]

end Normal

/-- The name leads below the directory: up no further than the directory has levels and then down,
through those it has left and at least one more; or from the root, through the directory. -/
def LeadsBelow (dir name : Path) : Prop :=
  if isAbsolute name then
    (normalize dir).rooted = true ∧
      ∃ n ns, (normalize name).names = (normalize dir).names ++ n :: ns
  else
    ((normalize dir).rooted = true ∨ (normalize name).ups ≤ (normalize dir).names.length) ∧
      ∃ n ns, (normalize name).names =
        (normalize dir).names.drop ((normalize dir).names.length - (normalize name).ups) ++ n :: ns

theorem normalize_ups {p : Path} (h : (normalize p).rooted = true) : (normalize p).ups = 0 := by
  unfold normalize at h ⊢
  rw [Normal.foldl_push_rooted] at h
  exact Normal.foldl_push_ups h _

/-- The paths that are below the directory they are joined to. -/
theorem inside_join (dir name : Path) :
    Normal.Inside (normalize dir) (normalize (join dir name)) ↔ LeadsBelow dir name := by
  unfold LeadsBelow
  by_cases habs : isAbsolute name = true
  · have hroot : (normalize name).rooted = true := by
      unfold normalize
      rw [Normal.foldl_push_rooted, habs]
    have hjoin : join dir name = name := if_pos habs
    rw [if_pos habs, hjoin]
    unfold Normal.Inside
    rw [hroot, normalize_ups hroot]
    constructor
    · intro hinside
      exact ⟨hinside.1.symm, hinside.2.2⟩
    · rintro ⟨hdir, hnames⟩
      exact ⟨hdir.symm, (normalize_ups hdir).symm, hnames⟩
  · have hrel : isAbsolute name = false := Bool.eq_false_iff.mpr habs
    have hname : normalize name = (components name).foldl Normal.push Normal.here := by
      unfold normalize
      rw [hrel]
      rfl
    rw [if_neg habs, normalize_join hrel, Normal.foldl_push, ← hname]
    exact Normal.inside_climb _ _ _

end LexicalPath
