import Gateway.Lib.Text
import Mathlib.Data.List.Induction
import Mathlib.Data.List.TakeDrop

/-!
# Paths

`pathlib.PurePosixPath` and `os.path.normpath`: a path is its root and its components.
Joining a segment appends its components, unless the segment is absolute. Normalisation goes
through the components with a stack, from which `..` takes the last one.

What a label is below a directory is said of the label alone: its own normal form first
climbs some directories up, and then has to come back down through the same ones.

## Key results

- `walk_normal`: a relative path may be normalised before it is walked
- `normalize_join_iff`: a label that is joined to a directory leads into it just when `Below`
  says so
-/

namespace Text

/-- `..` -/
def dotdot : Text := ['.', '.']

/-- The components of a path: what is between slashes, less the empty ones and `.`. -/
def components (t : Text) : List Text :=
  (t.splitOn '/').filter fun c => c ≠ [] ∧ c ≠ ['.']

end Text

/-- A path, by the number of slashes of its root and its components. -/
structure PurePath where
  root : Nat
  parts : List Text
deriving DecidableEq

namespace PurePath

open Text (dotdot)

/-- The slashes of the root that a text begins with: one slash or three and more are the root,
    and two are another. -/
def rootOf : Text → Nat
  | '/' :: '/' :: '/' :: _ => 1
  | '/' :: '/' :: _ => 2
  | '/' :: _ => 1
  | _ => 0

/-- `PurePosixPath(text)` -/
def ofText (t : Text) : PurePath := ⟨rootOf t, t.components⟩

/-- `path / segment` -/
def join (p : PurePath) (segment : Text) : PurePath :=
  if (ofText segment).root = 0 then { p with parts := p.parts ++ (ofText segment).parts }
  else ofText segment

/-- One component of `normpath`: `..` takes the last one off the stack, except that a relative
    path keeps those at its beginning. -/
def step (rooted : Bool) (stack : List Text) (c : Text) : List Text :=
  if c ≠ dotdot ∨ (rooted = false ∧ stack = []) ∨ stack.getLast? = some dotdot then stack ++ [c]
  else stack.dropLast

/-- The loop of `normpath`. -/
def walk (rooted : Bool) (stack parts : List Text) : List Text := parts.foldl (step rooted) stack

/-- `os.path.normpath` -/
def normalize (p : PurePath) : PurePath := { p with parts := walk (p.root ≠ 0) [] p.parts }

/-- The path without its last component. -/
def parent (p : PurePath) : PurePath := { p with parts := p.parts.dropLast }

/-- The path as a text. -/
def toText (p : PurePath) : Text :=
  if p.root = 0 ∧ p.parts = [] then ['.']
  else List.replicate p.root '/' ++ List.intercalate ['/'] p.parts

/-! ## Walking -/

section

variable {rooted : Bool} {stack : List Text}

@[simp] theorem walk_nil : walk rooted stack [] = stack := rfl

theorem walk_cons (c : Text) (parts : List Text) :
    walk rooted stack (c :: parts) = walk rooted (step rooted stack c) parts := rfl

theorem walk_append (parts parts' : List Text) :
    walk rooted stack (parts ++ parts') = walk rooted (walk rooted stack parts) parts' :=
  List.foldl_append

theorem step_of_ne {c : Text} (h : c ≠ dotdot) : step rooted stack c = stack ++ [c] := by
  rw [step, if_pos (.inl h)]

/-- Components other than `..` are appended. -/
theorem walk_ordinary {parts : List Text} (h : dotdot ∉ parts) :
    walk rooted stack parts = stack ++ parts := by
  induction parts generalizing stack with
  | nil => simp
  | cons c parts ih =>
    have hc : c ≠ dotdot := fun heq => h (heq ▸ List.mem_cons_self ..)
    rw [walk_cons, step_of_ne hc, ih fun hmem => h (List.mem_cons_of_mem _ hmem)]
    simp

/-- What a stack looks like: some `..`, which only a relative path has, and then other
    components. -/
structure Normal (rooted : Bool) (climbs : Nat) (ordinary : List Text) (stack : List Text) :
    Prop where
  eq : stack = List.replicate climbs dotdot ++ ordinary
  ordinary : dotdot ∉ ordinary
  rooted : rooted = true → climbs = 0

theorem Normal.step {climbs : Nat} {ordinary : List Text}
    (h : Normal rooted climbs ordinary stack) (c : Text) :
    ∃ climbs' ordinary', Normal rooted climbs' ordinary' (step rooted stack c) := by
  obtain ⟨rfl, hordinary, hrooted⟩ := h
  by_cases hc : c = dotdot
  · subst hc
    rcases List.eq_nil_or_concat' ordinary with rfl | ⟨init, last, rfl⟩
    · cases rooted with
      | true =>
        rw [hrooted rfl]
        exact ⟨0, [], by simp [PurePath.step], by simp, fun _ => rfl⟩
      | false =>
        refine ⟨climbs + 1, [], ?_, by simp, by simp⟩
        rw [List.append_nil, PurePath.step, if_pos]
        · simp [List.replicate_succ']
        · cases climbs <;> simp [List.getLast?_replicate]
    · have hlast : last ≠ dotdot := fun heq => hordinary (by simp [heq])
      exact ⟨climbs, init, by simp [PurePath.step, hlast], fun hmem => hordinary (by simp [hmem]),
        hrooted⟩
  · refine ⟨climbs, ordinary ++ [c], ?_, ?_, hrooted⟩
    · rw [step_of_ne hc, List.append_assoc]
    · simp [hordinary, Ne.symm hc]

theorem Normal.walk {climbs : Nat} {ordinary : List Text}
    (h : Normal rooted climbs ordinary stack) (parts : List Text) :
    ∃ climbs' ordinary', Normal rooted climbs' ordinary' (walk rooted stack parts) := by
  induction parts generalizing stack climbs ordinary with
  | nil => exact ⟨climbs, ordinary, h⟩
  | cons c parts ih =>
    obtain ⟨climbs', ordinary', hstep⟩ := h.step c
    exact ih hstep

theorem normal_walk (rooted : Bool) (parts : List Text) :
    ∃ climbs ordinary, Normal rooted climbs ordinary (walk rooted [] parts) :=
  Normal.walk ⟨rfl, by simp, fun _ => rfl⟩ parts

/-- After a component, `..` takes the component away. -/
theorem walk_back {parts : List Text} {c : Text} (hc : c ≠ dotdot) :
    step rooted (walk rooted stack (parts ++ [c])) dotdot = walk rooted stack parts := by
  rw [walk_append, walk_cons, walk_nil, step_of_ne hc]
  simp [step, hc]

/-- A relative path may be normalised before it is walked. -/
theorem walk_normal (parts : List Text) :
    walk rooted stack parts = walk rooted stack (walk false [] parts) := by
  induction parts using List.reverseRecOn with
  | nil => rfl
  | append_singleton parts c ih =>
    rw [walk_append, walk_append, ih]
    show step rooted (walk rooted stack (walk false [] parts)) c =
      walk rooted stack (step false (walk false [] parts) c)
    by_cases hkept : c ≠ dotdot ∨ (false = false ∧ walk false [] parts = []) ∨
        (walk false [] parts).getLast? = some dotdot
    · have hstep : step false (walk false [] parts) c = walk false [] parts ++ [c] := if_pos hkept
      rw [hstep, walk_append]
      rfl
    · -- the component that `..` takes away is not `..` itself
      have hstep : step false (walk false [] parts) c = (walk false [] parts).dropLast :=
        if_neg hkept
      simp only [ne_eq, not_or, Decidable.not_not, true_and] at hkept
      obtain ⟨rfl, hne, hlast⟩ := hkept
      obtain ⟨init, last, hparts⟩ := (List.eq_nil_or_concat' (walk false [] parts)).resolve_left hne
      rw [hparts] at hlast hstep ⊢
      rw [hstep, List.dropLast_concat]
      apply walk_back
      simpa using hlast

/-- Climbing up directories that are there. -/
theorem walk_up (pre : List Text) {ordinary : List Text} (h : dotdot ∉ ordinary) {n : Nat}
    (hn : n ≤ ordinary.length) :
    walk rooted (pre ++ ordinary) (List.replicate n dotdot) =
      pre ++ ordinary.take (ordinary.length - n) := by
  induction n generalizing ordinary with
  | zero => simp
  | succ n ih =>
    obtain ⟨init, last, rfl⟩ := (List.eq_nil_or_concat' ordinary).resolve_left (by
      intro hnil
      simp [hnil] at hn)
    have hlast : last ≠ dotdot := fun heq => h (by simp [heq])
    have hinit : dotdot ∉ init := fun hmem => h (by simp [hmem])
    have hlength : n ≤ init.length := by simpa using hn
    have hstep : step rooted (pre ++ (init ++ [last])) dotdot = pre ++ init := by
      simp [step, hlast, ← List.append_assoc]
    rw [List.replicate_succ, walk_cons, hstep, ih hinit hlength]
    simp [List.take_append_of_le_length]

/-- Climbing further up from the root. -/
theorem walk_up_root (n : Nat) : walk true [] (List.replicate n dotdot) = [] := by
  induction n with
  | zero => rfl
  | succ n ih =>
    rw [List.replicate_succ, walk_cons]
    exact ih

/-- Climbing further up on a relative path. -/
theorem walk_up_relative (k n : Nat) :
    walk false (List.replicate k dotdot) (List.replicate n dotdot) =
      List.replicate (k + n) dotdot := by
  induction n generalizing k with
  | zero => simp
  | succ n ih =>
    have hstep : step false (List.replicate k dotdot) dotdot = List.replicate (k + 1) dotdot := by
      rw [step, if_pos, List.replicate_succ']
      cases k <;> simp [List.getLast?_replicate]
    rw [List.replicate_succ, walk_cons, hstep, ih]
    congr 1
    omega

end

/-! ## Below a directory -/

/-- The `..` that the normal form begins with. -/
def climbs (p : PurePath) : Nat := (p.normalize.parts.takeWhile (· = dotdot)).length

/-- The rest of the normal form. -/
def ordinary (p : PurePath) : List Text := p.normalize.parts.dropWhile (· = dotdot)

theorem normal_normalize (p : PurePath) :
    Normal (p.root ≠ 0) p.climbs p.ordinary p.normalize.parts := by
  obtain ⟨k, rest, hnormal⟩ := normal_walk (p.root ≠ 0) p.parts
  have hparts : p.normalize.parts = List.replicate k dotdot ++ rest := hnormal.eq
  have hrest : rest.takeWhile (· = dotdot) = [] ∧ rest.dropWhile (· = dotdot) = rest := by
    cases rest with
    | nil => simp
    | cons c rest =>
      have hc : c ≠ dotdot := fun heq => hnormal.ordinary (heq ▸ List.mem_cons_self ..)
      simp [hc]
  have hclimbs : p.climbs = k := by
    rw [climbs, hparts, List.takeWhile_append_of_pos (by simp), hrest.1]
    simp
  have hordinary : p.ordinary = rest := by
    rw [ordinary, hparts, List.dropWhile_append_of_pos (by simp), hrest.2]
  rw [hclimbs, hordinary]
  exact hnormal

/-- What is left of a label that leads into a directory. A relative label climbs up by the
    `..` it begins with and must come down through the directories that it left; an absolute
    one must begin with the directory. -/
def Below (dir : PurePath) (label : Text) (rest : List Text) : Prop :=
  if (ofText label).root = 0 then
    (dir.root = 0 → (ofText label).climbs ≤ dir.ordinary.length) ∧
      (ofText label).ordinary =
        dir.ordinary.drop (dir.ordinary.length - (ofText label).climbs) ++ rest
  else (ofText label).root = dir.root ∧ (ofText label).ordinary = dir.ordinary ++ rest

/-- Where a label leads that is joined to a directory. -/
theorem normalize_join_iff {dir : PurePath} (hdir : dir.ordinary ≠ []) (label : Text)
    (rest : List Text) :
    (dir.join label).normalize = ⟨dir.root, dir.normalize.parts ++ rest⟩ ↔
      Below dir label rest := by
  have hlabel := normal_normalize (ofText label)
  have hnormal := normal_normalize dir
  unfold join Below
  split
  · next hrelative =>
    -- the label may be normalised first; then it climbs, and comes down
    have hwalk : (normalize { dir with parts := dir.parts ++ (ofText label).parts }).parts =
        walk (dir.root ≠ 0) (List.replicate dir.climbs dotdot ++ dir.ordinary)
          (List.replicate (ofText label).climbs dotdot) ++ (ofText label).ordinary := by
      have hfirst : walk false [] (ofText label).parts = (ofText label).normalize.parts := by
        simp [normalize, hrelative]
      show walk (dir.root ≠ 0) [] (dir.parts ++ (ofText label).parts) = _
      rw [walk_append, walk_normal, hfirst, hlabel.eq, walk_append,
        walk_ordinary hlabel.ordinary, ← hnormal.eq]
      rfl
    rw [PurePath.mk.injEq, hwalk, hnormal.eq]
    simp only [normalize, true_and]
    by_cases hn : (ofText label).climbs ≤ dir.ordinary.length
    · rw [walk_up _ hnormal.ordinary hn, List.append_assoc, List.append_assoc,
        List.append_cancel_left_eq]
      have hsplit : dir.ordinary ++ rest =
          dir.ordinary.take (dir.ordinary.length - (ofText label).climbs) ++
            (dir.ordinary.drop (dir.ordinary.length - (ofText label).climbs) ++ rest) := by
        rw [← List.append_assoc, List.take_append_drop]
      rw [hsplit, List.append_cancel_left_eq]
      simp [hn]
    · -- it climbs further up than the directory is deep
      have hbeyond : List.replicate (ofText label).climbs dotdot =
          List.replicate dir.ordinary.length dotdot ++
            List.replicate ((ofText label).climbs - dir.ordinary.length) dotdot := by
        rw [← List.replicate_add]
        congr 1
        omega
      rw [hbeyond, walk_append, walk_up _ hnormal.ordinary (Nat.le_refl _)]
      simp only [Nat.sub_self, List.take_zero, List.append_nil]
      have hdrop : dir.ordinary.length - (ofText label).climbs = 0 := by omega
      rw [hdrop, List.drop_zero]
      by_cases hroot : dir.root = 0
      · -- a relative path then has a `..` where the directory has a name
        obtain ⟨m, hm⟩ : ∃ m, (ofText label).climbs - dir.ordinary.length = m + 1 :=
          Nat.exists_eq_add_one.mpr (by omega)
        obtain ⟨c, names, hnames⟩ := List.exists_cons_of_ne_nil hdir
        have hc : dotdot ≠ c := by
          intro heq
          exact hnormal.ordinary (by simp [hnames, heq])
        have hrooted : decide (dir.root ≠ 0) = false := by simp [hroot]
        rw [hrooted, walk_up_relative, List.replicate_add, List.append_assoc, List.append_assoc,
          List.append_cancel_left_eq, hm, hnames]
        simp only [List.replicate_succ, List.cons_append, List.cons.injEq, hc, false_and, false_iff]
        rw [hnames] at hn
        exact fun h => hn (h.1 hroot)
      · have hrooted : decide (dir.root ≠ 0) = true := by simp [hroot]
        rw [hnormal.rooted hrooted, hrooted]
        simp [walk_up_root, hroot]
  · next habsolute =>
    have hrooted : decide ((ofText label).root ≠ 0) = true := by simpa using habsolute
    have hparts := hlabel.eq
    rw [hlabel.rooted hrooted, List.replicate_zero, List.nil_append] at hparts
    have hsame : (ofText label).normalize = ⟨(ofText label).root, (ofText label).ordinary⟩ := by
      rw [← hparts]
      rfl
    rw [hsame, PurePath.mk.injEq]
    refine and_congr_right fun hroot => ?_
    have hdirRooted : decide (dir.root ≠ 0) = true := by rw [← hroot, hrooted]
    rw [hnormal.eq, hnormal.rooted hdirRooted, List.replicate_zero, List.nil_append]

/-! ## Names -/

/-- A component that is neither empty nor `.` nor `..`. -/
def IsName (t : Text) : Prop := t ≠ [] ∧ t ≠ ['.'] ∧ t ≠ dotdot ∧ '/' ∉ t

theorem ofText_name {t : Text} (h : IsName t) : ofText t = ⟨0, [t]⟩ := by
  obtain ⟨hne, hdot, -, hslash⟩ := h
  have hsplit : t.splitOn '/' = [t] := by
    have hone : (List.intercalate ['/'] [t]).splitOn '/' = [t] :=
      List.splitOn_intercalate '/' (by simpa using hslash) (by simp)
    simpa [List.intercalate] using hone
  have hparts : t.components = [t] := by simp [Text.components, hsplit, hne, hdot]
  obtain ⟨c, rest, rfl⟩ := List.exists_cons_of_ne_nil hne
  have hc : c ≠ '/' := fun heq => hslash (heq ▸ List.mem_cons_self ..)
  have hroot : rootOf (c :: rest) = 0 := by
    unfold rootOf
    split <;> simp_all
  rw [ofText, hparts, hroot]

theorem join_name (p : PurePath) {t : Text} (h : IsName t) :
    p.join t = ⟨p.root, p.parts ++ [t]⟩ := by
  rw [join, ofText_name h, if_pos rfl]

theorem normalize_join_name (p : PurePath) {t : Text} (h : IsName t) :
    (p.join t).normalize = ⟨p.root, p.normalize.parts ++ [t]⟩ := by
  rw [join_name p h, normalize]
  congr 1
  show walk _ [] (p.parts ++ [t]) = _
  rw [walk_append, walk_cons, walk_nil, step_of_ne h.2.2.1]
  rfl

theorem ordinary_join_name (p : PurePath) {t : Text} (h : IsName t) :
    (p.join t).ordinary = p.ordinary ++ [t] := by
  have hnormal := (normal_normalize p).eq
  rw [ordinary, normalize_join_name p h, hnormal, List.append_assoc,
    List.dropWhile_append_of_pos (by simp)]
  cases hordinary : p.ordinary with
  | nil => simp [h.2.2.1]
  | cons c rest =>
    have hc : c ≠ dotdot := by
      intro heq
      exact (normal_normalize p).ordinary (by simp [hordinary, heq])
    simp [hc]

end PurePath
