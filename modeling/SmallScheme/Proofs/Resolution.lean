/-
  RESOLVING the name of a module.

  A name is cut into steps at its dots, and the steps are joined to a path, to which the suffix is
  added.  So a name that does not begin with a slash should stand for a relative path, to be looked
  for under the roots.  Two kinds of names do not.

  * Where a slash follows a dot, a step is an absolute path, which discards the steps before it
    (`StepsToRoot`): the name `x./out` leads to `/out.scm`, wherever the roots are.
  * Where there is nothing but dots no step has a part (`OnlyDots`), so that there is nothing to
    which the suffix could be added, and resolving fails.

  All the others do: they are looked for under one root after the other and nowhere else.

  1. **Cutting a text** at a mark: which pieces there are, and how they begin.
  2. **Steps**: when a path is absolute, and what joining paths comes to.
  3. **What path a name stands for** (`modulePath_relative`, `modulePath_onlyDots`,
     `modulePath_stepsToRoot`): the three cases exclude each other and leave no name out.
  4. **Where a path is looked for** (`Finds`, `search_finds`): under the roots in order, up to the
     first file.
  5. Together, `modules_resolve_under_roots`; and `names_leave_roots` shows the two exceptions.
-/
import SmallScheme.Proofs.Aloof

namespace SmallScheme

namespace Path

/-! ## Cutting a text -/

variable {mark c : Char} {cs piece : List Char} {pieces : List (List Char)}

/-- Cutting leaves at least one piece. -/
theorem exists_splitAt (mark : Char) (cs : List Char) :
    ∃ piece pieces, splitAt mark cs = piece :: pieces := by
  unfold splitAt
  split
  · exact ⟨_, _, rfl⟩
  · split
    · exact ⟨_, _, rfl⟩
    · split <;> exact ⟨_, _, rfl⟩

/-- A mark closes a piece. -/
theorem splitAt_cons_self (mark : Char) (cs : List Char) :
    splitAt mark (mark :: cs) = [] :: splitAt mark cs := by
  rw [splitAt, if_pos rfl]

/-- Any other character is in the first piece. -/
theorem splitAt_cons_of_ne (hc : c ≠ mark) (h : splitAt mark cs = piece :: pieces) :
    splitAt mark (c :: cs) = (c :: piece) :: pieces := by
  rw [splitAt, if_neg hc, h]

/-- No piece holds the mark. -/
theorem notMem_of_mem_splitAt (h : piece ∈ splitAt mark cs) : mark ∉ piece := by
  induction cs generalizing piece with
  | nil =>
    obtain rfl := List.mem_singleton.mp h
    exact List.not_mem_nil
  | cons d ds ih =>
    -- at a mark a new piece starts; any other character goes to the first piece
    by_cases hd : d = mark
    · subst hd
      rw [splitAt_cons_self] at h
      rcases List.mem_cons.mp h with rfl | h
      · exact List.not_mem_nil
      · exact ih h
    · obtain ⟨first, others, hs⟩ := exists_splitAt mark ds
      rw [splitAt_cons_of_ne hd hs] at h
      rw [hs] at ih
      rcases List.mem_cons.mp h with rfl | h
      · rw [List.mem_cons, not_or]
        exact ⟨fun heq => hd heq.symm, ih List.mem_cons_self⟩
      · exact ih (List.mem_cons_of_mem _ h)

/-- The first piece begins as the text does. -/
theorem head?_of_splitAt (hc : c ≠ mark) (h : splitAt mark cs = piece :: pieces) :
    piece.head? = some c ↔ cs.head? = some c := by
  cases cs with
  | nil =>
    cases h
    exact Iff.rfl
  | cons d ds =>
    by_cases hd : d = mark
    · subst hd
      rw [splitAt_cons_self] at h
      cases h
      exact ⟨nofun, fun heq => absurd (Option.some.inj heq).symm hc⟩
    · obtain ⟨first, others, hs⟩ := exists_splitAt mark ds
      rw [splitAt_cons_of_ne hd hs] at h
      cases h
      exact Iff.rfl

/-- Another piece begins with a character just where this character follows the mark. -/
theorem exists_head?_iff (hc : c ≠ mark) (h : splitAt mark cs = piece :: pieces) :
    (∃ p ∈ pieces, p.head? = some c) ↔ [mark, c] <:+: cs := by
  induction cs generalizing piece pieces with
  | nil =>
    cases h
    constructor
    · rintro ⟨p, hp, -⟩
      cases hp
    · intro hwithin
      cases List.eq_nil_of_infix_nil hwithin
  | cons d ds ih =>
    obtain ⟨first, others, hs⟩ := exists_splitAt mark ds
    rw [List.infix_cons_iff, List.cons_prefix_cons, ← ih hs]
    by_cases hd : d = mark
    -- the text begins with the mark: what follows it begins the next piece
    · subst hd
      rw [splitAt_cons_self, hs] at h
      cases h
      have hnext : [c] <+: ds ↔ first.head? = some c := by
        rw [head?_of_splitAt hc hs]
        cases ds with
        | nil => exact ⟨fun hprefix => (nomatch List.prefix_nil.mp hprefix), nofun⟩
        | cons e es =>
          rw [List.cons_prefix_cons, List.head?_cons, Option.some_inj]
          exact ⟨fun hprefix => hprefix.1.symm, fun heq => ⟨heq.symm, List.nil_prefix⟩⟩
      rw [hnext]
      constructor
      · rintro ⟨p, hp, hhead⟩
        rcases List.mem_cons.mp hp with rfl | hp
        · exact Or.inl ⟨rfl, hhead⟩
        · exact Or.inr ⟨p, hp, hhead⟩
      · rintro (⟨-, hhead⟩ | ⟨p, hp, hhead⟩)
        · exact ⟨first, List.mem_cons_self, hhead⟩
        · exact ⟨p, List.mem_cons_of_mem _ hp, hhead⟩
    · rw [splitAt_cons_of_ne hd hs] at h
      cases h
      constructor
      · exact Or.inr
      · rintro (⟨heq, -⟩ | hothers)
        · exact absurd heq.symm hd
        · exact hothers

/-- All pieces are empty just where there is nothing but marks. -/
theorem forall_splitAt_eq_nil :
    (∀ p ∈ splitAt mark cs, p = []) ↔ ∀ c ∈ cs, c = mark := by
  induction cs with
  | nil => exact ⟨fun _ => List.forall_mem_nil _, fun _ => List.forall_mem_singleton.mpr rfl⟩
  | cons d ds ih =>
    by_cases hd : d = mark
    · subst hd
      rw [splitAt_cons_self, List.forall_mem_cons, List.forall_mem_cons, ih]
      exact ⟨fun h => ⟨rfl, h.2⟩, fun h => ⟨rfl, h.2⟩⟩
    · obtain ⟨first, others, hs⟩ := exists_splitAt mark ds
      rw [splitAt_cons_of_ne hd hs, List.forall_mem_cons, List.forall_mem_cons]
      exact ⟨fun h => (nomatch h.1), fun h => absurd h.1 hd⟩

/-! ## Steps -/

/-- A leading slash makes an anchor. -/
theorem anchorOf_cons_slash (cs : List Char) : anchorOf ('/' :: cs) ≠ .relative := by
  have htake : ('/' :: cs).takeWhile (· == '/') = '/' :: cs.takeWhile (· == '/') := rfl
  unfold anchorOf
  rw [htake, List.length_cons]
  split
  · next h => exact absurd h (Nat.succ_ne_zero _)
  · nofun
  · nofun

/-- Without it there is none. -/
theorem anchorOf_of_head? (h : cs.head? ≠ some '/') : anchorOf cs = .relative := by
  cases cs with
  | nil => rfl
  | cons d ds =>
    have hd : (d == '/') = false := beq_eq_false_iff_ne.mpr fun hd => h (congrArg some hd)
    have htake : (d :: ds).takeWhile (· == '/') = [] := by
      rw [List.takeWhile_cons, hd]
      rfl
    rw [anchorOf, htake]
    rfl

/-- A text writes an absolute path if it begins with a slash. -/
theorem isAbsolute_ofString {s : String} :
    (ofString s).isAbsolute = true ↔ s.toList.head? = some '/' := by
  show decide (anchorOf s.toList ≠ .relative) = true ↔ _
  rw [decide_eq_true_eq]
  constructor
  · intro h
    exact Decidable.byContradiction fun hhead => h (anchorOf_of_head? hhead)
  · intro hhead
    obtain ⟨ds, hds⟩ := List.head?_eq_some_iff.mp hhead
    rw [hds]
    exact anchorOf_cons_slash ds

/-- A text without a leading slash writes a relative path. -/
theorem isAbsolute_ofString_false {s : String} (h : s.toList.head? ≠ some '/') :
    (ofString s).isAbsolute = false := by
  rw [Bool.eq_false_iff, ne_eq, isAbsolute_ofString]
  exact h

/-- A step that is not empty has a part. -/
theorem parts_ofString_ne_nil {s : String} (hs : s.toList ≠ []) (hdot : '.' ∉ s.toList)
    (hslash : s.toList.head? ≠ some '/') : (ofString s).parts ≠ [] := by
  obtain ⟨d, ds, hlist⟩ := List.exists_cons_of_ne_nil hs
  rw [hlist] at hdot hslash
  have hd : d ≠ '/' := fun h => hslash (congrArg some h)
  obtain ⟨first, others, hsplit⟩ := exists_splitAt '/' ds
  have hkeep : d :: first ≠ [] ∧ d :: first ≠ ['.'] := by
    refine ⟨List.cons_ne_nil _ _, fun h => hdot ?_⟩
    rw [(List.cons.inj h).1]
    exact List.mem_cons_self
  have hmem : d :: first ∈ (splitAt '/' s.toList).filter fun part => part ≠ [] ∧ part ≠ ['.'] := by
    rw [hlist, splitAt_cons_of_ne hd hsplit, List.mem_filter]
    exact ⟨List.mem_cons_self, decide_eq_true hkeep⟩
  exact List.ne_nil_of_mem (List.mem_map_of_mem hmem)

variable {steps : List Path}

/-- Relative paths are joined to all their parts. -/
theorem foldl_join_of_relative (h : ∀ q ∈ steps, q.isAbsolute = false) (p : Path) :
    steps.foldl join p = ⟨p.anchor, p.parts ++ steps.flatMap Path.parts⟩ := by
  induction steps generalizing p with
  | nil => rw [List.foldl_nil, List.flatMap_nil, List.append_nil]
  | cons q steps ih =>
    obtain ⟨hq, hsteps⟩ := List.forall_mem_cons.mp h
    have hjoin : p.join q = ⟨p.anchor, p.parts ++ q.parts⟩ := by
      rw [join, hq, if_neg Bool.false_ne_true]
    rw [List.foldl_cons, hjoin, ih hsteps, List.flatMap_cons, List.append_assoc]

/-- An absolute path among them makes the whole absolute. -/
theorem isAbsolute_foldl_join (p : Path)
    (h : p.isAbsolute = true ∨ ∃ q ∈ steps, q.isAbsolute = true) :
    (steps.foldl join p).isAbsolute = true := by
  induction steps generalizing p with
  | nil =>
    rcases h with h | ⟨q, hq, -⟩
    · exact h
    · cases hq
  | cons q steps ih =>
    rw [List.foldl_cons]
    refine ih (p.join q) ?_
    -- an absolute step throws away what is before it, and a relative one keeps it
    by_cases hq : q.isAbsolute = true
    · rw [join_absolute hq]
      exact Or.inl hq
    · rcases h with h | ⟨r, hr, habsolute⟩
      · rw [join, if_neg hq]
        exact Or.inl h
      · rcases List.mem_cons.mp hr with rfl | hr
        · exact absurd habsolute hq
        · exact Or.inr ⟨r, hr, habsolute⟩

end Path

namespace Loader

/-! ## What path a name stands for -/

/-- A slash follows a dot somewhere in the name, and it is not the name of a file. -/
def StepsToRoot (name : String) : Prop :=
  ¬ suffix.toList <:+ name.toList ∧ ['.', '/'] <:+: name.toList

/-- There is nothing but dots in the name, if anything. -/
def OnlyDots (name : String) : Prop := ∀ c ∈ name.toList, c = '.'

/-- The suffix is at the end of the characters. -/
theorem endsWith_suffix_iff {name : String} :
    name.endsWith suffix = true ↔ suffix.toList <:+ name.toList := by
  rw [← String.endsWith_toSlice, String.Slice.endsWith_string_iff, String.copy_toSlice]

/-- The path along which the steps of a name lead. -/
def stepsPath (name : String) : Path :=
  ((Path.splitAt '.' name.toList).map fun step => Path.ofString (String.ofList step)).foldl
    Path.join ⟨.relative, []⟩

/-- The name of a file is its path. -/
theorem modulePath_of_suffix {name : String} (h : suffix.toList <:+ name.toList) :
    modulePath name = .ok (.ofString name) := by
  rw [modulePath, if_pos (endsWith_suffix_iff.mpr h)]

/-- Any other name leads along its steps, to a file with the suffix. -/
theorem modulePath_of_steps {name : String} (h : ¬ suffix.toList <:+ name.toList) :
    modulePath name = match (stepsPath name).parts.getLast? with
      | none => .error (.namelessPath (stepsPath name))
      | some last =>
        .ok { stepsPath name with
          parts := (stepsPath name).parts.dropLast ++ [last ++ suffix] } := by
  rw [modulePath, if_neg fun hends => h (endsWith_suffix_iff.mp hends)]
  rfl

/-- A name steps to the root where one of its steps is absolute. -/
theorem stepsPath_isAbsolute {name : String} (h : ['.', '/'] <:+: name.toList) :
    (stepsPath name).isAbsolute = true := by
  obtain ⟨first, others, hsplit⟩ := Path.exists_splitAt '.' name.toList
  obtain ⟨step, hstep, hhead⟩ := (Path.exists_head?_iff (by decide) hsplit).mpr h
  refine Path.isAbsolute_foldl_join _ (Or.inr ⟨.ofString (String.ofList step), ?_, ?_⟩)
  · rw [hsplit]
    exact List.mem_map_of_mem (List.mem_cons_of_mem _ hstep)
  · rw [Path.isAbsolute_ofString, String.toList_ofList]
    exact hhead

section Steps

variable {name : String} (hname : name.toList.head? ≠ some '/')
include hname

/-- No step is absolute, where no slash follows a dot. -/
theorem head?_step_ne (h : ¬ ['.', '/'] <:+: name.toList) {step : List Char}
    (hstep : step ∈ Path.splitAt '.' name.toList) : step.head? ≠ some '/' := by
  obtain ⟨first, others, hsplit⟩ := Path.exists_splitAt '.' name.toList
  rw [hsplit] at hstep
  intro hhead
  rcases List.mem_cons.mp hstep with rfl | hstep
  · exact hname ((Path.head?_of_splitAt (by decide) hsplit).mp hhead)
  · exact h ((Path.exists_head?_iff (by decide) hsplit).mp ⟨step, hstep, hhead⟩)

/-- Where no step is absolute, the parts of all steps are the path, one after the other. -/
theorem stepsPath_of_relative (h : ¬ ['.', '/'] <:+: name.toList) :
    stepsPath name = ⟨.relative, (Path.splitAt '.' name.toList).flatMap fun step =>
      (Path.ofString (String.ofList step)).parts⟩ := by
  rw [stepsPath, Path.foldl_join_of_relative, List.nil_append, List.flatMap_map]
  rintro q hq
  obtain ⟨step, hstep, rfl⟩ := List.mem_map.mp hq
  refine Path.isAbsolute_ofString_false ?_
  rw [String.toList_ofList]
  exact head?_step_ne hname h hstep

/-- Where no step is absolute, there is a part unless there is nothing but dots. -/
theorem parts_stepsPath_eq_nil (h : ¬ ['.', '/'] <:+: name.toList) :
    (stepsPath name).parts = [] ↔ OnlyDots name := by
  rw [stepsPath_of_relative hname h, List.flatMap_eq_nil_iff, OnlyDots,
    ← Path.forall_splitAt_eq_nil]
  refine forall_congr' fun step => forall_congr' fun hstep => ⟨fun hparts => ?_, ?_⟩
  · refine Decidable.byContradiction fun hne => ?_
    refine Path.parts_ofString_ne_nil ?_ ?_ ?_ hparts <;> rw [String.toList_ofList]
    · exact hne
    · exact Path.notMem_of_mem_splitAt hstep
    · exact head?_step_ne hname h hstep
  · rintro rfl
    rfl

end Steps

/-- No name of a file has nothing but dots, and neither has a name that steps to the root. -/
theorem OnlyDots.not_suffix {name : String} (h : OnlyDots name) :
    ¬ suffix.toList <:+ name.toList := by
  intro hending
  have hlast : 'm' ∈ suffix.toList := by decide
  exact absurd (h 'm' (hending.subset hlast)) (by decide)

/-- Nor do they step to the root. -/
theorem OnlyDots.not_infix {name : String} (h : OnlyDots name) :
    ¬ ['.', '/'] <:+: name.toList := by
  intro hwithin
  exact absurd (h '/' (hwithin.subset (by decide))) (by decide)

/-- Nor do they begin with a slash. -/
theorem OnlyDots.head?_ne {name : String} (h : OnlyDots name) :
    name.toList.head? ≠ some '/' := by
  intro hhead
  exact absurd (h '/' (List.mem_of_head? hhead)) (by decide)

/-- A name that does not begin with a slash, does not step to the root and is not made of dots only
    stands for a relative path. -/
theorem modulePath_relative {name : String} (hname : name.toList.head? ≠ some '/')
    (hsteps : ¬ StepsToRoot name) (hdots : ¬ OnlyDots name) :
    ∃ rel : Path, rel.isAbsolute = false ∧ modulePath name = .ok rel := by
  by_cases hending : suffix.toList <:+ name.toList
  · exact ⟨.ofString name, Path.isAbsolute_ofString_false hname, modulePath_of_suffix hending⟩
  · have hwithin : ¬ ['.', '/'] <:+: name.toList := fun h => hsteps ⟨hending, h⟩
    have hrelative : (stepsPath name).anchor = .relative := by
      rw [stepsPath_of_relative hname hwithin]
    have hparts : (stepsPath name).parts ≠ [] := fun h =>
      hdots ((parts_stepsPath_eq_nil hname hwithin).mp h)
    rw [modulePath_of_steps hending, List.getLast?_eq_some_getLast hparts]
    refine ⟨_, ?_, rfl⟩
    show decide ((stepsPath name).anchor ≠ .relative) = false
    rw [hrelative]
    rfl

/-- Dots only: the path has no name to which the suffix could be added. -/
theorem modulePath_onlyDots {name : String} (h : OnlyDots name) :
    modulePath name = .error (.namelessPath ⟨.relative, []⟩) := by
  have hparts := (parts_stepsPath_eq_nil h.head?_ne h.not_infix).mpr h
  -- no step has a part, so the path is empty
  have hpath : stepsPath name = ⟨.relative, []⟩ := by
    rw [stepsPath_of_relative h.head?_ne h.not_infix] at hparts ⊢
    exact congrArg (Path.mk .relative) hparts
  rw [modulePath_of_steps h.not_suffix, hpath]
  rfl

/-- A step to the root: the path is absolute, whether it has a name or not. -/
theorem modulePath_stepsToRoot {name : String} (h : StepsToRoot name) :
    ∃ path : Path, path.isAbsolute = true ∧
      (modulePath name = .ok path ∨ modulePath name = .error (.namelessPath path)) := by
  obtain ⟨hending, hwithin⟩ := h
  have habsolute := stepsPath_isAbsolute hwithin
  rw [modulePath_of_steps hending]
  cases (stepsPath name).parts.getLast? with
  | none => exact ⟨stepsPath name, habsolute, Or.inr rfl⟩
  | some last =>
    -- whether a path is absolute does not depend on its parts
    exact ⟨⟨(stepsPath name).anchor, (stepsPath name).parts.dropLast ++ [last ++ suffix]⟩,
      habsolute, Or.inl rfl⟩

end Loader

/-! ## Where a path is looked for -/

/-- The state after a module's path has been looked for under these roots. -/
def State.tried (s : State) (name : String) (rel : Path) (roots : List Path) : State :=
  { s with events :=
      s.events ++ (roots.map fun root => Event.trying (root.join rel) name).toArray }

namespace Loader

variable {loader : Loader}

/-- Only a name that is too long keeps the question open whether there is a file. -/
theorem isFile_eq_error {path : Path} {fault : Fault} (h : loader.isFile path = .error fault) :
    fault = .unreadable path .nameTooLong := by
  unfold isFile at h
  split at h
  · cases h
  · split at h <;> cases h
    rfl

/-- Whether there is a file does not depend on the state. -/
theorem checkFile_apply (path : Path) (s : State) :
    loader.checkFile path s = Run.result (loader.isFile path) s := by
  unfold checkFile
  cases loader.isFile path <;> rfl

/-- Without roots nothing is tried. -/
theorem tried_nil (s : State) (name : String) (rel : Path) : s.tried name rel [] = s := by
  rw [State.tried, List.map_nil, Array.append_empty]

/-- A root is tried, and then others. -/
theorem tried_cons (s : State) (name : String) (rel root : Path) (roots : List Path) :
    (s.tried name rel [root]).tried name rel roots = s.tried name rel (root :: roots) := by
  simp only [State.tried, List.map_cons, List.map_nil, Array.append_assoc, List.append_toArray,
    List.cons_append, List.nil_append]

/-- The first root is tried, and the others only if there is no file. -/
theorem search_cons (loader : Loader) (name : String) (rel root : Path) (roots : List Path)
    (s : State) : loader.search name rel (root :: roots) s =
      match loader.isFile (root.join rel) with
      | .ok true => .ok (some (root.join rel)) (s.tried name rel [root])
      | .ok false => loader.search name rel roots (s.tried name rel [root])
      | .error fault => .error fault (s.tried name rel [root]) := by
  have hrecord : Run.record (.trying (root.join rel) name) s
      = .ok () (s.tried name rel [root]) := by
    rw [State.tried, List.map_singleton, Array.append_singleton]
    rfl
  rw [search, Run.bind_apply, hrecord]
  dsimp only
  rw [Run.bind_apply, checkFile_apply]
  cases loader.isFile (root.join rel) with
  | error fault => rfl
  | ok answer => cases answer <;> rfl

/-- What looking for a relative path under the roots comes to: the first file that there is, or
    none, unless a name is met before that is too long. -/
inductive Finds (loader : Loader) (rel : Path) : List Path → Except Fault (Option Path) → Prop
  | nothing {roots : List Path} (h : ∀ root ∈ roots, loader.isFile (root.join rel) = .ok false) :
    Finds loader rel roots (.ok none)
  | file (before : List Path) {after : List Path} {root : Path}
    (hbefore : ∀ r ∈ before, loader.isFile (r.join rel) = .ok false)
    (h : loader.isFile (root.join rel) = .ok true) :
    Finds loader rel (before ++ root :: after) (.ok (some (root.join rel)))
  | fault (before : List Path) {after : List Path} {root : Path}
    (hbefore : ∀ r ∈ before, loader.isFile (r.join rel) = .ok false)
    (h : loader.isFile (root.join rel) = .error (.unreadable (root.join rel) .nameTooLong)) :
    Finds loader rel (before ++ root :: after) (.error (.unreadable (root.join rel) .nameTooLong))

/-- Where there is no file under a root, the others decide. -/
theorem Finds.next {rel root : Path} {roots : List Path} {outcome : Except Fault (Option Path)}
    (hroot : loader.isFile (root.join rel) = .ok false) (h : loader.Finds rel roots outcome) :
    loader.Finds rel (root :: roots) outcome := by
  cases h with
  | nothing h => exact .nothing (List.forall_mem_cons.mpr ⟨hroot, h⟩)
  | file before hbefore h =>
    exact .file (root :: before) (List.forall_mem_cons.mpr ⟨hroot, hbefore⟩) h
  | fault before hbefore h =>
    exact .fault (root :: before) (List.forall_mem_cons.mpr ⟨hroot, hbefore⟩) h

/-- Looking under one root after the other ends at the first where there is a file. -/
theorem search_finds (loader : Loader) (name : String) (rel : Path) (roots : List Path)
    (s : State) : ∃ looked outcome, looked <+: roots ∧ loader.Finds rel roots outcome ∧
      loader.search name rel roots s = Run.result outcome (s.tried name rel looked) := by
  induction roots generalizing s with
  | nil =>
    refine ⟨[], .ok none, List.nil_prefix, .nothing (List.forall_mem_nil _), ?_⟩
    rw [tried_nil]
    rfl
  | cons root roots ih =>
    have hone : [root] <+: root :: roots := ⟨roots, rfl⟩
    rw [search_cons]
    -- the search goes on only if there is no such file under this root
    cases hfile : loader.isFile (root.join rel) with
    | error fault =>
      obtain rfl := isFile_eq_error hfile
      exact ⟨[root], _, hone, .fault [] (List.forall_mem_nil _) hfile, rfl⟩
    | ok answer =>
      cases answer with
      | true => exact ⟨[root], _, hone, .file [] (List.forall_mem_nil _) hfile, rfl⟩
      | false =>
        obtain ⟨looked, outcome, hlooked, hfinds, hsearch⟩ := ih (s.tried name rel [root])
        refine ⟨root :: looked, outcome, (List.prefix_cons_inj root).mpr hlooked,
          hfinds.next hfile, ?_⟩
        dsimp only
        rw [hsearch, tried_cons]

/-- It depends on no file but those under the roots. -/
theorem search_congr {loader loader' : Loader} {rel : Path} {roots : List Path}
    (h : ∀ root ∈ roots, loader'.isFile (root.join rel) = loader.isFile (root.join rel))
    (name : String) (s : State) :
    loader'.search name rel roots s = loader.search name rel roots s := by
  induction roots generalizing s with
  | nil => rfl
  | cons root roots ih =>
    obtain ⟨hroot, hroots⟩ := List.forall_mem_cons.mp h
    rw [search_cons, search_cons, hroot]
    cases loader.isFile (root.join rel) with
    | error fault => rfl
    | ok answer => cases answer <;> first | rfl | exact ih hroots _

/-! ## The modules of a loader -/

/-- A relative path is looked for under the roots. -/
theorem resolve_of_relative {name : String} {rel : Path} (hrel : rel.isAbsolute = false)
    (h : modulePath name = .ok rel) (loader : Loader) (s : State) :
    loader.resolve name s = loader.search name rel loader.roots s := by
  rw [resolve, h]
  dsimp only
  rw [hrel]
  rfl

/-- An absolute path is looked for where it is. -/
theorem resolve_of_absolute {name : String} {path : Path} (hpath : path.isAbsolute = true)
    (h : modulePath name = .ok path) (loader : Loader) (s : State) :
    loader.resolve name s = Run.result
      ((loader.isFile path).map fun answer => if answer then some path else none) s := by
  rw [resolve, h]
  dsimp only
  rw [hpath, if_pos rfl, Run.bind_apply, checkFile_apply]
  cases loader.isFile path with
  | error fault => rfl
  | ok answer => cases answer <;> rfl

/-- A name without a path is a fault at once. -/
theorem resolve_of_fault {name : String} {fault : Fault} (h : modulePath name = .error fault)
    (loader : Loader) (s : State) : loader.resolve name s = .error fault s := by
  rw [resolve, h]
  rfl

/-- Modules are resolved under the roots.  A name that does not begin with a slash stands for a
    relative path, unless it is made of dots only or steps to the root.  One looks for this path
    under one root after the other: the outcome is the first file that there is, or none, and the
    only fault is that of a name that is too long.  No file anywhere else makes a difference.

    A name that is made of dots only always fails.  A name that steps to the root stands for an
    absolute path.  Either it always fails, or else the outcome is that path if there is a file,
    wherever the roots are. -/
theorem modules_resolve_under_roots (name : String) (hname : name.toList.head? ≠ some '/') :
    (¬ StepsToRoot name → ¬ OnlyDots name →
      ∃ rel : Path, modulePath name = .ok rel ∧ rel.isAbsolute = false ∧
      ∀ (loader : Loader) (s : State),
        (∃ looked outcome, looked <+: loader.roots ∧ loader.Finds rel loader.roots outcome ∧
          loader.resolve name s = Run.result outcome (s.tried name rel looked)) ∧
        ∀ loader' : Loader, loader'.roots = loader.roots →
          (∀ root ∈ loader.roots, loader'.isFile (root.join rel) = loader.isFile (root.join rel)) →
          loader'.resolve name s = loader.resolve name s) ∧
    (OnlyDots name → ∀ (loader : Loader) (s : State),
      loader.resolve name s = .error (.namelessPath ⟨.relative, []⟩) s) ∧
    (StepsToRoot name → ∃ path : Path, path.isAbsolute = true ∧
      ((∀ (loader : Loader) (s : State),
          loader.resolve name s = .error (.namelessPath path) s) ∨
        ∀ (loader : Loader) (s : State), loader.resolve name s = Run.result
          ((loader.isFile path).map fun answer => if answer then some path else none) s)) := by
  refine ⟨fun hsteps hdots => ?_, fun hdots => ?_, fun hsteps => ?_⟩
  -- any other name is a relative path, and all that is looked at is this path under the roots
  · obtain ⟨rel, hrel, hpath⟩ := modulePath_relative hname hsteps hdots
    refine ⟨rel, hpath, hrel, fun loader s => ⟨?_, fun loader' hroots hfiles => ?_⟩⟩
    · rw [resolve_of_relative hrel hpath]
      exact search_finds loader name rel loader.roots s
    · rw [resolve_of_relative hrel hpath, resolve_of_relative hrel hpath, hroots]
      exact search_congr hfiles name s
  · exact resolve_of_fault (modulePath_onlyDots hdots)
  -- a name that steps to the root leaves the roots: it is looked for where it says, or has no last
  -- component
  · obtain ⟨path, habsolute, hpath | hpath⟩ := modulePath_stepsToRoot hsteps
    · exact ⟨path, habsolute, Or.inr (resolve_of_absolute habsolute hpath)⟩
    · exact ⟨path, habsolute, Or.inl (resolve_of_fault hpath)⟩

/-- A loader with the roots `/a` and `/b`.  There are the files `/b/pkg/util.scm` and `/out.scm`. -/
def withTwoRoots : Loader :=
  ⟨[⟨.root, ["a"]⟩, ⟨.root, ["b"]⟩],
    ⟨[["a"]], [(["b", "pkg", "util.scm"], []), (["out.scm"], [])]⟩, []⟩

/-- The module `pkg.util` is looked for under both roots and found under the second. -/
theorem modules_resolve_under_roots_second :
    ("pkg.util".toList.head? ≠ some '/' ∧ ¬ StepsToRoot "pkg.util" ∧ ¬ OnlyDots "pkg.util") ∧
    ∃ rel looked, rel.isAbsolute = false ∧ looked <+: withTwoRoots.roots ∧
      withTwoRoots.Finds rel withTwoRoots.roots (.ok (some ⟨.root, ["b", "pkg", "util.scm"]⟩)) ∧
      withTwoRoots.resolve "pkg.util" .initial = .ok (some ⟨.root, ["b", "pkg", "util.scm"]⟩)
        (State.initial.tried "pkg.util" rel looked) := by
  have hname : "pkg.util".toList.head? ≠ some '/' := by decide
  have hsteps : ¬ StepsToRoot "pkg.util" := by
    intro h
    have hslash : '/' ∈ "pkg.util".toList := h.2.subset (by decide)
    exact absurd hslash (by decide)
  have hdots : ¬ OnlyDots "pkg.util" := by
    intro h
    exact absurd (h 'p' (by decide)) (by decide)
  obtain ⟨rel, hpath, hrel, hresolve⟩ :=
    (modules_resolve_under_roots "pkg.util" hname).1 hsteps hdots
  obtain ⟨looked, outcome, hlooked, hfinds, hrun⟩ := (hresolve withTwoRoots .initial).1
  have houtcome : outcome = .ok (some ⟨.root, ["b", "pkg", "util.scm"]⟩) := by
    have hutil : modulePath "pkg.util" = .ok ⟨.relative, ["pkg", "util.scm"]⟩ := by
      rw [modulePath_of_steps (by decide)]
      rfl
    rw [resolve_of_relative rfl hutil] at hrun
    exact (Run.result_inj hrun.symm).1
  rw [houtcome] at hfinds hrun
  exact ⟨⟨hname, hsteps, hdots⟩, rel, looked, hrel, hlooked, hfinds, hrun⟩

/-- Of `..` there is a fault, and `x./out` is found outside of all roots. -/
theorem names_leave_roots :
    ("..".toList.head? ≠ some '/' ∧
      withTwoRoots.resolve ".." .initial = .error (.namelessPath ⟨.relative, []⟩) .initial) ∧
    ("x./out".toList.head? ≠ some '/' ∧
      withTwoRoots.resolve "x./out" .initial = .ok (some ⟨.root, ["out.scm"]⟩) .initial ∧
      ∀ root ∈ withTwoRoots.roots, ∀ rel : Path, rel.isAbsolute = false →
        root.join rel ≠ ⟨.root, ["out.scm"]⟩) := by
  have hdots : OnlyDots ".." := by
    show ∀ c ∈ ['.', '.'], c = '.'
    exact List.forall_mem_cons.mpr ⟨rfl, List.forall_mem_singleton.mpr rfl⟩
  have hout : modulePath "x./out" = .ok ⟨.root, ["out.scm"]⟩ := by
    rw [modulePath_of_steps (by decide)]
    rfl
  -- under neither root does a path start as this one does
  have hroots : ∀ root ∈ withTwoRoots.roots, ¬ root.parts <+: ["out.scm"] := by decide
  refine ⟨⟨by decide, resolve_of_fault (modulePath_onlyDots hdots) _ _⟩, by decide, ?_, ?_⟩
  · rw [resolve_of_absolute rfl hout]
    rfl
  · intro root hroot rel hrel heq
    rw [Path.join, hrel, if_neg Bool.false_ne_true] at heq
    exact hroots root hroot ⟨rel.parts, congrArg Path.parts heq⟩

end Loader

end SmallScheme
