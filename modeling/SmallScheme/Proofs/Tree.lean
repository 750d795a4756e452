/-
  EQUALITY OF TREES.

  A value is a tree of constructors and leaves.  Its lists and frames also know where they come
  from, and this may make a comparison quicker.  `Value.tree` forgets it, everywhere in the value:
  in lists, in the bodies of closures and in the frames that closures hold.  Two values are found
  equal just where their trees are one and the same (`Value.verdict_iff_tree`).

  1. **Trees**: values are the same (`Value.same`) where their trees are.
  2. **Room.**  A comparison takes room for the nesting of what it compares.  `Value.layers` counts
     the lists and closures around each other, and four levels for each of them are enough, with
     the margin (`Value.isSome_equal?`).
  3. **Being equal** (`Value.Equal`) is to be one tree.  Hence it is an equivalence that goes part
     by part (`Value.IsStructural`), and a congruence for all that values are made with and taken
     apart with; and printing cannot tell equal values from each other (`Value.IsCongruence`).
  4. **What is not compared**: beyond that room there may be no verdict at all
     (`deep_lists_not_compared`).

  The main result is `comparing_is_structural`.
-/
import Mathlib.Data.List.Forall2
import SmallScheme.Primitive
import SmallScheme.Proofs.Equality
import SmallScheme.Proofs.NormalForm

namespace SmallScheme

/-! ## Trees -/

mutual

/-- The tree of constructors and leaves that the value is. -/
def Value.tree : Value → Value
  | .list _ vs => .list .unknown (Value.trees vs)
  | .dotted _ vs v => .dotted .unknown (Value.trees vs) v.tree
  | .closure formals body env => .closure formals body.tree env.tree
  | v => v

/-- The trees that the values are. -/
def Value.trees : List Value → List Value
  | [] => []
  | v :: vs => v.tree :: Value.trees vs

/-- The environment with the trees that its values are. -/
def Env.tree : Env → Env
  | .empty => .empty
  | .frame _ names values outer => .frame .unknown names (Value.trees values) outer.tree

end

mutual

/-- Values are the same where their trees are one. -/
theorem Value.same_iff_tree : (v w : Value) → (v.same w = true ↔ v.tree = w.tree)
  | .list _ vs, w => by
    cases w with
    | list _ ws =>
      rw [Value.same, Value.allSame_iff_trees vs ws, Value.tree, Value.tree]
      exact ⟨fun h => congrArg _ h, fun h => (Value.list.inj h).2⟩
    | _ => exact ⟨nofun, nofun⟩
  | .dotted _ vs v, w => by
    cases w with
    | dotted _ ws w =>
      rw [Value.same, Bool.and_eq_true, Value.allSame_iff_trees vs ws, Value.same_iff_tree v w,
        Value.tree, Value.tree]
      simp only [Value.dotted.injEq, true_and]
    | _ => exact ⟨nofun, nofun⟩
  | .closure xs v env, w => by
    cases w with
    | closure ys w env' =>
      rw [Value.same, Bool.and_eq_true, Bool.and_eq_true, beq_iff_eq, Value.same_iff_tree v w,
        Env.same_iff_tree env env', Value.tree, Value.tree]
      simp only [Value.closure.injEq, and_assoc]
    | _ => exact ⟨nofun, nofun⟩
  | .bool _, w | .int _, w | .str _, w | .symbol _, w | .primitive _, w
  | .unspecified, w | .quit, w => by
    cases w <;> simp [Value.same, Value.tree]

/-- Lists of values, likewise. -/
theorem Value.allSame_iff_trees : (vs ws : List Value) →
    (Value.allSame vs ws = true ↔ Value.trees vs = Value.trees ws)
  | [], [] => ⟨fun _ => rfl, fun _ => rfl⟩
  | v :: vs, w :: ws => by
    rw [Value.allSame, Bool.and_eq_true, Value.same_iff_tree v w, Value.allSame_iff_trees vs ws,
      Value.trees, Value.trees, List.cons.injEq]
  | [], _ :: _ => ⟨nofun, nofun⟩
  | _ :: _, [] => ⟨nofun, nofun⟩

/-- Environments, likewise: frame by frame. -/
theorem Env.same_iff_tree : (env env' : Env) → (env.same env' = true ↔ env.tree = env'.tree)
  | .empty, .empty => ⟨fun _ => rfl, fun _ => rfl⟩
  | .frame _ xs vs outer, .frame _ ys ws outer' => by
    rw [Env.same, Bool.and_eq_true, Bool.and_eq_true, beq_iff_eq, Value.allSame_iff_trees vs ws,
      Env.same_iff_tree outer outer', Env.tree, Env.tree]
    simp only [Env.frame.injEq, true_and, and_assoc]
  | .empty, .frame _ _ _ _ => ⟨nofun, nofun⟩
  | .frame _ _ _ _, .empty => ⟨nofun, nofun⟩

end

/-! ## Room -/

mutual

/-- How many layers of lists and closures there are in the value. -/
def Value.layers : Value → Nat
  | .list _ vs => Value.mostLayers vs + 1
  | .dotted _ vs v => max (Value.mostLayers vs) v.layers + 1
  | .closure _ body env => max body.layers env.layers + 1
  | _ => 0

/-- The most layers that one of the values has. -/
def Value.mostLayers : List Value → Nat
  | [] => 0
  | v :: vs => max v.layers (Value.mostLayers vs)

/-- The most layers that one of the values in the frames has. -/
def Env.layers : Env → Nat
  | .empty => 0
  | .frame _ _ values outer => max (Value.mostLayers values) outer.layers

end

/-- A comparison comes to an answer if both of its parts do. -/
theorem isSome_next {x y : Option Bool} (hx : x.isSome = true) (hy : y.isSome = true) :
    (match x with
      | some true => y
      | verdict => verdict).isSome = true := by
  cases x with
  | none => cases hx
  | some verdict =>
    cases verdict with
    | true => exact hy
    | false => rfl

/-- There is a verdict where there is room for it. -/
theorem isSome_guardedVerdict {room needed : Nat} {verdict : Option Bool} (h : needed ≤ room)
    (hverdict : verdict.isSome = true) : (guardedVerdict room needed verdict).isSome = true := by
  rw [guardedVerdict, if_neg (Nat.not_lt.mpr h)]
  exact hverdict

/-- Comparing a leaf, or beginning with a list or a closure, takes no more than the margin. -/
theorem Value.equalRoom_le_margin (v : Value) : v.equalRoom ≤ Room.margin := by
  unfold equalRoom
  split <;> decide

mutual

/-- Four times the layers, and the margin, are enough room for an answer: no construct takes more
    than four for what is one layer further in. -/
theorem Value.isSome_equal? {room : Nat} : (v w : Value) → 4 * v.layers + Room.margin ≤ room →
    (v.equal? room w).isSome = true
  | .list _ vs, w => by
    intro hroom
    cases w with
    | list _ ws =>
      rw [Value.layers] at hroom
      have hitem : Room.item = 3 := rfl
      rw [Value.equal?]
      refine isSome_guardedVerdict (by omega) ?_
      split
      · rfl
      · split
        · exact Value.isSome_allEqual? vs ws (by omega)
        · rfl
    | _ => exact isSome_guardedVerdict (Nat.le_trans (by decide) (Nat.le_of_add_left_le hroom)) rfl
  | .dotted _ vs v, w => by
    intro hroom
    cases w with
    | dotted _ ws w =>
      rw [Value.layers] at hroom
      have hbegin : Room.item = 3 := rfl
      have hitem : Room.dottedItem = 4 := rfl
      have htail : Room.nested = 1 := rfl
      rw [Value.equal?]
      refine isSome_guardedVerdict (by omega) ?_
      split
      · rfl
      · split
        · exact isSome_next (Value.isSome_allEqual? vs ws (by omega))
            (Value.isSome_equal? v w (by omega))
        · rfl
    | _ => exact isSome_guardedVerdict (Nat.le_trans (by decide) (Nat.le_of_add_left_le hroom)) rfl
  | .closure xs v env, w => by
    intro hroom
    cases w with
    | closure _ w env' =>
      -- a closure of many frames takes more calls than a list does, and the margin covers them
      have hneeded := Nat.le_trans (Value.equalRoom_le_margin (.closure xs v env))
        (Nat.le_of_add_left_le hroom)
      rw [Value.layers] at hroom
      have hbody : Room.nested = 1 := rfl
      rw [Value.equal?]
      refine isSome_guardedVerdict hneeded ?_
      split
      · refine isSome_next (Value.isSome_equal? v w (by omega)) ?_
        split
        · exact Env.isSome_equal? env env' (by omega)
        · rfl
      · rfl
    | _ => exact isSome_guardedVerdict (Nat.le_trans (by decide) (Nat.le_of_add_left_le hroom)) rfl
  | .bool _, w | .int _, w | .str _, w | .symbol _, w | .primitive _, w
  | .unspecified, w | .quit, w => by
    intro hroom
    -- against a leaf the kinds decide, or a few calls of its own
    have hkinds : Room.kinds ≤ room := Nat.le_trans (by decide) (Nat.le_of_add_left_le hroom)
    have hneeded : ∀ v : Value, v.equalRoom ≤ room := fun v =>
      Nat.le_trans v.equalRoom_le_margin (Nat.le_of_add_left_le hroom)
    cases w <;>
      first
        | exact isSome_guardedVerdict hkinds rfl
        | exact isSome_guardedVerdict (hneeded _) rfl

/-- The same of lists of values. -/
theorem Value.isSome_allEqual? {room : Nat} : (vs ws : List Value) →
    4 * Value.mostLayers vs + Room.margin ≤ room → (Value.allEqual? room vs ws).isSome = true
  | [], [] => fun _ => rfl
  | v :: vs, w :: ws => by
    intro hroom
    rw [Value.mostLayers] at hroom
    rw [Value.allEqual?]
    exact isSome_next (Value.isSome_equal? v w (by omega)) (Value.isSome_allEqual? vs ws (by omega))
  | [], _ :: _ => fun _ => rfl
  | _ :: _, [] => fun _ => rfl

/-- The values in the frames are a layer further in. -/
theorem Env.isSome_equal? {room : Nat} : (env env' : Env) →
    4 * (env.layers + 1) + Room.margin ≤ room → (env.equal? room env').isSome = true
  | .empty, .empty => fun _ => rfl
  | .frame _ _ vs outer, .frame _ _ ws outer' => by
    intro hroom
    rw [Env.layers] at hroom
    have hbound : Room.bound = 4 := rfl
    rw [Env.equal?]
    split
    · rfl
    · split
      · exact isSome_next (Value.isSome_allEqual? vs ws (by omega))
          (Env.isSome_equal? outer outer' (by omega))
      · rfl
  | .empty, .frame _ _ _ _ => fun _ => rfl
  | .frame _ _ _ _, .empty => fun _ => rfl

end

/-! ## Being equal -/

/-- The values are found equal, in some room. -/
def Value.Equal (v w : Value) : Prop := ∃ room, v.equal? room w = some true

/-- A verdict is never wrong. -/
theorem Value.verdict_iff_tree {room : Nat} {v w : Value} {verdict : Bool}
    (h : v.equal? room w = some verdict) : verdict = true ↔ v.tree = w.tree := by
  rw [Value.equal?_eq_some h]
  exact Value.same_iff_tree v w

/-- Where there is room enough there is a verdict, and it goes by the trees. -/
theorem Value.equal_iff_tree {v w : Value} : v.Equal w ↔ v.tree = w.tree := by
  constructor
  · rintro ⟨room, h⟩
    exact (Value.verdict_iff_tree h).mp rfl
  · intro htree
    -- four times the layers and the margin are room enough
    obtain ⟨verdict, h⟩ := Option.isSome_iff_exists.mp (Value.isSome_equal? v w (Nat.le_refl _))
    refine ⟨4 * v.layers + Room.margin, ?_⟩
    rw [h, (Value.verdict_iff_tree h).mpr htree]

/-! ## Trees part by part -/

/-- The values go together as `r` says, one by one, and under the same names. -/
def FrameLike (r : Value → Value → Prop) (f g : List String × List Value) : Prop :=
  f.1 = g.1 ∧ List.Forall₂ r f.2 g.2

/-- Lists of values are the same trees one by one. -/
theorem Value.trees_eq_iff {vs ws : List Value} :
    Value.trees vs = Value.trees ws ↔ List.Forall₂ (fun v w => v.tree = w.tree) vs ws := by
  induction vs generalizing ws with
  | nil =>
    cases ws with
    | nil => exact ⟨fun _ => .nil, fun _ => rfl⟩
    | cons w ws => exact ⟨nofun, nofun⟩
  | cons v vs ih =>
    cases ws with
    | nil => exact ⟨nofun, nofun⟩
    | cons w ws => rw [Value.trees, Value.trees, List.cons.injEq, ih, List.forall₂_cons]

/-- Environments are the same trees frame by frame. -/
theorem Env.tree_eq_iff : {env env' : Env} → (env.tree = env'.tree ↔
    List.Forall₂ (FrameLike fun v w => v.tree = w.tree) env.frames env'.frames)
  | .empty, .empty => ⟨fun _ => .nil, fun _ => rfl⟩
  | .frame _ xs vs outer, .frame _ ys ws outer' => by
    rw [Env.tree, Env.tree, Env.frames, Env.frames, List.forall₂_cons, FrameLike,
      ← Value.trees_eq_iff, ← Env.tree_eq_iff, Env.frame.injEq]
    simp only [true_and, and_assoc]
  | .empty, .frame _ _ _ _ => ⟨nofun, nofun⟩
  | .frame _ _ _ _, .empty => ⟨nofun, nofun⟩

/-- The tree of a pair is a pair of trees. -/
theorem Primitive.tree_consValue (origin : Origin) (v w : Value) :
    (consValue origin v w).tree = consValue .unknown v.tree w.tree := by
  cases w <;> rfl

/-- The first item of a tree is the tree of the first item. -/
theorem Primitive.first_tree (v : Value) :
    (first v.tree).toOption = (first v).toOption.map Value.tree := by
  cases v with
  | list _ vs => cases vs <;> rfl
  | dotted _ vs v => cases vs <;> rfl
  | _ => rfl

/-- And the others of a tree are the tree of the others. -/
theorem Primitive.others_tree (origin : Origin) (v : Value) :
    (others .unknown v.tree).toOption = (others origin v).toOption.map Value.tree := by
  cases v with
  | list _ vs => cases vs <;> rfl
  | dotted _ vs v =>
    cases vs with
    | nil => rfl
    | cons w vs => cases vs <;> rfl
  | _ => rfl

/-! ## Texts of trees -/

mutual

/-- The text of a value does not show where its lists come from. -/
theorem Value.text_tree (readable : Bool) : (v : Value) → v.tree.text readable = v.text readable
  | .list _ vs => by rw [Value.tree, Value.text, Value.text, Value.texts_trees readable vs]
  | .dotted _ vs v => by
    rw [Value.tree, Value.text, Value.text, Value.texts_trees readable vs,
      Value.text_tree readable v]
  | .bool _ | .int _ | .str _ | .symbol _ | .primitive _ | .closure _ _ _ | .unspecified
  | .quit => rfl

/-- Nor does the text of several. -/
theorem Value.texts_trees (readable : Bool) : (vs : List Value) →
    Value.texts readable (Value.trees vs) = Value.texts readable vs
  | [] => rfl
  | [v] => Value.text_tree readable v
  | v :: w :: vs => by
    -- the items after the first are not empty, as trees too
    show v.tree.text readable ++ " " ++ Value.texts readable (Value.trees (w :: vs))
      = v.text readable ++ " " ++ Value.texts readable (w :: vs)
    rw [Value.text_tree readable v, Value.texts_trees readable (w :: vs)]

end

mutual

/-- What stops a value from being printed stops its tree. -/
theorem Value.textLimit?_tree (readable : Bool) {room : Nat} : (v : Value) →
    v.tree.textLimit? readable room = v.textLimit? readable room
  | .list _ vs => by
    rw [Value.tree, Value.textLimit?, Value.textLimit?, Value.textLimits?_trees readable vs]
  | .dotted _ vs v => by
    rw [Value.tree, Value.textLimit?, Value.textLimit?, Value.textLimits?_trees readable vs,
      Value.textLimit?_tree readable v]
  | .bool _ | .int _ | .str _ | .symbol _ | .primitive _ | .closure _ _ _ | .unspecified
  | .quit => by simp only [Value.tree, Value.textLimit?, Value.textRoom]

/-- What stops values from being printed stops their trees. -/
theorem Value.textLimits?_trees (readable : Bool) {room : Nat} : (vs : List Value) →
    Value.textLimits? readable room (Value.trees vs) = Value.textLimits? readable room vs
  | [] => rfl
  | v :: vs => by
    rw [Value.trees, Value.textLimits?, Value.textLimits?, Value.textLimit?_tree readable v,
      Value.textLimits?_trees readable vs]

end

/-- So a tree is printed as the value is. -/
theorem Value.print_tree (room : Nat) (readable : Bool) (v : Value) :
    v.tree.print room readable = v.print room readable := by
  rw [Value.print, Value.print, Value.textLimit?_tree readable v, Value.text_tree readable v]

/-! ## What being equal comes to -/

/-- Is there nothing in the value that could be compared one by one? -/
def Value.isLeaf : Value → Bool
  | .list _ _ | .dotted _ _ _ | .closure _ _ _ => false
  | _ => true

/-- The relation holds between values that are one tree of constructors and leaves, and between no
    others. -/
structure Value.IsStructural (r : Value → Value → Prop) : Prop where
  equivalence : Equivalence r
  leaf {v w : Value} : v.isLeaf = true → (r v w ↔ v = w)
  bool_int (b : Bool) (n : Int) : ¬ r (.bool b) (.int n)
  list {origin origin' : Origin} {vs ws : List Value} :
    r (.list origin vs) (.list origin' ws) ↔ List.Forall₂ r vs ws
  dotted {origin origin' : Origin} {vs ws : List Value} {v w : Value} :
    r (.dotted origin vs v) (.dotted origin' ws w) ↔ List.Forall₂ r vs ws ∧ r v w
  list_dotted {origin origin' : Origin} {vs ws : List Value} {w : Value} :
    ¬ r (.list origin vs) (.dotted origin' ws w)
  closure {xs ys : List String} {v w : Value} {env env' : Env} :
    r (.closure xs v env) (.closure ys w env') ↔
      xs = ys ∧ r v w ∧ List.Forall₂ (FrameLike r) env.frames env'.frames
  depth {xs ys : List String} {v w : Value} {env env' : Env} : env.depth ≠ env'.depth →
    ¬ r (.closure xs v env) (.closure ys w env')
  list_closure {origin : Origin} {vs : List Value} {xs : List String} {w : Value} {env : Env} :
    ¬ r (.list origin vs) (.closure xs w env)
  dotted_closure {origin : Origin} {vs : List Value} {v : Value} {xs : List String} {w : Value}
    {env : Env} : ¬ r (.dotted origin vs v) (.closure xs w env)

/-- What is made of related values, or taken from them, is related; and they look alike. -/
structure Value.IsCongruence (r : Value → Value → Prop) : Prop where
  cons (origin origin' : Origin) {v v' w w' : Value} : r v v' → r w w' →
    r (Primitive.consValue origin v w) (Primitive.consValue origin' v' w')
  car {v w a : Value} : r v w → Primitive.first v = .ok a →
    ∃ b, Primitive.first w = .ok b ∧ r a b
  cdr (origin origin' : Origin) {v w a : Value} : r v w → Primitive.others origin v = .ok a →
    ∃ b, Primitive.others origin' w = .ok b ∧ r a b
  closure (formals : List String) {v w : Value} {env env' : Env} : r v w →
    List.Forall₂ (FrameLike r) env.frames env'.frames →
    r (.closure formals v env) (.closure formals w env')
  print {v w : Value} : r v w → ∀ room readable, v.print room readable = w.print room readable

/-- Being one tree, as a relation. -/
def Value.OneTree (v w : Value) : Prop := v.tree = w.tree

/-- Trees are compared part by part. -/
theorem Value.OneTree.isStructural : Value.IsStructural Value.OneTree where
  equivalence := ⟨fun _ => rfl, Eq.symm, Eq.trans⟩
  leaf := by
    intro v w hleaf
    cases v with
    | list _ _ | dotted _ _ _ | closure _ _ _ => cases hleaf
    | _ => cases w <;> simp [Value.OneTree, Value.tree]
  bool_int := fun _ _ => nofun
  list := by
    intro origin origin' vs ws
    rw [Value.OneTree, Value.tree, Value.tree, Value.list.injEq, Value.trees_eq_iff]
    exact and_iff_right rfl
  dotted := by
    intro origin origin' vs ws v w
    rw [Value.OneTree, Value.tree, Value.tree, Value.dotted.injEq, Value.trees_eq_iff]
    exact and_iff_right rfl
  list_dotted := nofun
  closure := by
    intro xs ys v w env env'
    rw [Value.OneTree, Value.tree, Value.tree, Value.closure.injEq, Env.tree_eq_iff]
    rfl
  depth := by
    intro xs ys v w env env' hdepth htree
    -- trees of different depth are different
    have hframes := (Env.tree_eq_iff.mp (Value.closure.inj htree).2.2).length_eq
    rw [Env.length_frames, Env.length_frames] at hframes
    exact hdepth hframes
  list_closure := nofun
  dotted_closure := nofun

/-- What succeeds for a tree succeeds for the value, with that tree. -/
theorem exists_ok_of_toOption {outcome : Except Fault Value} {a : Value}
    (h : outcome.toOption.map Value.tree = some a.tree) : ∃ b, outcome = .ok b ∧ a.OneTree b := by
  cases outcome with
  | error fault => cases h
  | ok b => exact ⟨b, rfl, (Option.some.inj h).symm⟩

/-- What is done to values is done to their trees. -/
theorem Value.OneTree.isCongruence : Value.IsCongruence Value.OneTree where
  cons := by
    intro origin origin' v v' w w' hv hw
    rw [Value.OneTree, Primitive.tree_consValue, Primitive.tree_consValue, hv, hw]
  car := by
    intro v w a htree hfirst
    refine exists_ok_of_toOption ?_
    -- the first part of the tree is the tree of the first part
    rw [← Primitive.first_tree w, ← htree, Primitive.first_tree v, hfirst]
    rfl
  cdr := by
    intro origin origin' v w a htree hothers
    refine exists_ok_of_toOption ?_
    rw [← Primitive.others_tree origin' w, ← htree, Primitive.others_tree origin v, hothers]
    rfl
  closure := fun _ _ _ _ _ hbody hframes =>
    Value.OneTree.isStructural.closure.mpr ⟨rfl, hbody, hframes⟩
  print := by
    intro v w htree room readable
    rw [← Value.print_tree room readable v, htree, Value.print_tree room readable w]

/-- Being equal and being one tree are the same relation. -/
theorem Value.equal_eq_oneTree : Value.Equal = Value.OneTree := by
  funext v w
  exact propext Value.equal_iff_tree

/-- Comparing is structural equality, as far as there is room to compare: a verdict says whether
    the values are one tree, and four times the layers of lists and closures are room enough for a
    verdict, with the margin that there is for leaves. -/
theorem comparing_is_structural :
    (∀ (v w : Value) (room : Nat) (verdict : Bool), v.equal? room w = some verdict →
      (verdict = true ↔ v.tree = w.tree)) ∧
    (∀ (v w : Value) (room : Nat), 4 * v.layers ≤ room →
      ∃ verdict, v.equal? (room + Room.margin) w = some verdict) ∧
    (∀ v w : Value, v.Equal w ↔ v.tree = w.tree) ∧
    Value.IsStructural Value.Equal ∧ Value.IsCongruence Value.Equal := by
  refine ⟨fun v w room verdict => Value.verdict_iff_tree, fun v w room hroom => ?_,
    fun v w => Value.equal_iff_tree, ?_, ?_⟩
  · exact Option.isSome_iff_exists.mp
      (Value.isSome_equal? v w (Nat.add_le_add_right hroom Room.margin))
  · rw [Value.equal_eq_oneTree]
    exact Value.OneTree.isStructural
  · rw [Value.equal_eq_oneTree]
    exact Value.OneTree.isCongruence

/-- A closure with a closure in its frame, which has a list in its own; the frames and the list
    are made from `serial` on. -/
def Value.closureOver (serial : Nat) (v : Value) : Value :=
  .closure ["x"] (.ofItems [.symbol "f", .symbol "x"])
    (.frame (.made serial) ["f"]
      [.closure ["z"] (.symbol "y")
        (.frame (.made (serial + 1)) ["y"] [.list (.made (serial + 2)) [v]] .empty)] .empty)

/-- Two closures that differ in nothing but origins are equal and print alike; `#t` and `1` make a
    difference, even in the frame of a closure in a frame. -/
theorem comparing_is_structural_closures :
    (Value.closureOver 0 (.bool true)).equal? (12 + Room.margin) (.closureOver 7 (.bool true))
      = some true ∧
    (Value.closureOver 0 (.bool true)).equal? (12 + Room.margin) (.closureOver 7 (.int 1))
      = some false ∧
    (Value.closureOver 0 (.bool true)).print 12 true
      = (Value.closureOver 7 (.bool true)).print 12 true := by
  obtain ⟨hverdict, hanswer, hequal, hstructural, hcongruence⟩ := comparing_is_structural
  -- the two differ in the numbers of their frames only
  have htree : (Value.closureOver 0 (.bool true)).tree = (Value.closureOver 7 (.bool true)).tree :=
    rfl
  have hlayers : 4 * (Value.closureOver 0 (.bool true)).layers ≤ 12 := by decide
  refine ⟨?_, ?_, hcongruence.print ((hequal _ _).mpr htree) 12 true⟩
  · obtain ⟨verdict, h⟩ := hanswer _ (.closureOver 7 (.bool true)) 12 hlayers
    rw [h, (hverdict _ _ _ _ h).mpr htree]
  · obtain ⟨verdict, h⟩ := hanswer _ (.closureOver 7 (.int 1)) 12 hlayers
    have hne : verdict ≠ true := fun htrue =>
      nomatch (hverdict _ _ _ _ h).mp htrue
    rw [h, Bool.eq_false_iff.mpr hne]

/-! ## What is not compared -/

/-- Each of the lists takes three of the room. -/
theorem Value.equal?_nest {depth room : Nat} (hroom : room ≤ 3 * depth) :
    (Value.nest depth).equal? room (Value.nest depth) = none := by
  induction depth generalizing room with
  | zero =>
    obtain rfl := Nat.le_zero.mp hroom
    rfl
  | succ depth ih =>
    have hitem : Room.item = 3 := rfl
    have hunknown : ¬ (Origin.isOne .unknown .unknown
        && Value.allSameAtOnce [Value.nest depth] [Value.nest depth]) = true := Bool.false_ne_true
    rw [Value.nest, Value.ofItems, Value.equal?, guardedVerdict, if_neg hunknown]
    split
    · rfl
    · rw [if_pos rfl, Value.allEqual?, ih (by omega)]

/-- 20001 lists that are nested are the same tree as themselves, but cannot be compared with
    others that look the same, in the room that there is, with its margin. -/
theorem deep_lists_not_compared :
    (¬ ∀ v w : Value, v.equal? (Room.standard + Room.margin) w = some true ↔ v.tree = w.tree) ∧
    Primitive.equality Room.standard (Value.nest 20000) (Value.nest 20000) = .error .tooDeep := by
  have hnone : (Value.nest 20000).equal? (Room.standard + Room.margin) (Value.nest 20000) = none :=
    Value.equal?_nest (by decide)
  constructor
  · intro h
    have hsome := (h (Value.nest 20000) (Value.nest 20000)).mpr rfl
    rw [hnone] at hsome
    cases hsome
  · rw [Primitive.equality, hnone]

end SmallScheme
