/-
  TWINS: values that differ in nothing but where their lists and frames come from.

  1. **Pairings.**  Which origins of one system go with which of another is a pairing `p`.  Two
     values are twins by `p` (`Value.Twins`) if they are one tree, and the origins in them go
     together place by place.  The relation is inductive, with one constructor for each kind of
     value, so that a proof about twins is a case split in which the two sides come apart at once.
     Where any two origins go together, to be twins is to be one tree (`Value.twins_of_tree`).

  2. **Stamps.**  One text that is let into two systems gets numbers there, from `m` on here and
     from `n` on there.  If those rows go together (`Pairing.Rows`), the stamped values are twins.

  3. **Comparing and printing.**  Twins print alike, also in the messages of errors.  And if a
     pairing never takes two origins for one, or one for two (`Pairing.Faithful`), then comparing
     cannot tell twins from each other either, not even by how much room it takes.

  4. **Forms.**  Whatever is made of twins in the same way, or taken from them, are twins again:
     the items of a list, what a name is bound to, and the form that an expression is.  An
     expression that is no form is no form on either side, and for the same reason.

  Runs on twins are the matter of `SmallScheme.Proofs.TwinRuns`.
-/
import Mathlib.Order.Basic
import SmallScheme.Form
import SmallScheme.Proofs.Tree

namespace SmallScheme

/-- Which origins of one system go with which of another. -/
abbrev Pairing := Origin → Origin → Prop

mutual

/-- The values are one tree, and the origins in them go together. -/
inductive Value.Twins (p : Pairing) : Value → Value → Prop where
  | bool (b : Bool) : Value.Twins p (.bool b) (.bool b)
  | int (n : Int) : Value.Twins p (.int n) (.int n)
  | str (text : String) : Value.Twins p (.str text) (.str text)
  | symbol (name : String) : Value.Twins p (.symbol name) (.symbol name)
  | list {o o' : Origin} {vs vs' : List Value} :
    p o o' → Value.AllTwins p vs vs' → Value.Twins p (.list o vs) (.list o' vs')
  | dotted {o o' : Origin} {vs vs' : List Value} {v v' : Value} :
    p o o' → Value.AllTwins p vs vs' → Value.Twins p v v' →
      Value.Twins p (.dotted o vs v) (.dotted o' vs' v')
  | primitive (name : String) : Value.Twins p (.primitive name) (.primitive name)
  | closure (formals : List String) {body body' : Value} {env env' : Env} :
    Value.Twins p body body' → Env.Twins p env env' →
      Value.Twins p (.closure formals body env) (.closure formals body' env')
  | unspecified : Value.Twins p .unspecified .unspecified
  | quit : Value.Twins p .quit .quit

/-- The values are twins, one by one. -/
inductive Value.AllTwins (p : Pairing) : List Value → List Value → Prop where
  | nil : Value.AllTwins p [] []
  | cons {v v' : Value} {vs vs' : List Value} :
    Value.Twins p v v' → Value.AllTwins p vs vs' → Value.AllTwins p (v :: vs) (v' :: vs')

/-- The environments hold twins under the same names, and the origins of their frames go
    together. -/
inductive Env.Twins (p : Pairing) : Env → Env → Prop where
  | empty : Env.Twins p .empty .empty
  | frame {o o' : Origin} (names : List String) {vs vs' : List Value} {outer outer' : Env} :
    p o o' → Value.AllTwins p vs vs' → Env.Twins p outer outer' →
      Env.Twins p (.frame o names vs outer) (.frame o' names vs' outer')

end

section Pairings

variable {p q : Pairing}

mutual

/-- Twins stay twins when more origins go together. -/
theorem Value.Twins.mono (hpq : p ≤ q) {v v' : Value} : v.Twins p v' → v.Twins q v'
  | .bool b => .bool b
  | .int n => .int n
  | .str text => .str text
  | .symbol name => .symbol name
  | .list ho hvs => .list (hpq _ _ ho) (hvs.mono hpq)
  | .dotted ho hvs hv => .dotted (hpq _ _ ho) (hvs.mono hpq) (hv.mono hpq)
  | .primitive name => .primitive name
  | .closure formals hbody henv => .closure formals (hbody.mono hpq) (henv.mono hpq)
  | .unspecified => .unspecified
  | .quit => .quit

theorem Value.AllTwins.mono (hpq : p ≤ q) {vs vs' : List Value} :
    Value.AllTwins p vs vs' → Value.AllTwins q vs vs'
  | .nil => .nil
  | .cons hv hvs => .cons (hv.mono hpq) (hvs.mono hpq)

theorem Env.Twins.mono (hpq : p ≤ q) {env env' : Env} : env.Twins p env' → env.Twins q env'
  | .empty => .empty
  | .frame names ho hvs houter => .frame names (hpq _ _ ho) (hvs.mono hpq) (houter.mono hpq)

end

mutual

/-- Twins are one tree. -/
theorem Value.Twins.tree_eq {v v' : Value} : v.Twins p v' → v.tree = v'.tree
  | .list _ hvs => by rw [Value.tree, Value.tree, hvs.trees_eq]
  | .dotted _ hvs hv => by rw [Value.tree, Value.tree, hvs.trees_eq, hv.tree_eq]
  | .closure _ hbody henv => by rw [Value.tree, Value.tree, hbody.tree_eq, henv.tree_eq]
  | .bool _ | .int _ | .str _ | .symbol _ | .primitive _ | .unspecified | .quit => rfl

/-- The same for the values of a list, one by one. -/
theorem Value.AllTwins.trees_eq {vs vs' : List Value} :
    Value.AllTwins p vs vs' → Value.trees vs = Value.trees vs'
  | .nil => rfl
  | .cons hv hvs => by rw [Value.trees, Value.trees, hv.tree_eq, hvs.trees_eq]

/-- The same for environments: the values in their frames are the same trees. -/
theorem Env.Twins.tree_eq {env env' : Env} : env.Twins p env' → env.tree = env'.tree
  | .empty => rfl
  | .frame _ _ hvs houter => by rw [Env.tree, Env.tree, hvs.trees_eq, houter.tree_eq]

end

mutual

/-- If any origins go together, whatever is one tree are twins. -/
theorem Value.twins_of_tree (hp : ∀ o o', p o o') : (v w : Value) → v.tree = w.tree →
    v.Twins p w
  | .list _ vs, w, h => by
    cases w with
    | list _ ws => exact .list (hp _ _) (Value.allTwins_of_trees hp vs ws (Value.list.inj h).2)
    | _ => cases h
  | .dotted _ vs v, w, h => by
    cases w with
    | dotted _ ws w =>
      obtain ⟨-, hvs, hv⟩ := Value.dotted.inj h
      exact .dotted (hp _ _) (Value.allTwins_of_trees hp vs ws hvs) (v.twins_of_tree hp w hv)
    | _ => cases h
  | .closure formals body env, w, h => by
    cases w with
    | closure _ body' env' =>
      obtain ⟨rfl, hbody, henv⟩ := Value.closure.inj h
      exact .closure formals (body.twins_of_tree hp body' hbody) (env.twins_of_tree hp env' henv)
    | _ => cases h
  | .bool _, w, h | .int _, w, h | .str _, w, h | .symbol _, w, h | .primitive _, w, h
  | .unspecified, w, h | .quit, w, h => by
    cases w <;> cases h
    constructor

/-- As `Value.twins_of_tree`, along two lists. -/
theorem Value.allTwins_of_trees (hp : ∀ o o', p o o') : (vs ws : List Value) →
    Value.trees vs = Value.trees ws → Value.AllTwins p vs ws
  | [], [], _ => .nil
  | [], _ :: _, h => nomatch h
  | _ :: _, [], h => nomatch h
  | v :: vs, w :: ws, h => by
    obtain ⟨hv, hvs⟩ := List.cons.inj h
    exact .cons (v.twins_of_tree hp w hv) (Value.allTwins_of_trees hp vs ws hvs)

/-- As `Value.twins_of_tree`, frame by frame. -/
theorem Env.twins_of_tree (hp : ∀ o o', p o o') : (env env' : Env) → env.tree = env'.tree →
    env.Twins p env'
  | .empty, .empty, _ => .empty
  | .empty, .frame _ _ _ _, h => nomatch h
  | .frame _ _ _ _, .empty, h => nomatch h
  | .frame _ names vs outer, .frame _ _ ws outer', h => by
    obtain ⟨-, rfl, hvs, houter⟩ := Env.frame.inj h
    exact .frame names (hp _ _) (Value.allTwins_of_trees hp vs ws hvs)
      (outer.twins_of_tree hp outer' houter)

end

end Pairings

/-! ## Values with themselves -/

mutual

/-- Where the lists and frames in the value come from. -/
def Value.origins : Value → List Origin
  | .list o vs => o :: Value.allOrigins vs
  | .dotted o vs v => o :: (Value.allOrigins vs ++ v.origins)
  | .closure _ body env => body.origins ++ env.origins
  | _ => []

/-- Where the lists and frames in the values come from. -/
def Value.allOrigins : List Value → List Origin
  | [] => []
  | v :: vs => v.origins ++ Value.allOrigins vs

/-- Where the frames, and the lists and frames in their values, come from. -/
def Env.origins : Env → List Origin
  | .empty => []
  | .frame o _ values outer => o :: (Value.allOrigins values ++ outer.origins)

end

section Origins

variable {p : Pairing}

mutual

/-- A value is a twin of itself, if each of its origins goes together with itself. -/
theorem Value.twins_self : (v : Value) → (∀ o ∈ v.origins, p o o) → v.Twins p v
  | .list _ vs, h => by
    obtain ⟨ho, hvs⟩ := List.forall_mem_cons.mp h
    exact .list ho (Value.allTwins_self vs hvs)
  | .dotted _ vs v, h => by
    obtain ⟨ho, hparts⟩ := List.forall_mem_cons.mp h
    obtain ⟨hvs, hv⟩ := List.forall_mem_append.mp hparts
    exact .dotted ho (Value.allTwins_self vs hvs) (v.twins_self hv)
  | .closure formals body env, h => by
    obtain ⟨hbody, henv⟩ := List.forall_mem_append.mp h
    exact .closure formals (body.twins_self hbody) (env.twins_self henv)
  | .bool b, _ => .bool b
  | .int n, _ => .int n
  | .str text, _ => .str text
  | .symbol name, _ => .symbol name
  | .primitive name, _ => .primitive name
  | .unspecified, _ => .unspecified
  | .quit, _ => .quit

/-- As `Value.twins_self`, for the values of a list. -/
theorem Value.allTwins_self : (vs : List Value) → (∀ o ∈ Value.allOrigins vs, p o o) →
    Value.AllTwins p vs vs
  | [], _ => .nil
  | v :: vs, h => by
    obtain ⟨hv, hvs⟩ := List.forall_mem_append.mp h
    exact .cons (v.twins_self hv) (Value.allTwins_self vs hvs)

/-- As `Value.twins_self`, for the frames of an environment. -/
theorem Env.twins_self : (env : Env) → (∀ o ∈ env.origins, p o o) → env.Twins p env
  | .empty, _ => .empty
  | .frame _ names values outer, h => by
    obtain ⟨ho, hparts⟩ := List.forall_mem_cons.mp h
    obtain ⟨hvs, houter⟩ := List.forall_mem_append.mp hparts
    exact .frame names ho (Value.allTwins_self values hvs) (outer.twins_self houter)

end

mutual

/-- Each origin in a value that has a twin goes together with another. -/
theorem Value.Twins.origins {v v' : Value} : v.Twins p v' → ∀ o ∈ v.origins, ∃ o', p o o'
  | .list ho hvs => List.forall_mem_cons.mpr ⟨⟨_, ho⟩, hvs.origins⟩
  | .dotted ho hvs hv => List.forall_mem_cons.mpr
    ⟨⟨_, ho⟩, List.forall_mem_append.mpr ⟨hvs.origins, hv.origins⟩⟩
  | .closure _ hbody henv => List.forall_mem_append.mpr ⟨hbody.origins, henv.origins⟩
  | .bool _ | .int _ | .str _ | .symbol _ | .primitive _ | .unspecified | .quit =>
    List.forall_mem_nil _

/-- As `Value.Twins.origins`, for a list of values. -/
theorem Value.AllTwins.origins {vs vs' : List Value} :
    Value.AllTwins p vs vs' → ∀ o ∈ Value.allOrigins vs, ∃ o', p o o'
  | .nil => List.forall_mem_nil _
  | .cons hv hvs => List.forall_mem_append.mpr ⟨hv.origins, hvs.origins⟩

/-- As `Value.Twins.origins`, for an environment. -/
theorem Env.Twins.origins {env env' : Env} :
    env.Twins p env' → ∀ o ∈ env.origins, ∃ o', p o o'
  | .empty => List.forall_mem_nil _
  | .frame _ ho hvs houter => List.forall_mem_cons.mpr
    ⟨⟨_, ho⟩, List.forall_mem_append.mpr ⟨hvs.origins, houter.origins⟩⟩

end

end Origins

/-! ## Stamps -/

mutual

/-- How many stamps the value gets. -/
def Value.stamps : Value → Nat
  | .list _ vs => 1 + Value.allStamps vs
  | .dotted _ vs v => 1 + (Value.allStamps vs + v.stamps)
  | .closure _ body env => body.stamps + env.stamps
  | _ => 0

/-- How many stamps the values get. -/
def Value.allStamps : List Value → Nat
  | [] => 0
  | v :: vs => v.stamps + Value.allStamps vs

/-- How many stamps the environment gets. -/
def Env.stamps : Env → Nat
  | .empty => 0
  | .frame _ _ values outer => 1 + (Value.allStamps values + outer.stamps)

end

mutual

/-- Stamping takes the next number as far as there are stamps. -/
theorem Value.stamp_snd : (v : Value) → (next : Nat) → (v.stamp next).2 = next + v.stamps
  | .list _ vs, next => by
    simp only [Value.stamp, Value.stamps, Value.stampAll_snd vs, Nat.add_assoc]
  | .dotted _ vs v, next => by
    simp only [Value.stamp, Value.stamps, Value.stampAll_snd vs, Value.stamp_snd v, Nat.add_assoc]
  | .closure _ body env, next => by
    simp only [Value.stamp, Value.stamps, Value.stamp_snd body, Env.stamp_snd env, Nat.add_assoc]
  | .bool _, _ | .int _, _ | .str _, _ | .symbol _, _ | .primitive _, _ | .unspecified, _
  | .quit, _ => rfl

/-- Stamping a list takes all the numbers of its values. -/
theorem Value.stampAll_snd : (vs : List Value) → (next : Nat) →
    (Value.stampAll next vs).2 = next + Value.allStamps vs
  | [], _ => rfl
  | v :: vs, next => by
    simp only [Value.stampAll, Value.allStamps, Value.stamp_snd v, Value.stampAll_snd vs,
      Nat.add_assoc]

/-- Stamping an environment takes one number for each frame, besides those of the values. -/
theorem Env.stamp_snd : (env : Env) → (next : Nat) → (env.stamp next).2 = next + env.stamps
  | .empty, _ => rfl
  | .frame _ _ values outer, next => by
    simp only [Env.stamp, Env.stamps, Value.stampAll_snd values, Env.stamp_snd outer,
      Nat.add_assoc]

end

/-- So many numbers from `m` on go together with those from `n` on. -/
def Pairing.Rows (p : Pairing) (m n count : Nat) : Prop :=
  ∀ k < count, p (.made (m + k)) (.made (n + k))

namespace Pairing.Rows

variable {p : Pairing} {m n a b : Nat}

/-- A row that is not empty begins with its first pair. -/
theorem first (h : p.Rows m n (1 + b)) : p (.made m) (.made n) := h 0 (by omega)

/-- The first part of a row. -/
theorem before (h : p.Rows m n (a + b)) : p.Rows m n a := fun k hk => h k (by omega)

/-- The rest of a row. -/
theorem after (h : p.Rows m n (a + b)) : p.Rows (m + a) (n + a) b := by
  intro k hk
  rw [Nat.add_assoc, Nat.add_assoc]
  exact h (a + k) (by omega)

end Pairing.Rows

section Stamped

variable {p : Pairing}

mutual

/-- One value with stamps from here on and from there on: these are twins. -/
theorem Value.twins_stamp : (v : Value) → {m n : Nat} → p.Rows m n v.stamps →
    (v.stamp m).1.Twins p (v.stamp n).1
  | .list _ vs, _, _, h => .list h.first (Value.twins_stampAll vs h.after)
  | .dotted _ vs v, m, n, h => by
    -- the items take the numbers after the first one, and the tail the ones after those
    have hvs := Value.twins_stampAll vs h.after.before
    have hv := Value.twins_stamp v h.after.after
    simp only [Value.stamp, Value.stampAll_snd]
    exact .dotted h.first hvs hv
  | .closure formals body env, m, n, h => by
    have hbody := Value.twins_stamp body h.before
    have henv := Env.twins_stamp env h.after
    simp only [Value.stamp, Value.stamp_snd]
    exact .closure formals hbody henv
  | .bool b, _, _, _ => .bool b
  | .int n, _, _, _ => .int n
  | .str text, _, _, _ => .str text
  | .symbol name, _, _, _ => .symbol name
  | .primitive name, _, _, _ => .primitive name
  | .unspecified, _, _, _ => .unspecified
  | .quit, _, _, _ => .quit

/-- As `Value.twins_stamp`, from left to right. -/
theorem Value.twins_stampAll : (vs : List Value) → {m n : Nat} →
    p.Rows m n (Value.allStamps vs) →
    Value.AllTwins p (Value.stampAll m vs).1 (Value.stampAll n vs).1
  | [], _, _, _ => .nil
  | v :: vs, m, n, h => by
    have hv := Value.twins_stamp v h.before
    have hvs := Value.twins_stampAll vs h.after
    simp only [Value.stampAll, Value.stamp_snd]
    exact .cons hv hvs

/-- As `Value.twins_stamp`, from the innermost frame on. -/
theorem Env.twins_stamp : (env : Env) → {m n : Nat} → p.Rows m n env.stamps →
    (env.stamp m).1.Twins p (env.stamp n).1
  | .empty, _, _, _ => .empty
  | .frame _ names values outer, m, n, h => by
    have hvalues := Value.twins_stampAll values h.after.before
    have houter := Env.twins_stamp outer h.after.after
    simp only [Env.stamp, Value.stampAll_snd]
    exact .frame names h.first hvalues houter

end

end Stamped

/-! ## Comparing -/

/-- The pairing never takes two origins for one, nor one for two. -/
def Pairing.Faithful (p : Pairing) : Prop :=
  ∀ o₁ o₁' o₂ o₂', p o₁ o₁' → p o₂ o₂' → o₁.isOne o₂ = o₁'.isOne o₂'

section Comparing

variable {p : Pairing}

/-- Twins are as many here as there. -/
theorem Value.AllTwins.length_eq {vs vs' : List Value} :
    Value.AllTwins p vs vs' → vs.length = vs'.length
  | .nil => rfl
  | .cons _ hvs => congrArg (· + 1) hvs.length_eq

/-- Twins have as many frames. -/
theorem Env.Twins.depth_eq {env env' : Env} : env.Twins p env' → env.depth = env'.depth
  | .empty => rfl
  | .frame _ _ _ houter => congrArg (· + 1) houter.depth_eq

/-- Being the same at once is a matter of the trees. -/
theorem Value.Twins.sameAtOnce_eq {v v' w w' : Value} (hv : v.Twins p v') (hw : w.Twins p w') :
    v.sameAtOnce w = v'.sameAtOnce w' := by
  show v.same w = v'.same w'
  rw [Bool.eq_iff_iff, Value.same_iff_tree, Value.same_iff_tree, hv.tree_eq, hw.tree_eq]

/-- So it is for lists of values. -/
theorem Value.AllTwins.allSameAtOnce_eq {vs vs' ws ws' : List Value} (hvs : Value.AllTwins p vs vs')
    (hws : Value.AllTwins p ws ws') : Value.allSameAtOnce vs ws = Value.allSameAtOnce vs' ws' := by
  show Value.allSame vs ws = Value.allSame vs' ws'
  rw [Bool.eq_iff_iff, Value.allSame_iff_trees, Value.allSame_iff_trees, hvs.trees_eq, hws.trees_eq]

/-- And for environments. -/
theorem Env.Twins.sameAtOnce_eq {e e' f f' : Env} (he : e.Twins p e') (hf : f.Twins p f') :
    e.sameAtOnce f = e'.sameAtOnce f' := by
  show e.same f = e'.same f'
  rw [Bool.eq_iff_iff, Env.same_iff_tree, Env.same_iff_tree, he.tree_eq, hf.tree_eq]

mutual

/-- Twins compare in the same way, with the same answer in the same room. -/
theorem Value.Twins.equal?_eq (hp : p.Faithful) {room : Nat} {v v' w w' : Value} :
    v.Twins p v' → w.Twins p w' → v.equal? room w = v'.equal? room w'
  | .list ho hvs, hw => by
    cases hw with
    | list ho' hws =>
      -- the pairing is faithful: the two lists are one object on this side just if they are on that
      -- side
      rw [Value.equal?, Value.equal?, hp _ _ _ _ ho ho', hvs.allSameAtOnce_eq hws, hvs.length_eq,
        hws.length_eq, hvs.allEqual?_eq hp hws]
    | _ => rfl
  | .dotted ho hvs hv, hw => by
    cases hw with
    | dotted ho' hws hw =>
      rw [Value.equal?, Value.equal?, hp _ _ _ _ ho ho', hvs.allSameAtOnce_eq hws,
        hv.sameAtOnce_eq hw, hvs.length_eq, hws.length_eq, hvs.allEqual?_eq hp hws,
        hv.equal?_eq hp hw]
    | _ => rfl
  | .closure _ hbody henv, hw => by
    cases hw with
    | closure _ hbody' henv' =>
      rw [Value.equal?, Value.equal?, Value.equalRoom, Value.equalRoom, hbody.equal?_eq hp hbody',
        henv.depth_eq, henv'.depth_eq, henv.equal?_eq hp henv']
    | _ => rfl
  | .bool _, hw | .int _, hw | .str _, hw | .symbol _, hw | .primitive _, hw | .unspecified, hw
  | .quit, hw => by
    cases hw <;> rfl

/-- Lists of twins compare in the same way. -/
theorem Value.AllTwins.allEqual?_eq (hp : p.Faithful) {room : Nat} {vs vs' ws ws' : List Value} :
    Value.AllTwins p vs vs' → Value.AllTwins p ws ws' →
      Value.allEqual? room vs ws = Value.allEqual? room vs' ws'
  | .nil, .nil => rfl
  | .nil, .cons _ _ => rfl
  | .cons _ _, .nil => rfl
  | .cons hv hvs, .cons hw hws => by
    rw [Value.allEqual?, Value.allEqual?, hv.equal?_eq hp hw, hvs.allEqual?_eq hp hws]

/-- So do environments of twins. -/
theorem Env.Twins.equal?_eq (hp : p.Faithful) {room : Nat} {e e' f f' : Env} :
    e.Twins p e' → f.Twins p f' → e.equal? room f = e'.equal? room f'
  | .empty, .empty => rfl
  | .empty, .frame _ _ _ _ => rfl
  | .frame _ _ _ _, .empty => rfl
  | .frame _ ho hvs houter, .frame _ ho' hws houter' => by
    rw [Env.equal?, Env.equal?, hp _ _ _ _ ho ho', hvs.allSameAtOnce_eq hws,
      houter.sameAtOnce_eq houter', hvs.allEqual?_eq hp hws, houter.equal?_eq hp houter']

end

end Comparing

/-! ## Messages -/

mutual

/-- The detail of a value is that of its tree: no number is shown. -/
theorem Value.detail_tree : (v : Value) → v.tree.detail = v.detail
  | .list _ vs => by rw [Value.tree, Value.detail, Value.detail, Value.details_trees vs]
  | .dotted _ vs v => by
    rw [Value.tree, Value.detail, Value.detail, Value.details_trees vs, Value.detail_tree v]
  | .closure _ body _ => by rw [Value.tree, Value.detail, Value.detail, Value.detail_tree body]
  | .bool _ | .int _ | .str _ | .symbol _ | .primitive _ | .unspecified | .quit => rfl

/-- So are the details of a list of values. -/
theorem Value.details_trees : (vs : List Value) →
    Value.details (Value.trees vs) = Value.details vs
  | [] => rfl
  | [v] => Value.detail_tree v
  | v :: w :: vs => by
    show v.tree.detail ++ ", " ++ Value.details (Value.trees (w :: vs))
      = v.detail ++ ", " ++ Value.details (w :: vs)
    rw [Value.detail_tree v, Value.details_trees (w :: vs)]

end

mutual

/-- The limit that the detail of a value meets depends on its tree only. -/
theorem Value.detailLimit?_tree {room : Nat} : (v : Value) →
    v.tree.detailLimit? room = v.detailLimit? room
  | .list _ vs => by
    rw [Value.tree, Value.detailLimit?, Value.detailLimit?, Value.detailLimits?_trees vs]
  | .dotted _ vs v => by
    rw [Value.tree, Value.detailLimit?, Value.detailLimit?, Value.detailLimits?_trees vs,
      Value.detailLimit?_tree v]
  | .closure _ body _ => by
    rw [Value.tree, Value.detailLimit?, Value.detailLimit?, Value.detailLimit?_tree body,
      Value.detailRoom, Value.detailRoom]
  | .bool _ | .int _ | .str _ | .symbol _ | .primitive _ | .unspecified | .quit => rfl

/-- So it is for the items of a list. -/
theorem Value.detailLimits?_trees {room : Nat} : (vs : List Value) →
    Value.detailLimits? room (Value.trees vs) = Value.detailLimits? room vs
  | [] => rfl
  | v :: vs => by
    rw [Value.trees, Value.detailLimits?, Value.detailLimits?, Value.detailLimit?_tree v,
      Value.detailLimits?_trees vs]

end

/-- The error with the tree of the value that it is about. -/
def Error.tree : Error → Error
  | .notExpression v => .notExpression v.tree
  | .dottedCall v => .dottedCall v.tree
  | .badParameters v => .badParameters v.tree
  | .badClause v => .badClause v.tree
  | .notName v => .notName v.tree
  | .notModuleName v => .notModuleName v.tree
  | .notFunction v => .notFunction v.tree
  | .closureArity closure expected got => .closureArity closure.tree expected got
  | .notPair name v => .notPair name v.tree
  | .notNumber name v => .notNumber name v.tree
  | e => e

/-- A message says nothing about numbers. -/
theorem Error.message_tree (e : Error) : e.tree.message = e.message := by
  cases e with
  | notExpression v | dottedCall v | badParameters v | badClause v | notName v | notModuleName v =>
    unfold tree message
    dsimp only
    rw [Value.detail_tree]
  | notFunction v | closureArity v _ _ | notPair _ v | notNumber _ v =>
    unfold tree message
    dsimp only
    rw [Value.text_tree]
  | _ => rfl

/-- Nor does it depend on them whether a message can be written. -/
theorem Error.limit?_tree (room : Nat) (e : Error) : e.tree.limit? room = e.limit? room := by
  cases e with
  | notExpression v | dottedCall v | badParameters v | badClause v | notName v | notModuleName v =>
    simp only [tree, limit?, Value.detailLimit?_tree]
  | notFunction v | notPair _ v | notNumber _ v => simp only [tree, limit?, Value.textLimit?_tree]
  | _ => rfl

/-- The errors are the same, but for where the lists in their values come from. -/
def Error.Alike (e e' : Error) : Prop := e.tree = e'.tree

/-- The faults are the same, but for where the lists in their values come from. -/
inductive Fault.Alike : Fault → Fault → Prop where
  | error {e e' : Error} : e.Alike e' → Fault.Alike (.error e) (.error e')
  | outside (fault : Fault) : Fault.Alike fault fault

/-- Two outcomes are both values or both errors, and go together as such. -/
inductive ExceptRel {ε α β : Type} (errors : ε → ε → Prop) (values : α → β → Prop) :
    Except ε α → Except ε β → Prop where
  | error {e e' : ε} : errors e e' → ExceptRel errors values (.error e) (.error e')
  | ok {a : α} {b : β} : values a b → ExceptRel errors values (.ok a) (.ok b)

/-! ## Names and forms -/

section Forms

variable {p : Pairing}

/-- Under the first of the names that is the one asked for, there are twins. -/
theorem Env.find?_twins (name : String) : (names : List String) → {vs vs' : List Value} →
    Value.AllTwins p vs vs' →
      Option.Rel (Value.Twins p) (Env.find? name names vs) (Env.find? name names vs')
  | [], _, _, _ => .none
  | _ :: _, _, _, .nil => .none
  | n :: names, _, _, .cons hv hvs => by
    rw [Env.find?, Env.find?]
    split
    · exact .some hv
    · exact Env.find?_twins name names hvs

/-- A name is bound to twins. -/
theorem Env.Twins.lookup? (name : String) {env env' : Env} (h : env.Twins p env') :
    Option.Rel (Value.Twins p) (env.lookup? name) (env'.lookup? name) := by
  cases h with
  | empty => exact .none
  | @frame _ _ names vs vs' _ _ _ hvs houter =>
    have hfind := Env.find?_twins name names hvs
    rw [Env.lookup?, Env.lookup?]
    generalize Env.find? name names vs = found?, Env.find? name names vs' = found?' at hfind
    cases hfind with
    | some hv => exact .some hv
    | none => exact Env.Twins.lookup? name houter

/-- The question and the answer are twins. -/
def ClauseTwins (p : Pairing) (clause clause' : Value × Value) : Prop :=
  clause.1.Twins p clause'.1 ∧ clause.2.Twins p clause'.2

/-- The forms have twins for their parts. -/
inductive Form.Twins (p : Pairing) : Form → Form → Prop where
  | constant {v v' : Value} : v.Twins p v' → Form.Twins p (.constant v) (.constant v')
  | identifier (name : String) : Form.Twins p (.identifier name) (.identifier name)
  | quote {v v' : Value} : v.Twins p v' → Form.Twins p (.quote v) (.quote v')
  | lambda (formals : List String) {body body' : Value} :
    body.Twins p body' → Form.Twins p (.lambda formals body) (.lambda formals body')
  | cond {clauses clauses' : List (Value × Value)} {answer? answer?' : Option Value} :
    List.Forall₂ (ClauseTwins p) clauses clauses' →
      Option.Rel (Value.Twins p) answer? answer?' →
      Form.Twins p (.cond clauses answer?) (.cond clauses' answer?')
  | define (name : String) {expr expr' : Value} :
    expr.Twins p expr' → Form.Twins p (.define name expr) (.define name expr')
  | and {exprs exprs' : List Value} :
    Value.AllTwins p exprs exprs' → Form.Twins p (.and exprs) (.and exprs')
  | or {exprs exprs' : List Value} :
    Value.AllTwins p exprs exprs' → Form.Twins p (.or exprs) (.or exprs')
  | not {expr expr' : Value} : expr.Twins p expr' → Form.Twins p (.not expr) (.not expr')
  | begin {first first' : Value} {others others' : List Value} :
    first.Twins p first' → Value.AllTwins p others others' →
      Form.Twins p (.begin first others) (.begin first' others')
  | require (name : String) : Form.Twins p (.require name) (.require name)
  | quit : Form.Twins p .quit .quit
  | call {head head' : Value} {exprs exprs' : List Value} :
    head.Twins p head' → Value.AllTwins p exprs exprs' →
      Form.Twins p (.call head exprs) (.call head' exprs')

/-- Both are forms that are twins, or both have the same error. -/
abbrev Form.Checked (p : Pairing) : Except Error Form → Except Error Form → Prop :=
  ExceptRel Error.Alike (Form.Twins p)

/-- The formals are symbols, which twins share. -/
theorem Form.formals?_twins {v v' : Value} (h : v.Twins p v') : formals? v = formals? v' := by
  cases h with
  | list _ hvs =>
    show List.mapM Value.symbolName? _ = List.mapM Value.symbolName? _
    exact names hvs
  | _ => rfl
where
  names : {vs vs' : List Value} → Value.AllTwins p vs vs' →
      vs.mapM Value.symbolName? = vs'.mapM Value.symbolName?
    | _, _, .nil => rfl
    | v :: _, v' :: _, .cons hv hvs => by
      have hname : v.symbolName? = v'.symbolName? := by
        cases hv <;> rfl
      rw [List.mapM_cons, List.mapM_cons, hname, names hvs]

/-- If one is a symbol, the other is that symbol. -/
theorem Value.Twins.symbol_iff {v v' : Value} (h : v.Twins p v') (name : String) :
    v = .symbol name ↔ v' = .symbol name := by
  -- Of every kind of value, only symbols can be equal to one.
  cases h <;> simp

/-- No values here means no values there. -/
theorem Value.AllTwins.isEmpty_eq {vs vs' : List Value} (h : Value.AllTwins p vs vs') :
    vs.isEmpty = vs'.isEmpty := by
  cases h <;> rfl

/-- Of twins, both are lists of two or neither is. -/
theorem Value.Twins.pair_or {v v' : Value} (h : v.Twins p v') :
    (∃ o a b o' a' b', v = .list o [a, b] ∧ v' = .list o' [a', b'] ∧
      a.Twins p a' ∧ b.Twins p b') ∨
      (∀ o a b, v ≠ .list o [a, b]) ∧ ∀ o a b, v' ≠ .list o [a, b] := by
  cases h with
  | list ho hvs =>
    cases hvs with
    | nil => exact Or.inr (by simp)
    | cons ha hvs =>
      cases hvs with
      | nil => exact Or.inr (by simp)
      | cons hb hvs =>
        cases hvs with
        | nil => exact Or.inl ⟨_, _, _, _, _, _, rfl, rfl, ha, hb⟩
        | cons _ _ => exact Or.inr (by simp)
  | _ => exact Or.inr (by simp)

/-- A clause with a question that is not `else`. -/
theorem Form.clauses?_question {question : Value} (hquestion : question ≠ .symbol "else")
    (o : Origin) (answer : Value) (rest : List Value) :
    clauses? (.list o [question, answer] :: rest) = match clauses? rest with
      | .ok (clauses, otherwise?) => .ok ((question, answer) :: clauses, otherwise?)
      | .error e => .error e :=
  clauses?.eq_3 rest o question answer hquestion

/-- What is no list of two is no clause. -/
theorem Form.clauses?_bad {clause : Value}
    (hclause : ∀ o question answer, clause ≠ .list o [question, answer]) (rest : List Value) :
    clauses? (clause :: rest) = .error (.badClause clause) := by
  rw [clauses?]
  · exact fun o answer => hclause o _ answer
  · exact hclause

/-- The clauses of a `cond`, with the answer to `else` if there is one.  If they are not in order,
    it is the same clause that is to blame. -/
theorem Form.clauses?_twins {vs vs' : List Value} (h : Value.AllTwins p vs vs') :
    ExceptRel Error.Alike (fun r r' => List.Forall₂ (ClauseTwins p) r.1 r'.1 ∧
      Option.Rel (Value.Twins p) r.2 r'.2) (clauses? vs) (clauses? vs') := by
  induction vs generalizing vs' with
  | nil =>
    cases h
    exact .ok ⟨.nil, .none⟩
  | cons clause rest ih =>
    cases h with
    | @cons _ clause' _ rest' hclause hrest =>
      have ih := ih hrest
      rcases hclause.pair_or with ⟨o, question, answer, o', question', answer', rfl, rfl,
        hquestion, hanswer⟩ | ⟨hbad, hbad'⟩
      -- A clause of two items is an `else` on both sides or on neither.
      · by_cases helse : question = .symbol "else"
        · obtain rfl := (hquestion.symbol_iff "else").mp helse
          subst helse
          rw [clauses?, clauses?, hrest.isEmpty_eq]
          split
          · exact .ok ⟨.nil, .some hanswer⟩
          · exact .error rfl
        · have helse' : question' ≠ .symbol "else" :=
            fun hc => helse ((hquestion.symbol_iff "else").mpr hc)
          rw [clauses?_question helse, clauses?_question helse']
          generalize clauses? rest = checked, clauses? rest' = checked' at ih
          cases ih with
          | error he => exact .error he
          | ok hparts => exact .ok ⟨.cons ⟨hquestion, hanswer⟩ hparts.1, hparts.2⟩
      · rw [clauses?_bad hbad, clauses?_bad hbad']
        exact .error (congrArg Error.badClause hclause.tree_eq)

/-- The body that is made of several expressions is a new list, of unknown origin on both sides. -/
theorem Form.body_twins (hp : p .unknown .unknown) {first first' : Value}
    {others others' : List Value} (hfirst : first.Twins p first')
    (hothers : Value.AllTwins p others others') :
    (body first others).Twins p (body first' others') := by
  cases hothers with
  | nil => exact hfirst
  -- Several are put into a `begin`.
  | cons hnext hothers => exact .list hp (.cons (.symbol _) (.cons hfirst (.cons hnext hothers)))

/-- Special forms of twins. -/
theorem Form.special?_twins (hp : p .unknown .unknown) (keyword : Keyword) {vs vs' : List Value}
    (h : Value.AllTwins p vs vs') :
    Form.Checked p (special? keyword vs) (special? keyword vs') := by
  cases keyword with
  | quote =>
    cases h with
    -- what a keyword complains about is the number of its parts or the tree of one of them, and
    -- twins have both in common
    | nil => exact .error rfl
    | cons hv h =>
      cases h with
      | nil => exact .ok (.quote hv)
      | cons _ _ => exact .error rfl
  | lambda =>
    cases h with
    | nil => exact .error rfl
    | cons hparams h =>
      cases h with
      | nil => exact .error rfl
      | cons hfirst hothers =>
        rw [special?, special?, formals?_twins hparams]
        split
        · exact .ok (.lambda _ (body_twins hp hfirst hothers))
        · exact .error (congrArg Error.badParameters hparams.tree_eq)
  | cond =>
    have hclauses := clauses?_twins h
    rw [special?, special?]
    generalize clauses? vs = checked, clauses? vs' = checked' at hclauses
    cases hclauses with
    | error he => exact .error he
    | ok hparts => exact .ok (.cond hparts.1 hparts.2)
  | define =>
    cases h with
    | nil => exact .error rfl
    | cons hv h =>
      cases h with
      | nil => cases hv <;> exact .error rfl
      | cons hexpr h =>
        cases h with
        | cons _ _ => cases hv <;> exact .error rfl
        | nil =>
          have htree := hv.tree_eq
          cases hv with
          | symbol name =>
            rw [special?, special?]
            split
            · exact .error rfl
            · exact .ok (.define name hexpr)
          | _ => exact .error (congrArg Error.notName htree)
  | and => exact .ok (.and h)
  | or => exact .ok (.or h)
  | not =>
    cases h with
    | nil => exact .error rfl
    | cons hv h =>
      cases h with
      | nil => exact .ok (.not hv)
      | cons _ _ => exact .error rfl
  | begin =>
    cases h with
    | nil => exact .error rfl
    | cons hfirst hothers => exact .ok (.begin hfirst hothers)
  | require =>
    cases h with
    | nil => exact .error rfl
    | cons hv h =>
      cases h with
      | cons _ _ => cases hv <;> exact .error rfl
      | nil =>
        have htree := hv.tree_eq
        cases hv with
        | str name => exact .ok (.require name)
        | _ => exact .error (congrArg Error.notModuleName htree)
  | quit =>
    cases h with
    | nil => exact .ok .quit
    | cons _ _ => exact .error rfl

/-- The forms of twins. -/
theorem Form.ofExpr?_twins (hp : p .unknown .unknown) {expr expr' : Value}
    (h : expr.Twins p expr') : Form.Checked p (ofExpr? expr) (ofExpr? expr') := by
  have htree := h.tree_eq
  cases h with
  | bool b => exact .ok (.constant (.bool b))
  | int n => exact .ok (.constant (.int n))
  | str text => exact .ok (.constant (.str text))
  | symbol name =>
    rw [ofExpr?]
    split
    · exact .ok (.constant (.primitive name))
    · exact .ok (.identifier name)
  | list ho hvs =>
    cases hvs with
    | nil => exact .error rfl
    | @cons head head' _ _ hhead hvs =>
      -- keywords are symbols, and a symbol is a twin of itself only
      have hkeyword : Value.keyword? [head] = Value.keyword? [head'] := by
        cases hhead <;> rfl
      unfold ofExpr?
      dsimp only
      rw [hkeyword]
      split
      · exact special?_twins hp _ hvs
      · exact .ok (.call hhead hvs)
  | dotted => exact .error (congrArg Error.dottedCall htree)
  | closure | primitive | unspecified | quit => exact .error (congrArg Error.notExpression htree)

end Forms

end SmallScheme
