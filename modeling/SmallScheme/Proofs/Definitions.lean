/-
  MODULES THAT ONLY DEFINE FUNCTIONS.

  A form `(define name (lambda (parameters) body))` binds its name to a function, whatever there
  was before.  The body is the one that was read, with the stamps that it got when the form was
  let in; the function has the empty environment.  So a module that is made of such forms, with
  names that differ, binds each of them, and all other names keep their values.

  This is shown for the reference evaluator, and then for the one that programs run on: what that
  has loaded, the reference evaluator loads in the same way.

  Structure:
    1. Definitions, the forms that make them (`Definition.form`), and what they do to a store
       (`Store.Gains`).  A text is made of definitions (`Script.MadeOf`) if it is read as them.
    2. The form is let in and evaluated: it binds its name to the function, and does nothing else.
    3. A module of definitions, by induction on its forms; then its file, and the module by name.
    4. Names that a module has bound: how a store comes to have them from it, whatever was loaded
       before and after.

  The statement is about all names of a module at once.  What its functions compute is another
  matter: it is shown in any store that has them, wherever they come from.
-/
import SmallScheme.Proofs.Host
import SmallScheme.Proofs.JoinedText
import SmallScheme.Proofs.TailCall

namespace SmallScheme

/-! ## Definitions -/

/-- A function that a module defines. -/
structure Definition where
  name : String
  formals : List String
  body : Value

namespace Definition

/-- The function, as an expression. -/
def lambda (d : Definition) : Value :=
  .ofItems [.symbol "lambda", .ofItems (d.formals.map .symbol), d.body]

/-- The form that defines the function. -/
def form (d : Definition) : Value := .ofItems [.symbol "define", .symbol d.name, d.lambda]

/-- The function, with stamps from `next` on in its body. -/
def function (d : Definition) (next : Nat) : Value :=
  .closure d.formals (d.body.stamp next).1 .empty

end Definition

/-- The name is bound to the function that is defined. -/
def Store.Binds (store : Store) (d : Definition) : Prop :=
  ∃ next, store.get? d.name = some (d.function next)

/-- What making definitions does to the store. -/
structure Store.Gains (ds : List Definition) (before after : Store) : Prop where
  binds : ∀ d ∈ ds, after.Binds d
  keeps : ∀ name, (∀ d ∈ ds, d.name ≠ name) → after.get? name = before.get? name

/-- The text is made of these definitions, and it needs so much room to be read. -/
structure Script.MadeOf (source : String) (depth : Nat) (ds : List Definition) : Prop where
  forms : (Script.ofText depth source).forms = ds.map Definition.form
  accepted : (Script.ofText depth source).fault? = none
  names : ∀ d ∈ ds, Primitive.ofName? d.name = none
  distinct : (ds.map Definition.name).Nodup

/-- In more room the text is read in the same way. -/
theorem Script.MadeOf.widen {source : String} {depth : Nat} {ds : List Definition}
    (h : Script.MadeOf source depth ds) {room : Nat} (hroom : depth ≤ room) :
    Script.MadeOf source room ds := by
  rcases Script.ofTokens_opens hroom (Tokens.ofText source.toList) with hsame | ⟨hdeep, -⟩
  · have hsame : Script.ofText room source = Script.ofText depth source := hsame
    exact { h with forms := by rw [hsame, h.forms], accepted := by rw [hsame, h.accepted] }
  · cases h.accepted.symm.trans hdeep

/-! ## The form is let in and evaluated -/

/-- Symbols have no place for a stamp. -/
theorem Value.stampAll_symbols (next : Nat) (names : List String) :
    Value.stampAll next (names.map .symbol) = (names.map .symbol, next) := by
  induction names with
  | nil => rfl
  | cons name names ih =>
    have hname : Value.stamp next (.symbol name) = (.symbol name, next) := rfl
    rw [List.map_cons, Value.stampAll, hname]
    simp only [ih]

/-- The parameters are found in the form. -/
theorem Form.formals?_symbols (origin : Origin) (names : List String) :
    Form.formals? (.list origin (names.map .symbol)) = some names := by
  show (names.map Value.symbol).mapM Value.symbolName? = some names
  induction names with
  | nil => rfl
  | cons name names ih =>
    rw [List.map_cons, List.mapM_cons, ih]
    rfl

namespace Definition

variable (d : Definition) {loader? : Option Loader}

/-- The stamped form: the three lists of it that are no part of the body come first. -/
theorem stamp_form (next : Nat) : (d.form.stamp next).1
    = .list (.made next) [.symbol "define", .symbol d.name,
        .list (.made (next + 1)) [.symbol "lambda",
          .list (.made (next + 2)) (d.formals.map .symbol), (d.body.stamp (next + 3)).1]] := by
  simp only [form, lambda, Value.ofItems, Value.stamp, Value.stampAll, Value.stampAll_symbols]

/-- The form defines the function. -/
theorem direct_form (hname : Primitive.ofName? d.name = none) (room next : Nat) :
    Eval.direct loader? (room + 2) (d.form.stamp next).1 .empty
      = Eval.defining d.name (d.function (next + 3)) := by
  let lambda : Value := .list (.made (next + 1)) [.symbol "lambda",
    .list (.made (next + 2)) (d.formals.map .symbol), (d.body.stamp (next + 3)).1]
  -- the name is not that of a primitive, so it may be defined
  have hdefine : Form.ofExpr? (d.form.stamp next).1 = .ok (.define d.name lambda) := by
    rw [stamp_form]
    show Form.special? .define [.symbol d.name, lambda] = _
    rw [Form.special?, hname]
    rfl
  have hlambda : Form.ofExpr? lambda = .ok (.lambda d.formals (d.body.stamp (next + 3)).1) := by
    show Form.special? .lambda [.list (.made (next + 2)) (d.formals.map .symbol), _] = _
    rw [Form.special?, Form.formals?_symbols]
    rfl
  have hvalue : Eval.direct loader? (room + 1) lambda .empty
      = pure (d.function (next + 3)) := by
    rw [Eval.direct, Way.eval, hlambda]
    rfl
  -- the lambda is evaluated at once, and what it gives is bound to the name
  rw [Eval.direct, Way.eval, hdefine]
  show (Way.atOnce loader? (room + 1) _).unlessQuit (Eval.direct loader? (room + 1) lambda .empty) _
    = _
  rw [hvalue]
  exact bind_pure (Eval.defining d.name (d.function (next + 3)))

end Definition

/-! ## A module of definitions -/

namespace Loader

variable {loader? : Option Loader} {ds : List Definition}

/-- Definitions are run to the end, and each of them stands. -/
theorem runForms_definitions (loader? : Option Loader)
    (hnames : ∀ d ∈ ds, Primitive.ofName? d.name = none)
    (hdistinct : (ds.map Definition.name).Nodup) (room : Nat) (s : State) :
    ∃ t, runForms (Eval.directly loader? (room + 2)) (ds.map Definition.form) s = .ok false t ∧
      Store.Gains ds s.store t.store ∧ t.loading = s.loading := by
  induction ds generalizing s with
  | nil => exact ⟨s, rfl, ⟨nofun, fun _ _ => rfl⟩, rfl⟩
  | cons d ds ih =>
    obtain ⟨hname, hnames⟩ := List.forall_mem_cons.mp hnames
    obtain ⟨hnew, hdistinct⟩ := List.nodup_cons.mp hdistinct
    let f := d.function (s.made + 3)
    obtain ⟨u, hu, hstore, hloading⟩ : ∃ u, (Run.letIn d.form >>= fun form =>
        (Eval.directly loader? (room + 2)).run Room.moduleForm form .empty) s
          = .ok (.symbol d.name) u ∧ u.store = s.store.put d.name f ∧ u.loading = s.loading := by
      have hrun := Eval.defining_apply d.name f { s with made := (d.form.stamp s.made).2 }
      rw [← d.direct_form hname room s.made] at hrun
      exact ⟨_, hrun, rfl, rfl⟩
    obtain ⟨t, ht, hgains, hloading'⟩ := ih hnames hdistinct u
    refine ⟨t, ?_, ⟨?_, fun name hother => ?_⟩, hloading'.trans hloading⟩
    · rw [List.map_cons, runForms, ← bind_assoc, Run.bind_apply, hu]
      exact ht
    · intro d' hd'
      rcases List.mem_cons.mp hd' with rfl | hd'
      -- none of the definitions that follow has this name
      · have hlater : ∀ d'' ∈ ds, d''.name ≠ d'.name :=
          fun d'' hd'' hc => hnew (hc ▸ List.mem_map_of_mem hd'')
        refine ⟨s.made + 3, ?_⟩
        rw [hgains.keeps _ hlater, hstore]
        exact Store.get?_put_self _ _ _
      · exact hgains.binds d' hd'
    · obtain ⟨hne, hothers⟩ := List.forall_mem_cons.mp hother
      rw [hgains.keeps name hothers, hstore]
      exact Store.get?_put_of_ne _ _ fun hc => hne hc.symm

variable {source : String} {depth : Nat} {loader : Loader} {path : Path} {s : State}

/-- Unless it is being loaded already, a file of definitions is loaded to the end. -/
theorem loadPath_definitions (loader? : Option Loader) (h : Script.MadeOf source depth ds)
    (hnull : path.hasNull = false) (hfree : loader.absolute path ∉ s.loading)
    (htext : loader.text (loader.absolute path) = .ok source) {room : Nat}
    (hroom : depth + 7 ≤ room) :
    ∃ t, loader.loadPath (Eval.directly loader? room) path s = .ok .unspecified t ∧
      Store.Gains ds s.store t.store := by
  obtain ⟨small, rfl⟩ : ∃ small, room = small + 2 := ⟨room - 2, by omega⟩
  -- while the file is read it is in the loading set, and the event tells so
  let opened : State := { s with
    events := s.events.push (.loading (loader.absolute path))
    loading := loader.absolute path :: s.loading }
  obtain ⟨t, ht, hgains, -⟩ :=
    runForms_definitions loader? h.names h.distinct small opened
  have hread := h.widen (show depth ≤ small + 2 - Room.moduleText by
    have : Room.moduleText = 5 := rfl
    omega)
  have hscript : runScript (Eval.directly loader? (small + 2))
      (Script.ofText (small + 2 - Room.moduleText) source) opened = .ok .unspecified t := by
    rw [runScript, hread.forms, hread.accepted, Run.bind_apply, ht]
    rfl
  refine ⟨{ t with loading := t.loading.erase (loader.absolute path) }, ?_, hgains⟩
  rw [loadPath_of_free _ hnull hfree, readFile_of_text htext]
  show Run.whileLoading _ (runScript (Eval.directly loader? (small + 2))
    (Script.ofText (small + 2 - Room.moduleText) source)) _ = _
  unfold Run.whileLoading
  rw [show ({ s with
      events := s.events.push (.loading (loader.absolute path))
      loading := loader.absolute path :: s.loading } : State) = opened from rfl, hscript]

/-- What the reference evaluator has loaded, the evaluator loads with enough steps and room. -/
theorem loadPath_within_steps {limit steps room : Nat} (hsteps : limit ≤ steps)
    (hroom : 7 * limit + Room.moduleForm ≤ room) :
    Run.Within (loader.loadPath (Eval.directly loader? limit) path)
      (loader.loadPath (Eval.within loader? steps room) path) := by
  have hwithin : (Eval.directly loader? limit).Within (Eval.within loader? steps room) :=
    { room := show limit ≤ room by omega
      run := fun below expr env hbelow => by
        show Run.Within _ (Eval.evaluate loader? steps room below expr env)
        rw [Eval.evaluate_below]
        exact Eval.within_evaluate hsteps (by omega) expr env }
  exact loadPath_within hwithin loader path

/-- What the evaluator has loaded, the reference evaluator loads. -/
theorem loadPath_directly {steps room : Nat} {v : Value} {t : State}
    (hload : loader.loadPath (Eval.within loader? steps room) path s = .ok v t) :
    ∃ enough, ∀ room', enough ≤ room' →
      loader.loadPath (Eval.directly loader? room') path s = .ok v t := by
  obtain ⟨cost, hcost⟩ := Eval.evaluate_within loader? steps room
  refine ⟨max room cost, fun room' hroom' => ?_⟩
  have hwithin : (Eval.within loader? steps room).Within (Eval.directly loader? room') :=
    { room := show room ≤ room' by omega
      run := fun below expr env _ => by
        show Run.Within (Eval.evaluate loader? steps room below expr env) _
        rw [Eval.evaluate_below]
        exact (hcost _ (Nat.sub_le _ _) expr env).trans (Eval.direct_mono (by omega) expr env) }
  have hsame := loadPath_within hwithin loader path s (by rw [hload]; trivial)
  rw [hsame, hload]

/-- After a file of definitions has been loaded, each of them stands. -/
theorem binds_of_loadPath (h : Script.MadeOf source depth ds)
    (htext : loader.text (loader.absolute path) = .ok source) {steps room : Nat} {v : Value}
    {t : State} (hload : loader.loadPath (Eval.within loader? steps room) path s = .ok v t) :
    ∀ d ∈ ds, t.store.Binds d := by
  -- the load ended well, so the path could be used and was not in progress
  have hnull : path.hasNull = false := by
    cases hc : path.hasNull with
    | false => rfl
    | true =>
      rw [loadPath_eq, if_pos hc] at hload
      cases hload
  have hfree : loader.absolute path ∉ s.loading := by
    intro hc
    rw [loadPath_of_loading _ hnull hc] at hload
    cases hload
  -- the direct evaluator loads the same, in enough room
  obtain ⟨enough, henough⟩ := loadPath_directly hload
  obtain ⟨t', ht', hgains⟩ := loadPath_definitions loader? h hnull hfree htext
    (show depth + 7 ≤ depth + 7 + enough by omega)
  rw [henough _ (by omega)] at ht'
  cases ht'
  exact hgains.binds

end Loader

/-! ## Names that a module has bound -/

/-- The name is bound as it was bound when a module with this text had been loaded, by some loader,
    at some time. -/
def Store.HasFrom (store : Store) (source name : String) : Prop :=
  ∃ (loader : Loader) (steps room : Nat) (path : Path) (before after : State),
    loader.text (loader.absolute path) = .ok source ∧
    loader.loadPath (Eval.within (some loader) steps room) path before = .ok .unspecified after ∧
    store.get? name = after.store.get? name

/-- A name that a module of definitions has bound is bound to what is defined there. -/
theorem Store.HasFrom.binds {store : Store} {source : String} {d : Definition}
    (h : store.HasFrom source d.name) {depth : Nat} {ds : List Definition}
    (hmade : Script.MadeOf source depth ds) (hd : d ∈ ds) : store.Binds d := by
  obtain ⟨loader, steps, room, path, before, after, htext, hload, hname⟩ := h
  obtain ⟨next, hnext⟩ := Loader.binds_of_loadPath hmade htext hload d hd
  exact ⟨next, hname.trans hnext⟩

end SmallScheme
