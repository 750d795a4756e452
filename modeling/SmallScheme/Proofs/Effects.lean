/-
  EFFECTS ONLY ADD: what a program leaves behind, whatever way it ends.

  What has been displayed stays displayed, and a name that is defined stays defined, in its place.
  Only a `define` form binds a name, and the forms that a program evaluates are written somewhere:
  in its expression, in the body of a closure that it can get hold of, or in a module.  So these
  are the places to look for the names that it may bind (`Eval.MayDefine`).

  1. `State.Grows` compares the state after a run to the state before.  It is kept by what follows
     one after the other, and of all that a program does, only defining and displaying change
     anything that it speaks of.

  2. `Run.Framed` adds that the store stays in scope: without it the closures that are stored on
     the way might have definitions in them that are written nowhere.  Whatever a program does is
     framed (`Host.relates_framed`).

  3. For the scope that allows just the definitions in reach (`Eval.definable`), this says what is
     wanted (`Eval.evaluate_only_adds`).
-/
import SmallScheme.Proofs.Host

namespace SmallScheme

/-! ## What grows -/

/-- From the first state to the second one, the output and the names have only been added to, and
    all names but those that may be defined are bound as they were. -/
structure State.Grows (defined : String → Prop) (s t : State) : Prop where
  out : ∃ text, t.out = s.out ++ text
  names : s.store.names <+: t.store.names
  bound : ∀ name, ¬ defined name → t.store.get? name = s.store.get? name

namespace State.Grows

variable {defined : String → Prop} {s t u : State}

/-- Nothing is added. -/
theorem refl (s : State) : s.Grows defined s :=
  ⟨⟨"", String.append_empty.symm⟩, List.prefix_refl _, fun _ _ => rfl⟩

/-- Adding, and adding more. -/
theorem trans (h : s.Grows defined t) (h' : t.Grows defined u) : s.Grows defined u := by
  obtain ⟨text, htext⟩ := h.out
  obtain ⟨more, hmore⟩ := h'.out
  refine ⟨⟨text ++ more, ?_⟩, h.names.trans h'.names, fun name hname => ?_⟩
  · rw [hmore, htext, String.append_assoc]
  · rw [h'.bound name hname, h.bound name hname]

/-- An aloof run only displays. -/
theorem grown (s : State) (text : String) (new : Array Event) (made : Nat) :
    s.Grows defined (s.grown text new made) :=
  ⟨⟨text, rfl⟩, List.prefix_refl _, fun _ _ => rfl⟩

/-- A definition adds its name at the end, if it is new, and binds no other. -/
theorem define {name : String} (hname : defined name) (v : Value) (events : Array Event) :
    s.Grows defined { s with store := s.store.put name v, events := events } := by
  refine ⟨⟨"", String.append_empty.symm⟩, ?_, fun other hother => ?_⟩
  · show s.store.names <+: (s.store.put name v).names
    rw [Store.names_put]
    split
    · exact List.prefix_refl _
    · exact List.prefix_append _ _
  · have hne : other ≠ name := by
      rintro rfl
      exact hother hname
    exact Store.get?_put_of_ne s.store v hne

end State.Grows

/-- All closures that the store binds have bodies in scope. -/
def Scope.Store (scope : Scope) (store : SmallScheme.Store) : Prop :=
  ∀ name v, store.get? name = some v → scope.Data v

/-- A definition in scope leaves the store in scope. -/
theorem Scope.Store.put {scope : Scope} {store : SmallScheme.Store} (h : scope.Store store)
    (name : String) {v : Value} (hv : scope.Data v) : scope.Store (store.put name v) := by
  intro other w hw
  by_cases hother : other = name
  · rw [hother, SmallScheme.Store.get?_put_self] at hw
    cases hw
    exact hv
  · rw [SmallScheme.Store.get?_put_of_ne store v hother] at hw
    exact h other w hw

/-! ## Runs that only add -/

namespace Run

variable (scope : Scope) {α β : Type}

/-- Where the store is in scope, the run comes to a good value or to a fault, has defined only what
    may be defined, and leaves the store in scope. -/
def Framed (good : α → Prop) (x : Run α) : Prop :=
  ∀ s, scope.Store s.store → ∃ outcome t, x s = result outcome t ∧
    (∀ a, outcome = .ok a → good a) ∧ s.Grows scope.defined t ∧ scope.Store t.store

variable {scope} {good : α → Prop} {good' : β → Prop}

/-- Aloof runs define nothing. -/
theorem Framed.of_aloof {x : Run α} (hx : x.Aloof good) : Framed scope good x := by
  intro s hs
  obtain ⟨outcome, text, new, made, hgood, hxs⟩ := hx s.made
  exact ⟨outcome, _, hxs s rfl, hgood, .grown s text new made, hs⟩

/-- One framed run after the other: the second begins with a store in scope. -/
theorem Framed.bind {x : Run α} {k : α → Run β} (hx : Framed scope good x)
    (hk : ∀ a, good a → Framed scope good' (k a)) : Framed scope good' (x >>= k) := by
  intro s hs
  obtain ⟨outcome, t, hxs, hgood, hgrows, ht⟩ := hx s hs
  rw [bind_apply, hxs]
  cases outcome with
  | error fault => exact ⟨.error fault, t, rfl, nofun, hgrows, ht⟩
  | ok a =>
    obtain ⟨outcome, u, hks, hgood', hgrows', hu⟩ := hk a (hgood a rfl) t ht
    exact ⟨outcome, u, hks, hgood', hgrows.trans hgrows', hu⟩

/-- The guard touches the outcome only. -/
theorem Framed.guardDepth {x : Run α} (hx : Framed scope good x) :
    Framed scope good (guardDepth x) := by
  intro s hs
  obtain ⟨outcome, t, hxs, hgood, hgrows, ht⟩ := hx s hs
  exact ⟨guarded outcome, t, guardDepth_result hxs, fun a ha => hgood a (guarded_eq_ok ha), hgrows,
    ht⟩

/-- The list of files being loaded is not what a frame is about. -/
theorem Framed.whileLoading {x : Run α} (hx : Framed scope good x) (path : Path) :
    Framed scope good (whileLoading path x) := by
  intro s hs
  obtain ⟨outcome, t, hxs, hgood, hgrows, ht⟩ := hx { s with loading := path :: s.loading } hs
  exact ⟨outcome, _, whileLoading_result hxs, hgood, ⟨hgrows.out, hgrows.names, hgrows.bound⟩, ht⟩

/-- What is looked up is in scope, in a frame as in the store. -/
theorem Framed.lookup (room : Nat) (name : String) {env : Env} (henv : scope.Env env) :
    Framed scope scope.Data (Eval.lookup room name env) := by
  intro s hs
  rw [Eval.lookup_apply]
  cases hv : env.lookup? name with
  | some v =>
    refine ⟨.ok v, s, rfl, fun w hw => ?_, .refl s, hs⟩
    cases hw
    exact Scope.data_lookup? env henv hv
  | none =>
    dsimp only
    cases hv : s.store.get? name with
    | some v =>
      refine ⟨.ok v, s, rfl, fun w hw => ?_, .refl s, hs⟩
      cases hw
      exact hs name v hv
    | none => exact Framed.of_aloof (raise_aloof room _) s hs

/-- A definition that may be made. -/
theorem Framed.defining {name : String} (hname : scope.defined name) {v : Value}
    (hv : scope.Data v) : Framed scope scope.Data (Eval.defining name v) := by
  intro s hs
  rw [Eval.defining_apply]
  refine ⟨.ok (.symbol name), _, rfl, fun w hw => ?_, .define hname v _, hs.put name hv⟩
  cases hw
  exact Scope.data_of_parts rfl rfl

/-- A file is opened, or it is refused. -/
theorem Framed.openFile {loader : Loader} {room : Nat} {file : Path} {k : String → Run Value}
    {good : Value → Prop}
    (hk : ∀ source, loader.text file = .ok source → Framed scope good (k source)) :
    Framed scope good (loader.openFile room file k) := by
  have hread : Framed scope good (loader.readFile file k) := by
    unfold Loader.readFile
    cases htext : loader.text file with
    | error fault => exact Framed.of_aloof (Aloof.throw fault)
    | ok source => exact hk source htext
  intro s hs
  rw [Loader.openFile_apply]
  split
  · exact Framed.of_aloof (raise_aloof room _) s hs
  · obtain ⟨outcome, t, hxs, hgood, hgrows, ht⟩ :=
      hread.whileLoading file { s with events := s.events.push (.loading file) } hs
    exact ⟨outcome, t, hxs, hgood, ⟨hgrows.out, hgrows.names, hgrows.bound⟩, ht⟩

end Run

/-- Whatever a program does is framed. -/
theorem Host.relates_framed {scope : Scope} (loader? : Option Loader)
    (hmodules : ∀ loader, loader? = some loader → scope.Modules loader) :
    Relates (m := Run) scope loader? fun _ good _ x' => Run.Framed scope good x' where
  modules := hmodules
  pure ha := Run.Framed.of_aloof (Run.Aloof.pure ha)
  bind hx hk := hx.bind hk
  aloof hx := Run.Framed.of_aloof hx
  lookup room name _ _ henv := Run.Framed.lookup room name henv
  define _ _ hname hv := Run.Framed.defining hname hv
  note _ _ hx := hx
  openFile _ _ _ _ _ _ hk := Run.Framed.openFile hk
  guardDepth hx := hx.guardDepth

/-! ## What a program may define -/

/-- There is a list `(define name …)` in the value. -/
def Value.Defines (v : Value) (name : String) : Prop :=
  ∃ origin rest, .list origin (.symbol "define" :: .symbol name :: rest) ∈ v.parts

/-- There is such a list in a form of a file that a module may be found in. -/
def Loader.Defines (loader : Loader) (name : String) : Prop :=
  ∃ module, ∃ path ∈ loader.candidates module, ∃ source,
    loader.text (loader.absolute path) = .ok source ∧
      ∃ room, ∃ form ∈ (Script.ofText room source).forms, form.Defines name

namespace Eval

/-- The name is that of a list `(define name …)` in the expression, in the body of a closure that
    is in a frame or bound in the store, or in a module. -/
def MayDefine (loader? : Option Loader) (expr : Value) (env : Env) (store : Store)
    (name : String) : Prop :=
  expr.Defines name ∨
  (∃ formals body inner, .closure formals body inner ∈ env.parts ∧ body.Defines name) ∨
  (∃ key v formals body inner, store.get? key = some v ∧ .closure formals body inner ∈ v.parts ∧
    body.Defines name) ∨
  ∃ loader, loader? = some loader ∧ loader.Defines name

/-- The scope of all names and modules, in which only such names may be defined. -/
def definable (loader? : Option Loader) (expr : Value) (env : Env) (store : Store) : Scope :=
  ⟨fun _ => True, MayDefine loader? expr env store, fun _ => True⟩

section Definable

variable {loader? : Option Loader} {expr : Value} {env : Env} {store : Store}

/-- Code is in that scope if all that it defines may be defined. -/
theorem code_definable {v : Value}
    (h : ∀ name, v.Defines name → MayDefine loader? expr env store name) :
    (definable loader? expr env store).Code v :=
  ⟨fun _ _ => trivial, fun origin name rest hmem => h name ⟨origin, rest, hmem⟩,
    fun _ _ _ => trivial⟩

/-- The environment is in that scope, as its closures are where definitions may be. -/
theorem env_definable : (definable loader? expr env store).Env env :=
  fun formals body inner hmem => (code_definable fun _ hname =>
    Or.inr (Or.inl ⟨formals, body, inner, hmem, hname⟩)).body

/-- So is the store, -/
theorem store_definable : (definable loader? expr env store).Store store :=
  fun key v hv formals body inner hmem => (code_definable fun _ hname =>
    Or.inr (Or.inr (Or.inl ⟨key, v, formals, body, inner, hv, hmem, hname⟩))).body

/-- and so are the modules. -/
theorem modules_definable {loader : Loader} (hloader : loader? = some loader) :
    (definable loader? expr env store).Modules loader :=
  fun module _ path hpath source hsource room form hform => code_definable fun _ hname =>
    Or.inr (Or.inr (Or.inr ⟨loader, hloader, module, path, hpath, source, hsource, room, form,
      hform, hname⟩))

end Definable

/-- Evaluation only adds to the state, and defines only what may be defined. -/
theorem evaluate_grows (loader? : Option Loader) (steps room below : Nat) (expr : Value)
    (env : Env) (s : State) :
    ∃ outcome t, evaluate loader? steps room below expr env s = Run.result outcome t ∧
      s.Grows (MayDefine loader? expr env s.store) t := by
  have hexpr : (definable loader? expr env s.store).Code expr := code_definable fun _ => Or.inl
  have hframed := (Host.relates_framed loader? fun _ => modules_definable).evaluate
    steps room below hexpr.body env_definable
  obtain ⟨outcome, t, hs, -, hgrows, -⟩ := hframed s store_definable
  exact ⟨outcome, t, hs, hgrows⟩

/-- What a program does stays, and it binds only what it defines.  However the evaluation of an
    expression ends, be it in a value, with the quit signal, in an error or at a limit: the output
    before it is the beginning of the output after it; the names that were defined are the first of
    those defined after it, in the same order; and a name with another binding than before is that
    of a list `(define name …)` in the expression, in the body of a closure that was in reach, or
    in a module. -/
theorem evaluate_only_adds (loader? : Option Loader) (steps room below : Nat) (expr : Value)
    (env : Env) (s : State) :
    ∃ outcome t, evaluate loader? steps room below expr env s = Run.result outcome t ∧
      (∃ text, t.out = s.out ++ text) ∧
      s.store.names <+: t.store.names ∧
      ∀ name, t.store.get? name ≠ s.store.get? name → MayDefine loader? expr env s.store name := by
  obtain ⟨outcome, t, hs, hgrows⟩ := evaluate_grows loader? steps room below expr env s
  refine ⟨outcome, t, hs, hgrows.out, hgrows.names, fun name hname => ?_⟩
  exact Classical.byContradiction fun hnot => hname (hgrows.bound name hnot)

end Eval

end SmallScheme
