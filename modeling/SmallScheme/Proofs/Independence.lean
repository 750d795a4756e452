/-
  INDEPENDENCE: a program does not see what it does not mention.

  Let two states have the same bindings of some names, and differ in nothing but the rest of their
  stores: in what other names are bound to, and in the order of all of them.  A program that
  mentions no other names, and gets hold of no closure and no module that does, comes to the same
  in both, with the same output.  In the end the stores have again the same bindings of those
  names, and all other bindings are as they were.

  Structure:
    1. Stores that agree on names (`Store.Agree`), and stores that keep all others (`Store.Keeps`).
    2. Runs in two states (`Run.Alike`).  The program is run in both at once, and each part of the
       evaluator is shown to end the same in both.
    3. The two evaluations, by the one induction over the evaluator that all relations share
       (`Host.relates_alike`).

  Only looking up and defining touch the store, and they name what they touch.  So these two are
  the only parts with something to prove; the others are aloof from the store (`Alike.of_aloof`)
  or hand over what their own parts have shown.
-/
import SmallScheme.Proofs.Host

namespace SmallScheme

/-- The scope of names that may be looked up and defined, and modules that may be required. -/
def Scope.ofNames (names modules : String → Prop) : Scope := ⟨names, names, modules⟩

/-- Code with no other symbols is in the scope of names. -/
theorem Scope.code_ofNames {names modules : String → Prop} {expr : Value}
    (hnames : ∀ name, .symbol name ∈ expr.parts → names name)
    (hmodules : ∀ origin name, .list origin [.symbol "require", .str name] ∈ expr.parts →
      modules name) : (Scope.ofNames names modules).Code expr := by
  refine ⟨hnames, fun origin name rest hmem => hnames name ?_, hmodules⟩
  have hitem : .symbol name
      ∈ (Value.list origin (.symbol "define" :: .symbol name :: rest)).parts :=
    List.mem_cons_of_mem _ (Value.mem_allParts.mpr
      ⟨.symbol name, List.mem_cons_of_mem _ List.mem_cons_self, Value.mem_parts _⟩)
  exact Value.parts_subset expr hmem hitem

/-! ## Stores that agree -/

namespace Store

/-- The stores bind the names to the same values, in which all closures have bodies in scope. -/
structure Agree (names modules : String → Prop) (store store' : Store) : Prop where
  bound : ∀ name, names name → store'.get? name = store.get? name
  data : ∀ name v, names name → store.get? name = some v → (Scope.ofNames names modules).Data v

/-- All other names are bound as before. -/
def Keeps (names : String → Prop) (before after : Store) : Prop :=
  ∀ name, ¬ names name → after.get? name = before.get? name

variable {names modules : String → Prop} {store store' : Store}

/-- A store keeps its own bindings. -/
theorem Keeps.refl (store : Store) : Keeps names store store := fun _ _ => rfl

/-- What is kept twice is kept. -/
theorem Keeps.trans {first second third : Store} (h : Keeps names first second)
    (h' : Keeps names second third) : Keeps names first third :=
  fun name hname => (h' name hname).trans (h name hname)

/-- To define one of the names keeps all others. -/
theorem Keeps.put (store : Store) {name : String} (hname : names name) (v : Value) :
    Keeps names store (store.put name v) := by
  intro other hother
  refine get?_put_of_ne store v ?_
  rintro rfl
  exact hother hname

/-- What is defined in both stores is bound in both to the same. -/
theorem Agree.put (h : Agree names modules store store') (name : String) {v : Value}
    (hv : (Scope.ofNames names modules).Data v) :
    Agree names modules (store.put name v) (store'.put name v) := by
  refine ⟨fun other hother => ?_, fun other w hother hw => ?_⟩
  · by_cases heq : other = name
    · rw [heq, get?_put_self, get?_put_self]
    · rw [get?_put_of_ne store' v heq, get?_put_of_ne store v heq]
      exact h.bound other hother
  · by_cases heq : other = name
    · rw [heq, get?_put_self] at hw
      cases hw
      exact hv
    · rw [get?_put_of_ne store v heq] at hw
      exact h.data other w hother hw

/-- A name is defined in both stores or in neither. -/
theorem Agree.contains (h : Agree names modules store store') {name : String} (hname : names name) :
    store'.contains name = store.contains name := by
  rw [Store.contains, Store.contains, h.bound name hname]

end Store

/-! ## Runs in two states -/

namespace Run

variable (names modules : String → Prop) {α β : Type}

/-- The results are of the same outcome, in states that differ in their stores only.  The stores
    agree, and bind all other names as the stores before do. -/
def SameEnd (good : α → Prop) (before before' : Store) (r r' : EStateM.Result Fault State α) :
    Prop :=
  ∃ outcome s store, r = result outcome s ∧ r' = result outcome { s with store := store } ∧
    (∀ a, outcome = .ok a → good a) ∧ s.store.Agree names modules store ∧
    before.Keeps names s.store ∧ before'.Keeps names store

/-- From states that differ in their stores only, where these agree, the runs end the same. -/
def Alike (good : α → Prop) (x x' : Run α) : Prop :=
  ∀ s store, s.store.Agree names modules store →
    SameEnd names modules good s.store store (x s) (x' { s with store := store })

variable {names modules} {good : α → Prop} {good' : β → Prop}

/-- Both runs leave the stores alone. -/
theorem SameEnd.still {s : State} {store before before' : Store}
    (h : s.store.Agree names modules store) (hkeeps : before.Keeps names s.store)
    (hkeeps' : before'.Keeps names store) (outcome : Except Fault α)
    (hgood : ∀ a, outcome = .ok a → good a) :
    SameEnd names modules good before before' (result outcome s)
      (result outcome { s with store := store }) :=
  ⟨outcome, s, store, rfl, rfl, hgood, h, hkeeps, hkeeps'⟩

/-- A run that does not look at the store is alike in both states. -/
theorem Alike.of_aloof {x : Run α} (hx : x.Aloof good) : Alike names modules good x x := by
  intro s store h
  obtain ⟨outcome, text, new, made, hgood, hxs⟩ := hx s.made
  rw [hxs s rfl, hxs { s with store := store } rfl]
  have hgrown : ({ s with store := store } : State).grown text new made
      = { s.grown text new made with store := store } := rfl
  rw [hgrown]
  have hagree : (s.grown text new made).store.Agree names modules store := h
  exact SameEnd.still hagree (.refl _) (.refl _) outcome hgood

/-- One run after the other is alike, if each of them is. -/
theorem Alike.bind {x x' : Run α} {k k' : α → Run β} (hx : Alike names modules good x x')
    (hk : ∀ a, good a → Alike names modules good' (k a) (k' a)) :
    Alike names modules good' (x >>= k) (x' >>= k') := by
  intro s store h
  obtain ⟨outcome, t, store', hxs, hxs', hgood, hagree, hkeeps, hkeeps'⟩ := hx s store h
  rw [bind_apply, bind_apply, hxs, hxs']
  cases outcome with
  | error fault => exact SameEnd.still hagree hkeeps hkeeps' (.error fault) nofun
  | ok a =>
    -- the second runs go on where the first have ended
    obtain ⟨outcome, u, store'', hks, hks', hgood', hagree', hkept, hkept'⟩ :=
      hk a (hgood a rfl) t store' hagree
    exact ⟨outcome, u, store'', hks, hks', hgood', hagree', hkeeps.trans hkept,
      hkeeps'.trans hkept'⟩

/-- A fault is guarded in the same way in both states. -/
theorem Alike.guardDepth {x x' : Run α} (hx : Alike names modules good x x') :
    Alike names modules good (guardDepth x) (Run.guardDepth x') := by
  intro s store h
  obtain ⟨outcome, t, store', hxs, hxs', hgood, hagree, hkeeps, hkeeps'⟩ := hx s store h
  rw [guardDepth_result hxs, guardDepth_result hxs']
  exact SameEnd.still hagree hkeeps hkeeps' (guarded outcome) fun a ha =>
    hgood a (guarded_eq_ok ha)

/-- What is being loaded is the same in both states. -/
theorem Alike.whileLoading {x x' : Run α} (hx : Alike names modules good x x') (path : Path) :
    Alike names modules good (whileLoading path x) (Run.whileLoading path x') := by
  intro s store h
  obtain ⟨outcome, t, store', hxs, hxs', hgood, hagree, hkeeps, hkeeps'⟩ :=
    hx { s with loading := path :: s.loading } store h
  rw [whileLoading_result hxs, whileLoading_result hxs']
  exact ⟨outcome, { t with loading := t.loading.erase path }, store', rfl, rfl, hgood, hagree,
    hkeeps, hkeeps'⟩

/-- The value of a name is the same in both states, for both stores bind it to the same. -/
theorem Alike.lookup (room : Nat) {name : String} (hname : names name) {env : Env}
    (henv : (Scope.ofNames names modules).Env env) :
    Alike names modules (Scope.ofNames names modules).Data (Eval.lookup room name env)
      (Eval.lookup room name env) := by
  intro s store h
  rw [Eval.lookup_apply, Eval.lookup_apply]
  cases hv : env.lookup? name with
  | some v =>
    refine SameEnd.still h (.refl _) (.refl _) (.ok v) fun w hw => ?_
    cases hw
    exact Scope.data_lookup? env henv hv
  | none =>
    -- the store is asked for a name that both stores bind to the same
    dsimp only
    rw [h.bound name hname]
    cases hv : s.store.get? name with
    | some v =>
      refine SameEnd.still h (.refl _) (.refl _) (.ok v) fun w hw => ?_
      cases hw
      exact h.data name v hname hv
    | none => exact Alike.of_aloof (raise_aloof room _) s store h

/-- What is defined is defined in both states. -/
theorem Alike.defining {name : String} (hname : names name) {v : Value}
    (hv : (Scope.ofNames names modules).Data v) :
    Alike names modules (Scope.ofNames names modules).Data (Eval.defining name v)
      (Eval.defining name v) := by
  intro s store h
  rw [Eval.defining_apply, Eval.defining_apply]
  dsimp only
  rw [h.contains hname]
  refine ⟨.ok (.symbol name), _, store.put name v, rfl, rfl, fun w hw => ?_, h.put name hv,
    .put _ hname v, .put _ hname v⟩
  cases hw
  exact Scope.data_of_parts rfl rfl

/-- A file has the same text in both states, and is being loaded in both or in neither. -/
theorem Alike.openFile {k k' : String → Run Value} (loader : Loader) (room : Nat) (file : Path)
    {good : Value → Prop}
    (hk : ∀ source, loader.text file = .ok source →
      Alike names modules good (k source) (k' source)) :
    Alike names modules good (loader.openFile room file k) (loader.openFile room file k') := by
  have hread : Alike names modules good (loader.readFile file k) (loader.readFile file k') := by
    unfold Loader.readFile
    cases htext : loader.text file with
    | error fault => exact Alike.of_aloof (Aloof.throw fault)
    | ok source => exact hk source htext
  intro s store h
  rw [Loader.openFile_apply, Loader.openFile_apply]
  dsimp only
  split
  · exact Alike.of_aloof (raise_aloof room _) s store h
  · exact Alike.whileLoading hread file { s with events := s.events.push (.loading file) } store h

end Run

/-! ## The two evaluations -/

/-- Evaluation does the same in both states. -/
theorem Host.relates_alike {names modules : String → Prop} {loader? : Option Loader}
    (hmodules : ∀ loader, loader? = some loader → (Scope.ofNames names modules).Modules loader) :
    Relates (.ofNames names modules) loader? fun _ => Run.Alike names modules where
  modules := hmodules
  pure ha := Run.Alike.of_aloof (Run.Aloof.pure ha)
  bind hx hk := hx.bind hk
  aloof hx := Run.Alike.of_aloof hx
  lookup room _ _ hname henv := Run.Alike.lookup room hname henv
  define _ _ hname hv := Run.Alike.defining hname hv
  note _ _ hx := hx
  openFile loader room path _ _ _ hk := Run.Alike.openFile loader room (loader.absolute path) hk
  guardDepth hx := hx.guardDepth

/-- What a program does not mention does not matter.  An expression and an environment that
    mention no names but those given, and require no modules but those given, whose files mention
    no others either, are evaluated to the same, be it a value, the quit signal or a fault, and
    with the same output, in any two states that differ in their stores only and have the given
    names bound to the same there.  In the end the names are again bound to the same, and all
    others are bound as they were. -/
theorem Eval.evaluate_independent (names modules : String → Prop) (loader? : Option Loader)
    (hmodules : ∀ loader, loader? = some loader → (Scope.ofNames names modules).Modules loader)
    (steps room below : Nat) {expr : Value} (hexpr : (Scope.ofNames names modules).Code expr)
    {env : Env} (henv : (Scope.ofNames names modules).Env env) (s : State) {store : Store}
    (hstore : s.store.Agree names modules store) :
    ∃ outcome t store',
      evaluate loader? steps room below expr env s = Run.result outcome t ∧
      evaluate loader? steps room below expr env { s with store := store }
        = Run.result outcome { t with store := store' } ∧
      (∀ name, names name → store'.get? name = t.store.get? name) ∧
      (∀ name, ¬ names name → t.store.get? name = s.store.get? name) ∧
      ∀ name, ¬ names name → store'.get? name = store.get? name := by
  have halike := (Host.relates_alike hmodules).evaluate steps room below hexpr.body henv
  rw [Host.evaluate_run] at halike
  obtain ⟨outcome, t, store', hs, ht, -, hagree, hkeeps, hkeeps'⟩ := halike s store hstore
  exact ⟨outcome, t, store', hs, ht, hagree.bound, hkeeps, hkeeps'⟩

/-- `(define x y)`, where `y` is defined, and where `z` is as well. -/
theorem Eval.evaluate_independent_define : ∃ outcome t store',
    evaluate none 5 20 0 (.list .unknown [.symbol "define", .symbol "x", .symbol "y"]) .empty
      { State.initial with store := ⟨[("y", .int 1)]⟩ } = Run.result outcome t ∧
    evaluate none 5 20 0 (.list .unknown [.symbol "define", .symbol "x", .symbol "y"]) .empty
      { State.initial with store := ⟨[("z", .int 2), ("y", .int 1)]⟩ }
        = Run.result outcome { t with store := store' } ∧
    (∀ name, name ∈ ["define", "x", "y"] → store'.get? name = t.store.get? name) ∧
    (∀ name, name ∉ ["define", "x", "y"] →
      t.store.get? name = Store.get? ⟨[("y", .int 1)]⟩ name) ∧
    ∀ name, name ∉ ["define", "x", "y"] →
      store'.get? name = Store.get? ⟨[("z", .int 2), ("y", .int 1)]⟩ name := by
  refine evaluate_independent (fun name => name ∈ ["define", "x", "y"]) (fun _ => False) none
    nofun 5 20 0 ?_ Scope.env_empty { State.initial with store := ⟨[("y", .int 1)]⟩ } ?_
  · refine Scope.code_ofNames (fun name hmem => ?_) fun origin name hmem => ?_
    · simpa [Value.parts, Value.allParts] using hmem
    · simp [Value.parts, Value.allParts] at hmem
  · refine ⟨fun name hname => ?_, fun name v hname hv => ?_⟩
    · have hcases : name = "define" ∨ name = "x" ∨ name = "y" := by simpa using hname
      rcases hcases with rfl | rfl | rfl <;> rfl
    · have hcases : name = "define" ∨ name = "x" ∨ name = "y" := by simpa using hname
      rcases hcases with rfl | rfl | rfl <;> cases hv
      exact Primitive.data_int 1

end SmallScheme
