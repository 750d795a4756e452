/-
  SCOPE: what a piece of code mentions.

  Code is data, but not all data is code.  What a program can look up, define or require is
  written in its expressions, in the bodies of the closures that it gets hold of, and in the
  modules that it loads; the symbols that lie about in lists are never evaluated.  A scope is a
  set of names to look up, one of names to define, and one of modules to require:

  * `Scope.Code` — an expression that mentions nothing else;
  * `Scope.Body` — what closures have for a body: code, or several pieces of code in sequence;
  * `Scope.Data` — a value of which all closures have bodies in scope;
  * `Scope.Env`  — frames that bind such values;
  * `Scope.Form` — a checked form with its parts in scope;
  * `Scope.Modules` — a loader under which the modules in scope hold only code in scope.

  All of them go by the parts of a value (`Value.parts`), so the first section is about those: the
  parts of a part are parts, and letting a value in stamps its parts and adds none.  From this:

  1. The parts of code in scope are in scope, and letting code in changes nothing about it
     (`Code.part`, `Code.stamp`).
  2. What is looked up in an environment in scope is (`data_lookup?`).
  3. The form of code in scope has its parts in scope (`Form.ofExpr?_scope`).

  The sequence that a body of several forms makes is why `Body` is not just `Code`: its `begin` has
  not been written by anyone, and does not have to be in scope.
-/
import SmallScheme.Requirements
import SmallScheme.Proofs.WellFormed

namespace SmallScheme

/-! ## Parts of values -/

/-- Is the value a closure? -/
def Value.isClosure : Value → Bool
  | .closure _ _ _ => true
  | _ => false

/-- A value is one of its own parts. -/
theorem Value.mem_parts (v : Value) : v ∈ v.parts := by
  cases v <;> exact List.mem_cons_self

/-- A part of values is a part of one of them. -/
theorem Value.mem_allParts {u : Value} {vs : List Value} :
    u ∈ Value.allParts vs ↔ ∃ v ∈ vs, u ∈ v.parts := by
  induction vs with
  | nil => simp [Value.allParts]
  | cons v vs ih => simp [Value.allParts, ih]

mutual

/-- The parts of a part are parts. -/
theorem Value.parts_subset {u : Value} : (v : Value) → u ∈ v.parts → u.parts ⊆ v.parts
  | .list origin vs => by
    intro hu
    rw [Value.parts] at hu ⊢
    rcases List.mem_cons.mp hu with rfl | hu
    · rw [Value.parts]
      exact List.Subset.refl _
    · exact List.subset_cons_of_subset _ (Value.allParts_subset vs hu)
  | .dotted origin vs v => by
    intro hu
    rw [Value.parts] at hu ⊢
    rcases List.mem_cons.mp hu with rfl | hu
    · rw [Value.parts]
      exact List.Subset.refl _
    · refine List.subset_cons_of_subset _ ?_
      rcases List.mem_append.mp hu with hu | hu
      · exact List.subset_append_of_subset_left _ (Value.allParts_subset vs hu)
      · exact List.subset_append_of_subset_right _ (Value.parts_subset v hu)
  | .closure formals body env => by
    intro hu
    rw [Value.parts] at hu ⊢
    rcases List.mem_cons.mp hu with rfl | hu
    · rw [Value.parts]
      exact List.Subset.refl _
    · refine List.subset_cons_of_subset _ ?_
      rcases List.mem_append.mp hu with hu | hu
      · exact List.subset_append_of_subset_left _ (Value.parts_subset body hu)
      · exact List.subset_append_of_subset_right _ (Env.parts_subset env hu)
  | .bool _ | .int _ | .str _ | .symbol _ | .primitive _ | .unspecified | .quit => by
    intro hu
    rw [List.mem_singleton.mp hu]
    exact List.Subset.refl _

/-- The parts of a part of one of the values. -/
theorem Value.allParts_subset {u : Value} : (vs : List Value) → u ∈ Value.allParts vs →
    u.parts ⊆ Value.allParts vs
  | [] => fun hu => (nomatch hu)
  | v :: vs => by
    intro hu
    rw [Value.allParts] at hu ⊢
    rcases List.mem_append.mp hu with hu | hu
    · exact List.subset_append_of_subset_left _ (Value.parts_subset v hu)
    · exact List.subset_append_of_subset_right _ (Value.allParts_subset vs hu)

/-- The parts of a part of what a frame binds. -/
theorem Env.parts_subset {u : Value} : (env : Env) → u ∈ env.parts → u.parts ⊆ env.parts
  | .empty => fun hu => (nomatch hu)
  | .frame _ _ values outer => by
    intro hu
    rw [Env.parts] at hu ⊢
    rcases List.mem_append.mp hu with hu | hu
    · exact List.subset_append_of_subset_left _ (Value.allParts_subset values hu)
    · exact List.subset_append_of_subset_right _ (Env.parts_subset outer hu)

end

mutual

/-- A part of a stamped value is a part of the value, stamped. -/
theorem Value.mem_parts_stamp {u : Value} (next : Nat) : (v : Value) →
    u ∈ (v.stamp next).1.parts → ∃ w ∈ v.parts, ∃ n, u = (w.stamp n).1
  | .list origin vs => by
    intro hu
    rcases List.mem_cons.mp hu with rfl | hu
    · exact ⟨_, Value.mem_parts _, next, rfl⟩
    · obtain ⟨w, hw, hn⟩ := Value.mem_allParts_stampAll (next + 1) vs hu
      exact ⟨w, List.mem_cons_of_mem _ hw, hn⟩
  | .dotted origin vs v => by
    intro hu
    rcases List.mem_cons.mp hu with rfl | hu
    · exact ⟨_, Value.mem_parts _, next, rfl⟩
    · rcases List.mem_append.mp hu with hu | hu
      · obtain ⟨w, hw, hn⟩ := Value.mem_allParts_stampAll (next + 1) vs hu
        exact ⟨w, List.mem_cons_of_mem _ (List.mem_append_left _ hw), hn⟩
      · obtain ⟨w, hw, hn⟩ := Value.mem_parts_stamp _ v hu
        exact ⟨w, List.mem_cons_of_mem _ (List.mem_append_right _ hw), hn⟩
  | .closure formals body env => by
    intro hu
    rcases List.mem_cons.mp hu with rfl | hu
    · exact ⟨_, Value.mem_parts _, next, rfl⟩
    · rcases List.mem_append.mp hu with hu | hu
      · obtain ⟨w, hw, hn⟩ := Value.mem_parts_stamp next body hu
        exact ⟨w, List.mem_cons_of_mem _ (List.mem_append_left _ hw), hn⟩
      · obtain ⟨w, hw, hn⟩ := Env.mem_parts_stamp _ env hu
        exact ⟨w, List.mem_cons_of_mem _ (List.mem_append_right _ hw), hn⟩
  | .bool _ | .int _ | .str _ | .symbol _ | .primitive _ | .unspecified | .quit => by
    intro hu
    exact ⟨_, Value.mem_parts _, next, List.mem_singleton.mp hu⟩

/-- A part of stamped values is a stamped part of one of them. -/
theorem Value.mem_allParts_stampAll {u : Value} (next : Nat) : (vs : List Value) →
    u ∈ Value.allParts (Value.stampAll next vs).1 →
      ∃ w ∈ Value.allParts vs, ∃ n, u = (w.stamp n).1
  | [] => fun hu => (nomatch hu)
  | v :: vs => by
    intro hu
    rcases List.mem_append.mp hu with hu | hu
    · obtain ⟨w, hw, hn⟩ := Value.mem_parts_stamp next v hu
      exact ⟨w, List.mem_append_left _ hw, hn⟩
    · obtain ⟨w, hw, hn⟩ := Value.mem_allParts_stampAll _ vs hu
      exact ⟨w, List.mem_append_right _ hw, hn⟩

/-- A part of a stamped environment is a stamped part. -/
theorem Env.mem_parts_stamp {u : Value} (next : Nat) : (env : Env) →
    u ∈ (env.stamp next).1.parts → ∃ w ∈ env.parts, ∃ n, u = (w.stamp n).1
  | .empty => fun hu => (nomatch hu)
  | .frame _ _ values outer => by
    intro hu
    rcases List.mem_append.mp hu with hu | hu
    · obtain ⟨w, hw, hn⟩ := Value.mem_allParts_stampAll (next + 1) values hu
      exact ⟨w, List.mem_append_left _ hw, hn⟩
    · obtain ⟨w, hw, hn⟩ := Env.mem_parts_stamp _ outer hu
      exact ⟨w, List.mem_append_right _ hw, hn⟩

end

/-- A stamp makes no symbol of anything else. -/
theorem Value.stamp_eq_symbol {w : Value} {n : Nat} {name : String}
    (h : .symbol name = (w.stamp n).1) : w = .symbol name := by
  cases w <;> cases h
  rfl

/-- Nor a string. -/
theorem Value.stamp_eq_str {w : Value} {n : Nat} {text : String}
    (h : .str text = (w.stamp n).1) : w = .str text := by
  cases w <;> cases h
  rfl

/-- A stamped list has come of a list, and so has each of its items. -/
theorem Value.stamp_eq_list {w : Value} {n : Nat} {origin : Origin} {vs : List Value}
    (h : .list origin vs = (w.stamp n).1) :
    ∃ origin' ws, w = .list origin' ws ∧ vs = (Value.stampAll (n + 1) ws).1 := by
  cases w <;> cases h
  exact ⟨_, _, rfl, rfl⟩

/-- A stamped list begins with its stamped first item. -/
theorem Value.stampAll_eq_cons {ws : List Value} {n : Nat} {v : Value} {vs : List Value}
    (h : v :: vs = (Value.stampAll n ws).1) :
    ∃ w rest, ws = w :: rest ∧ v = (w.stamp n).1 ∧ ∃ next, vs = (Value.stampAll next rest).1 := by
  cases ws with
  | nil => cases h
  | cons w rest =>
    obtain ⟨hv, hvs⟩ := List.cons.inj h
    exact ⟨w, rest, rfl, hv, _, hvs⟩

/-! ## Scopes -/

/-- Names that may be looked up, names that may be defined, and modules that may be required. -/
structure Scope where
  names : String → Prop
  defined : String → Prop
  modules : String → Prop

namespace Scope

/-- The scope that everything is in. -/
def everything : Scope := ⟨fun _ => True, fun _ => True, fun _ => True⟩

variable (scope : Scope)

/-- The expression mentions only what is in scope: the names of its symbols, what its definitions
    define, and the modules that it requires. -/
structure Code (expr : Value) : Prop where
  names : ∀ name, .symbol name ∈ expr.parts → scope.names name
  defined : ∀ origin name rest,
    .list origin (.symbol "define" :: .symbol name :: rest) ∈ expr.parts → scope.defined name
  modules : ∀ origin name,
    .list origin [.symbol "require", .str name] ∈ expr.parts → scope.modules name

/-- The expression is code in scope, or a sequence of such. -/
def Body (expr : Value) : Prop :=
  ∃ first others, expr = SmallScheme.Form.body first others ∧ scope.Code first ∧
    ∀ other ∈ others, scope.Code other

/-- All closures in the value have bodies in scope. -/
def Data (v : Value) : Prop :=
  ∀ formals body env, .closure formals body env ∈ v.parts → scope.Body body

/-- All closures in the environment have bodies in scope. -/
def Env (env : SmallScheme.Env) : Prop :=
  ∀ formals body inner, .closure formals body inner ∈ env.parts → scope.Body body

/-- The parts of the form are in scope. -/
def Form : SmallScheme.Form → Prop
  | .constant v | .quote v => scope.Data v
  | .identifier name => scope.names name
  | .lambda _ body => scope.Body body
  | .cond clauses otherwise? =>
    (∀ clause ∈ clauses, scope.Code clause.1 ∧ scope.Code clause.2) ∧
      ∀ answer, otherwise? = some answer → scope.Code answer
  | .define name expr => scope.defined name ∧ scope.Code expr
  | .and exprs | .or exprs => ∀ expr ∈ exprs, scope.Code expr
  | .not operand => scope.Code operand
  | .begin first others => scope.Code first ∧ ∀ other ∈ others, scope.Code other
  | .require name => scope.modules name
  | .quit => True
  | .call head exprs => scope.Code head ∧ ∀ expr ∈ exprs, scope.Code expr

/-- The files of the modules in scope hold only code in scope. -/
def Modules (loader : Loader) : Prop :=
  ∀ name, scope.modules name → ∀ path ∈ loader.candidates name, ∀ source,
    loader.text (loader.absolute path) = .ok source →
      ∀ room, ∀ form ∈ (Script.ofText room source).forms, scope.Code form

variable {scope}

/-! ## Code and data -/

/-- A part of code mentions what the code mentions, at most. -/
theorem Code.part {u v : Value} (h : scope.Code v) (hu : u ∈ v.parts) : scope.Code u :=
  have hsub := Value.parts_subset v hu
  ⟨fun name hmem => h.names name (hsub hmem),
    fun origin name rest hmem => h.defined origin name rest (hsub hmem),
    fun origin name hmem => h.modules origin name (hsub hmem)⟩

/-- In particular an item. -/
theorem Code.item {origin : Origin} {u : Value} {vs : List Value}
    (h : scope.Code (.list origin vs)) (hu : u ∈ vs) : scope.Code u :=
  h.part (List.mem_cons_of_mem _ (Value.mem_allParts.mpr ⟨u, hu, u.mem_parts⟩))

/-- Code is a body of a single form. -/
theorem Code.body {v : Value} (h : scope.Code v) : scope.Body v :=
  ⟨v, [], rfl, h, fun _ hmem => (nomatch hmem)⟩

/-- The body of a closure inside code is itself inside. -/
theorem Code.data {v : Value} (h : scope.Code v) : scope.Data v := by
  intro formals body env hmem
  have hbody : body ∈ (Value.closure formals body env).parts :=
    List.mem_cons_of_mem _ (List.mem_append_left _ body.mem_parts)
  exact (h.part (Value.parts_subset v hmem hbody)).body

/-- Everything is in scope there. -/
theorem everything_code (v : Value) : everything.Code v :=
  ⟨fun _ _ => trivial, fun _ _ _ _ => trivial, fun _ _ _ => trivial⟩

/-- Whatever stands for a body. -/
theorem everything_body (v : Value) : everything.Body v := (everything_code v).body

/-- Any value. -/
theorem everything_data (v : Value) : everything.Data v :=
  fun _ body _ _ => everything_body body

/-- Any environment. -/
theorem everything_env (env : SmallScheme.Env) : everything.Env env :=
  fun _ body _ _ => everything_body body

/-- And the files of any loader. -/
theorem everything_modules (loader : Loader) : everything.Modules loader :=
  fun _ _ _ _ _ _ _ form _ => everything_code form

/-- A value without parts, other than a closure. -/
theorem data_of_parts {v : Value} (hparts : v.parts = [v]) (hv : v.isClosure = false) :
    scope.Data v := by
  intro formals body env hmem
  rw [hparts] at hmem
  rw [← List.mem_singleton.mp hmem] at hv
  cases hv

/-- A value that is no closure has the data of what is in it. -/
theorem data_list {origin : Origin} {vs : List Value} :
    scope.Data (.list origin vs) ↔ ∀ v ∈ vs, scope.Data v := by
  constructor
  · intro h v hv formals body env hmem
    exact h formals body env (List.mem_cons_of_mem _ (Value.mem_allParts.mpr ⟨v, hv, hmem⟩))
  · intro h formals body env hmem
    rcases List.mem_cons.mp hmem with heq | hmem
    · cases heq
    · obtain ⟨v, hv, hmem⟩ := Value.mem_allParts.mp hmem
      exact h v hv formals body env hmem

/-- A dotted list has the data of its items and its tail. -/
theorem data_dotted {origin : Origin} {vs : List Value} {tail : Value} :
    scope.Data (.dotted origin vs tail) ↔ (∀ v ∈ vs, scope.Data v) ∧ scope.Data tail := by
  constructor
  · intro h
    refine ⟨fun v hv formals body env hmem => ?_, fun formals body env hmem => ?_⟩
    · exact h formals body env (List.mem_cons_of_mem _
        (List.mem_append_left _ (Value.mem_allParts.mpr ⟨v, hv, hmem⟩)))
    · exact h formals body env (List.mem_cons_of_mem _ (List.mem_append_right _ hmem))
  · rintro ⟨hvs, htail⟩ formals body env hmem
    rcases List.mem_cons.mp hmem with heq | hmem
    · cases heq
    · rcases List.mem_append.mp hmem with hmem | hmem
      · obtain ⟨v, hv, hmem⟩ := Value.mem_allParts.mp hmem
        exact hvs v hv formals body env hmem
      · exact htail formals body env hmem

/-- What a body of several forms has inside, one of the forms has inside, the list itself and its
    first symbol apart. -/
theorem Body.data {v : Value} (h : scope.Body v) : scope.Data v := by
  obtain ⟨first, others, rfl, hfirst, hothers⟩ := h
  cases others with
  | nil => exact hfirst.data
  | cons next others =>
    refine data_list.mpr fun v hv => ?_
    rcases List.mem_cons.mp hv with rfl | hv
    · exact data_of_parts rfl rfl
    · rcases List.mem_cons.mp hv with rfl | hv
      · exact hfirst.data
      · exact (hothers v hv).data

/-- A closure has its body and the data in its environment. -/
theorem data_closure {formals : List String} {body : Value} {env : SmallScheme.Env} :
    scope.Data (.closure formals body env) ↔ scope.Body body ∧ scope.Env env := by
  constructor
  · intro h
    refine ⟨h formals body env (Value.mem_parts _), fun formals body inner hmem => ?_⟩
    exact h formals body inner (List.mem_cons_of_mem _ (List.mem_append_right _ hmem))
  · rintro ⟨hbody, henv⟩ formals' body' env' hmem
    -- the closure itself, or one inside its body or its environment
    rcases List.mem_cons.mp hmem with heq | hmem
    · cases heq
      exact hbody
    · rcases List.mem_append.mp hmem with hmem | hmem
      · exact hbody.data formals' body' env' hmem
      · exact henv formals' body' env' hmem

/-- A frame has the data of its values, besides what is further out. -/
theorem env_frame {origin : Origin} {names : List String} {values : List Value}
    {outer : SmallScheme.Env} :
    scope.Env (.frame origin names values outer) ↔
      (∀ v ∈ values, scope.Data v) ∧ scope.Env outer := by
  constructor
  · intro h
    refine ⟨fun v hv formals body env hmem => ?_, fun formals body env hmem => ?_⟩
    · exact h formals body env (List.mem_append_left _ (Value.mem_allParts.mpr ⟨v, hv, hmem⟩))
    · exact h formals body env (List.mem_append_right _ hmem)
  · rintro ⟨hvalues, houter⟩ formals body env hmem
    rcases List.mem_append.mp hmem with hmem | hmem
    · obtain ⟨v, hv, hmem⟩ := Value.mem_allParts.mp hmem
      exact hvalues v hv formals body env hmem
    · exact houter formals body env hmem

/-- There is nothing in the empty environment. -/
theorem env_empty : scope.Env .empty := fun _ _ _ hmem => nomatch hmem

/-! ## Looking up and letting in -/

/-- What one frame binds. -/
theorem data_find? {name : String} {v : Value} : (names : List String) → (values : List Value) →
    (∀ v ∈ values, scope.Data v) → SmallScheme.Env.find? name names values = some v → scope.Data v
  | n :: names, w :: values => by
    intro hvalues hv
    obtain ⟨hw, hvalues⟩ := List.forall_mem_cons.mp hvalues
    rw [SmallScheme.Env.find?] at hv
    split at hv
    · cases hv
      exact hw
    · exact data_find? names values hvalues hv
  | [], _ => fun _ hv => (nomatch hv)
  | _ :: _, [] => fun _ hv => (nomatch hv)

/-- What an environment in scope binds is in scope. -/
theorem data_lookup? {name : String} {v : Value} (env : SmallScheme.Env) (h : scope.Env env)
    (hv : env.lookup? name = some v) : scope.Data v := by
  induction env using SmallScheme.Env.lookup?.induct name with
  | case1 => cases hv
  | case2 origin names values outer w hw =>
    rw [SmallScheme.Env.lookup?, hw] at hv
    cases hv
    exact data_find? names values (env_frame.mp h).1 hw
  | case3 origin names values outer hnone ih =>
    rw [SmallScheme.Env.lookup?, hnone] at hv
    exact ih (env_frame.mp h).2 hv

/-- Code that is let in mentions what it mentioned before. -/
theorem Code.stamp {v : Value} (h : scope.Code v) (next : Nat) : scope.Code (v.stamp next).1 := by
  refine ⟨fun name hmem => ?_, fun origin name rest hmem => ?_, fun origin name hmem => ?_⟩
  · obtain ⟨w, hw, n, heq⟩ := Value.mem_parts_stamp next v hmem
    -- stamping gives numbers to the lists, and what it was before can be seen from what it is
    rw [Value.stamp_eq_symbol heq] at hw
    exact h.names name hw
  · obtain ⟨w, hw, n, heq⟩ := Value.mem_parts_stamp next v hmem
    -- a list that looks like a definition was one before it was stamped
    obtain ⟨origin', ws, rfl, hws⟩ := Value.stamp_eq_list heq
    obtain ⟨w₁, ws, rfl, h₁, _, hws⟩ := Value.stampAll_eq_cons hws
    obtain ⟨w₂, ws, rfl, h₂, _, hws⟩ := Value.stampAll_eq_cons hws
    rw [Value.stamp_eq_symbol h₁, Value.stamp_eq_symbol h₂] at hw
    exact h.defined origin' name ws hw
  · obtain ⟨w, hw, n, heq⟩ := Value.mem_parts_stamp next v hmem
    obtain ⟨origin', ws, rfl, hws⟩ := Value.stamp_eq_list heq
    obtain ⟨w₁, ws, rfl, h₁, _, hws⟩ := Value.stampAll_eq_cons hws
    obtain ⟨w₂, ws, rfl, h₂, _, hws⟩ := Value.stampAll_eq_cons hws
    cases ws with
    | nil =>
      rw [Value.stamp_eq_symbol h₁, Value.stamp_eq_str h₂] at hw
      exact h.modules origin' name hw
    | cons w₃ ws => cases hws

end Scope

/-! ## Forms -/

/-- The clauses that are found in code in scope. -/
theorem Form.clauses?_scope {scope : Scope} : (vs : List Value) → (∀ v ∈ vs, scope.Code v) →
    ∀ clauses otherwise?, Form.clauses? vs = .ok (clauses, otherwise?) →
      scope.Form (.cond clauses otherwise?)
  | [] => by
    intro _ clauses otherwise? h
    cases h
    exact ⟨fun _ hmem => (nomatch hmem), fun _ h => (nomatch h)⟩
  | clause :: rest => by
    intro hvs clauses otherwise? h
    obtain ⟨hclause, hrest⟩ := List.forall_mem_cons.mp hvs
    unfold Form.clauses? at h
    split at h
    · split at h
      · cases h
        refine ⟨fun _ hmem => (nomatch hmem), fun answer h => ?_⟩
        cases h
        exact hclause.item (List.mem_cons_of_mem _ List.mem_cons_self)
      · cases h
    · split at h
      -- a clause with a question and an answer, in front of the others
      · next hok =>
        cases h
        have ih := Form.clauses?_scope rest hrest _ _ hok
        refine ⟨fun c hc => ?_, ih.2⟩
        rcases List.mem_cons.mp hc with rfl | hc
        · exact ⟨hclause.item List.mem_cons_self,
            hclause.item (List.mem_cons_of_mem _ List.mem_cons_self)⟩
        · exact ih.1 c hc
      · cases h
    · cases h

/-- The keyword that begins a list tells its name. -/
theorem Value.keyword?_name {head : Value} {keyword : Keyword}
    (h : Value.keyword? [head] = some keyword) : head = .symbol keyword.name := by
  cases head with
  | symbol name =>
    replace h : Keyword.ofName? name = some keyword := h
    unfold Keyword.ofName? at h
    split at h <;> cases h <;> rfl
  | _ => cases h

section Special

variable {scope : Scope}

/-- A special form of code in scope is in scope. -/
theorem Form.special?_scope {origin : Origin} {keyword : Keyword} {vs : List Value} {form : Form}
    (h : scope.Code (.list origin (.symbol keyword.name :: vs)))
    (hform : Form.special? keyword vs = .ok form) : scope.Form form := by
  have hvs : ∀ v ∈ vs, scope.Code v := fun v hv => h.item (List.mem_cons_of_mem _ hv)
  unfold Form.special? at hform
  split at hform
  case h_1 datum =>
    cases hform
    -- what is quoted is data, and only its names count
    exact (hvs datum List.mem_cons_self).data
  case h_3 params first others =>
    split at hform
    · cases hform
      obtain ⟨-, hbody⟩ := List.forall_mem_cons.mp hvs
      obtain ⟨hfirst, hothers⟩ := List.forall_mem_cons.mp hbody
      exact ⟨first, others, rfl, hfirst, hothers⟩
    · cases hform
  case h_5 clauses =>
    split at hform
    · next hok =>
      cases hform
      exact Form.clauses?_scope _ hvs _ _ hok
    · cases hform
  case h_6 name expr =>
    split at hform
    · cases hform
    · cases hform
      -- the list itself is the definition that the scope knows of
      exact ⟨h.defined origin name [expr] (Value.mem_parts _),
        hvs expr (List.mem_cons_of_mem _ List.mem_cons_self)⟩
  case h_9 | h_10 =>
    cases hform
    exact hvs
  case h_11 operand =>
    cases hform
    exact hvs operand List.mem_cons_self
  case h_13 first others =>
    cases hform
    exact List.forall_mem_cons.mp hvs
  case h_15 name =>
    cases hform
    exact h.modules origin name (Value.mem_parts _)
  case h_18 =>
    cases hform
    trivial
  all_goals cases hform

/-- The form of a body in scope is in scope. -/
theorem Form.ofExpr?_scope {expr : Value} {form : Form} (h : scope.Body expr)
    (hform : Form.ofExpr? expr = .ok form) : scope.Form form := by
  obtain ⟨first, others, rfl, hfirst, hothers⟩ := h
  cases others with
  | cons next others =>
    -- the sequence that has been made of several forms
    cases hform
    exact ⟨hfirst, hothers⟩
  | nil =>
    replace hform : Form.ofExpr? first = .ok form := hform
    unfold Form.ofExpr? at hform
    split at hform
    case h_1 | h_2 | h_3 =>
      cases hform
      exact hfirst.data
    case h_4 name =>
      cases hform
      split
      · exact Scope.data_of_parts rfl rfl
      · exact hfirst.names name (Value.mem_parts _)
    case h_6 head operands =>
      split at hform
      · next hkeyword =>
        rw [Value.keyword?_name hkeyword] at hfirst
        exact Form.special?_scope hfirst hform
      · cases hform
        exact ⟨hfirst.item List.mem_cons_self,
          fun expr hexpr => hfirst.item (List.mem_cons_of_mem _ hexpr)⟩
    all_goals cases hform

end Special

end SmallScheme
