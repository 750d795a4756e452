/-
  EXECUTION of code that is known.

  What a piece of code comes to can be told from what its parts come to, without a run at hand.

  1. `Run.Comes s act good` says of a run in any room what it comes to where there is enough of it:
     an outcome of which `good` holds.  How much room is enough is not said, so that it does not
     have to be counted; runs one after another take the larger of two rooms (`Comes.bind`).

  2. `Eval.Ends` says this of an expression, for the reference evaluator, and `Eval.Arrive` of
     operands.  There is one rule for each construct that the code of the bundled library is made
     of: atoms and quoted data, variables, calls of primitives and of defined functions, and the
     clauses of a `cond`.  A rule takes a fact about each part to a fact about the whole, so a
     proof about a function goes through its text from the outside in, and the induction is on the
     data, where it belongs.

  3. `Eval.ComesTo` says it of the evaluator itself.  In more steps and more room it comes to the
     same outcome, and in less either to the same or to a limit (`Ends.comesTo`); and there is
     only one outcome that it can come to (`ComesTo.both`).

  All this is about code that has no effect: of the state only what has been made may change.
-/
import SmallScheme.Proofs.Aloof
import SmallScheme.Proofs.Host
import SmallScheme.Proofs.TailCall

namespace SmallScheme

/-! ## Runs -/

namespace Run

variable {α β : Type} {s : State}

/-- Whatever has been made before, in enough room the run comes from `s` to an outcome of which
    `good` holds, and it changes nothing of the state but what has been made. -/
def Comes (s : State) (act : Nat → Run α) (good : Except Fault α → Prop) : Prop :=
  ∀ made, ∃ outcome made', good outcome ∧ ∃ enough, ∀ room, enough ≤ room →
    act room { s with made := made } = result outcome { s with made := made' }

variable {act : Nat → Run α} {good : Except Fault α → Prop}

/-- What is good may be taken more widely. -/
theorem Comes.mono {good' : Except Fault α → Prop} (h : Comes s act good)
    (hgood : ∀ outcome, good outcome → good' outcome) : Comes s act good' := by
  intro made
  obtain ⟨outcome, made', hout, henough⟩ := h made
  exact ⟨outcome, made', hgood outcome hout, henough⟩

/-- A run that changes nothing. -/
theorem Comes.still {outcome : Except Fault α} (h : good outcome) (enough : Nat)
    (hact : ∀ room, enough ≤ room → ∀ t, act room t = result outcome t) : Comes s act good :=
  fun made => ⟨outcome, made, h, enough, fun room hroom => hact room hroom _⟩

/-- A value that is given back. -/
theorem Comes.pure {a : α} (h : good (.ok a)) : Comes s (fun _ => pure a) good :=
  Comes.still h 0 fun _ _ _ => rfl

/-- What is made next has some origin. -/
theorem Comes.fresh : Comes s (fun _ => fresh) fun outcome => ∃ origin, outcome = .ok origin :=
  fun made => ⟨.ok (.made made), made + 1, ⟨_, rfl⟩, 0, fun _ _ => rfl⟩

/-- One run after the other.  A fault of the first one is that of both. -/
theorem Comes.bind {k : Nat → α → Run β} {good' : Except Fault β → Prop} (hact : Comes s act good)
    (hk : ∀ a, good (.ok a) → Comes s (fun room => k room a) good')
    (hfault : ∀ fault, good (.error fault) → good' (.error fault)) :
    Comes s (fun room => act room >>= k room) good' := by
  intro made
  obtain ⟨outcome, made₁, hgood, enough, henough⟩ := hact made
  cases outcome with
  | error fault =>
    refine ⟨.error fault, made₁, hfault fault hgood, enough, fun room hroom => ?_⟩
    show (act room >>= k room) _ = _
    rw [bind_apply, henough room hroom]
    rfl
  | ok a =>
    obtain ⟨outcome, made₂, hgood', enough', henough'⟩ := hk a hgood made₁
    -- where there is enough for both, there is enough for each
    refine ⟨outcome, made₂, hgood', max enough enough', fun room hroom => ?_⟩
    have hfirst : enough ≤ room := by omega
    have hsecond : enough' ≤ room := by omega
    show (act room >>= k room) _ = _
    rw [bind_apply, henough room hfirst]
    exact henough' room hsecond

/-- A run that makes something new first. -/
theorem Comes.bind_fresh {k : Nat → Origin → Run α}
    (hk : ∀ origin, Comes s (fun room => k room origin) good) :
    Comes s (fun room => Run.fresh >>= k room) good :=
  Comes.fresh.bind (fun origin _ => hk origin) nofun

/-- What a run comes to in less room by so much it comes to. -/
theorem Comes.less (h : Comes s act good) (used : Nat) :
    Comes s (fun room => act (room - used)) good := by
  intro made
  obtain ⟨outcome, made', hgood, enough, henough⟩ := h made
  exact ⟨outcome, made', hgood, enough + used, fun room hroom => henough _ (by omega)⟩

/-- It is enough to look at rooms with some room in them. -/
theorem Comes.of_succ (h : Comes s (fun room => act (room + 1)) good) : Comes s act good := by
  intro made
  obtain ⟨outcome, made', hgood, enough, henough⟩ := h made
  refine ⟨outcome, made', hgood, enough + 1, fun room hroom => ?_⟩
  obtain ⟨room, rfl⟩ : ∃ small, room = small + 1 := ⟨room - 1, by omega⟩
  exact henough room (by omega)

/-- In one more room, too. -/
theorem Comes.succ (h : Comes s act good) : Comes s (fun room => act (room + 1)) good := by
  intro made
  obtain ⟨outcome, made', hgood, enough, henough⟩ := h made
  exact ⟨outcome, made', hgood, enough, fun room hroom => henough _ (by omega)⟩

/-- If more room does not change what the run does, all that it comes to without being stopped
    by a limit is this outcome. -/
theorem Comes.settled_eq (hact : Roomy act) (h : Comes s act good) (made : Nat) :
    ∃ outcome made', good outcome ∧ ∀ room, Settled (act room { s with made := made }) →
      act room { s with made := made } = result outcome { s with made := made' } := by
  obtain ⟨outcome, made', hgood, enough, henough⟩ := h made
  refine ⟨outcome, made', hgood, fun room hsettled => ?_⟩
  have hmore := hact room (max room enough) (by omega) _ hsettled
  rw [← hmore]
  exact henough _ (by omega)

end Run

/-! ## Expressions -/

/-- The variable has this value. -/
structure Env.Has (env : Env) (x : String) (v : Value) : Prop where
  primitive : Primitive.ofName? x = none
  lookup : env.lookup? x = some v

namespace Eval

/-- The way of the reference evaluator in so much room and one more. -/
def inRoom (loader? : Option Loader) (room : Nat) : Way Run Value :=
  Way.atOnce loader? room (direct loader? room)

variable (loader? : Option Loader) (s : State)

/-- Where there is enough room, the expression comes to an outcome of which `good` holds, and
    evaluating it changes nothing of `s` but what has been made. -/
def Ends (expr : Value) (env : Env) (good : Except Fault Value → Prop) : Prop :=
  Run.Comes s (fun room => direct loader? room expr env) good

/-- The same of operands: none of them comes to the quit signal, and the outcome is that of all. -/
def Arrive (exprs : List Value) (env : Env) (good : Except Fault (List Value) → Prop) : Prop :=
  Run.Comes s (fun room => (inRoom loader? room).operands env exprs)
    fun outcome => ∃ outcome', outcome = outcome'.map some ∧ good outcome'

variable {loader? s} {env : Env} {good : Except Fault Value → Prop}

/-- The reference evaluator gives a value as it is. -/
theorem settle_inRoom (room : Nat) (x : Run Value) : (inRoom loader? room).settle x = x :=
  bind_pure x

/-- What an expression comes to is what its form comes to. -/
theorem Ends.of_form {expr : Value} {form : Form} (hform : Form.ofExpr? expr = .ok form)
    (h : Run.Comes s (fun room => (inRoom loader? room).form env form) good) :
    Ends loader? s expr env good := by
  refine Run.Comes.of_succ ?_
  have heval : ∀ room, direct loader? (room + 1) expr env
      = (inRoom loader? room).form env form := by
    intro room
    rw [direct, Way.eval, hform]
    rfl
  simp only [heval]
  exact h

/-- What is good may be taken more widely. -/
theorem Ends.mono {expr : Value} {good' : Except Fault Value → Prop}
    (h : Ends loader? s expr env good) (hgood : ∀ outcome, good outcome → good' outcome) :
    Ends loader? s expr env good' :=
  Run.Comes.mono h hgood

/-! ### Atoms and quoted data -/

/-- A constant is its own value. -/
theorem Ends.constant {expr v : Value} (hform : Form.ofExpr? expr = .ok (.constant v))
    (h : good (.ok v)) : Ends loader? s expr env good :=
  Ends.of_form hform (Run.Comes.pure h)

/-- A quoted datum. -/
theorem Ends.quote (origin : Origin) {datum : Value} (h : good (.ok datum)) :
    Ends loader? s (.list origin [.symbol "quote", datum]) env good :=
  have hform : Form.ofExpr? (.list origin [.symbol "quote", datum]) = .ok (.quote datum) := rfl
  Ends.of_form hform (Run.Comes.pure h)

/-- What is looked up without being found in vain. -/
theorem Ends.identifier {name : String} {v : Value} (hname : Primitive.ofName? name = none)
    (hlookup : ∀ room t, t.store = s.store → lookup room name env t = .ok v t)
    (h : good (.ok v)) : Ends loader? s (.symbol name) env good := by
  have hform : Form.ofExpr? (.symbol name) = .ok (.identifier name) := by
    rw [Form.ofExpr?, hname]
    rfl
  refine Ends.of_form hform fun made => ⟨.ok v, made, h, 0, fun room _ => ?_⟩
  show (inRoom loader? room).settle (lookup (room + 1) name env) _ = _
  rw [settle_inRoom]
  exact hlookup (room + 1) _ rfl

/-- A name that a frame binds. -/
theorem Ends.bound {name : String} {v : Value} (hname : Primitive.ofName? name = none)
    (henv : env.lookup? name = some v) (h : good (.ok v)) :
    Ends loader? s (.symbol name) env good := by
  refine Ends.identifier hname (fun room t _ => ?_) h
  rw [lookup_apply, henv]

/-- A name that only the store binds. -/
theorem Ends.stored {name : String} {v : Value} (hname : Primitive.ofName? name = none)
    (henv : env.lookup? name = none) (hstore : s.store.get? name = some v) (h : good (.ok v)) :
    Ends loader? s (.symbol name) env good := by
  refine Ends.identifier hname (fun room t ht => ?_) h
  rw [lookup_apply, henv, ht, hstore]

/-! ### Values -/

/-- The expression comes to a value of which `P` holds, and not to the quit signal. -/
def Yields (loader? : Option Loader) (s : State) (expr : Value) (env : Env) (P : Value → Prop) :
    Prop :=
  Ends loader? s expr env fun outcome => ∃ v, outcome = .ok v ∧ v ≠ .quit ∧ P v

/-- The expression comes to one value. -/
theorem Ends.yields {expr v : Value} (h : Ends loader? s expr env (· = .ok v)) (hv : v ≠ .quit) :
    Yields loader? s expr env (· = v) :=
  h.mono fun _ hout => ⟨v, hout, hv, rfl⟩

/-- What holds of the value may be taken more widely. -/
theorem Yields.mono {expr : Value} {P Q : Value → Prop} (h : Yields loader? s expr env P)
    (hPQ : ∀ v, P v → Q v) : Yields loader? s expr env Q :=
  Ends.mono h fun _ ⟨v, hout, hv, hP⟩ => ⟨v, hout, hv, hPQ v hP⟩

/-- An expression that comes to a value comes to an outcome. -/
theorem Yields.ends {expr : Value} {P : Value → Prop} (h : Yields loader? s expr env P)
    (hP : ∀ v, P v → good (.ok v)) : Ends loader? s expr env good := by
  refine Ends.mono h ?_
  rintro _ ⟨v, rfl, -, hv⟩
  exact hP v hv

/-- A variable comes to its value. -/
theorem Ends.variable {x : String} {v : Value} (h : env.Has x v) :
    Ends loader? s (.symbol x) env (· = .ok v) :=
  Ends.bound h.primitive h.lookup rfl

/-- In particular as an operand. -/
theorem Yields.variable {x : String} {v : Value} (h : env.Has x v) (hv : v ≠ .quit) :
    Yields loader? s (.symbol x) env (· = v) :=
  Ends.yields (Ends.variable h) hv

/-! ### Operands -/

/-- No operands. -/
theorem Arrive.nil {good : Except Fault (List Value) → Prop} (h : good (.ok [])) :
    Arrive loader? s [] env good :=
  Run.Comes.pure ⟨.ok [], rfl, h⟩

/-- The first operand, and then the others. -/
theorem Arrive.cons {expr : Value} {exprs : List Value} {good' : Except Fault (List Value) → Prop}
    (hexpr : Ends loader? s expr env good)
    (hexprs : ∀ v, good (.ok v) → v ≠ .quit ∧
      Arrive loader? s exprs env fun outcome => good' (outcome.map (v :: ·)))
    (hfault : ∀ fault, good (.error fault) → good' (.error fault)) :
    Arrive loader? s (expr :: exprs) env good' := by
  refine Run.Comes.bind hexpr (fun v hv => ?_) fun fault h => ⟨.error fault, rfl, hfault fault h⟩
  obtain ⟨hquit, harrive⟩ := hexprs v hv
  cases v with
  -- no operand is a quit here, so all of them are evaluated
  | quit => exact absurd rfl hquit
  | _ =>
    refine Run.Comes.bind harrive ?_ ?_
    · rintro vs? ⟨outcome, hsome, hgood⟩
      cases outcome with
      | error fault => cases hsome
      | ok vs =>
        cases hsome
        exact Run.Comes.pure ⟨.ok _, rfl, hgood⟩
    · rintro fault ⟨outcome, herror, hgood⟩
      cases outcome with
      | error fault' =>
        cases herror
        exact ⟨.error _, rfl, hgood⟩
      | ok vs => cases herror

/-- Operands that all come to values. -/
theorem Arrive.value {expr : Value} {exprs : List Value} {P : Value → Prop}
    {good : Except Fault (List Value) → Prop} (hexpr : Yields loader? s expr env P)
    (hexprs : ∀ v, P v → Arrive loader? s exprs env fun outcome => good (outcome.map (v :: ·))) :
    Arrive loader? s (expr :: exprs) env good := by
  refine Arrive.cons hexpr ?_ ?_
  · rintro v ⟨_, hout, hv, hP⟩
    cases hout
    exact ⟨hv, hexprs v hP⟩
  · rintro fault ⟨v, hout, -⟩
    cases hout

/-! ### Calls -/

/-- A call comes to what the function comes to with the values of the operands. -/
theorem Ends.call {origin : Origin} {head f : Value} {exprs : List Value}
    {A : Except Fault (List Value) → Prop} (hhead : Value.keyword? [head] = none)
    (hf : Ends loader? s head env (· = .ok f)) (hquit : f ≠ .quit)
    (hargs : Arrive loader? s exprs env A)
    (hcall : ∀ vs, A (.ok vs) → Run.Comes s (fun room => (inRoom loader? room).call f vs) good)
    (hfault : ∀ fault, A (.error fault) → good (.error fault)) :
    Ends loader? s (.list origin (head :: exprs)) env good := by
  have hform : Form.ofExpr? (.list origin (head :: exprs)) = .ok (.call head exprs) := by
    rw [Form.ofExpr?, hhead]
  refine Ends.of_form hform (Run.Comes.bind hf (fun v hv => ?_) fun fault h => nomatch h)
  cases hv
  cases f with
  | quit => exact absurd rfl hquit
  | _ =>
    refine Run.Comes.bind hargs ?_ ?_
    · rintro vs? ⟨outcome, hsome, hgood⟩
      cases outcome with
      | error fault => cases hsome
      | ok vs =>
        cases hsome
        exact hcall vs hgood
    · rintro fault ⟨outcome, herror, hgood⟩
      cases outcome with
      | error fault' =>
        cases herror
        exact hfault fault hgood
      | ok vs => cases herror

/-- A call of a primitive. -/
theorem Ends.primitive {origin : Origin} {name : String} {p : Primitive} {exprs : List Value}
    {A : Except Fault (List Value) → Prop} (hname : Primitive.ofName? name = some p)
    (hkeyword : Keyword.ofName? name = none) (hargs : Arrive loader? s exprs env A)
    (hcall : ∀ vs, A (.ok vs) → Run.Comes s (fun room => p.apply room vs) good)
    (hfault : ∀ fault, A (.error fault) → good (.error fault)) :
    Ends loader? s (.list origin (.symbol name :: exprs)) env good := by
  have hform : Form.ofExpr? (.symbol name) = .ok (.constant (.primitive name)) := by
    rw [Form.ofExpr?, hname]
    rfl
  refine Ends.call hkeyword (Ends.constant hform rfl) nofun hargs (fun vs hvs => ?_) hfault
  have happly : ∀ room, (inRoom loader? room).call (.primitive name) vs
      = p.apply (room + 1 - Room.primitive) vs := by
    intro room
    show (inRoom loader? room).settle (Primitive.call name (room + 1 - Room.primitive) vs) = _
    rw [settle_inRoom, Primitive.call, hname]
  simp only [happly]
  exact ((hcall vs hvs).less Room.primitive).succ

/-- A primitive of one operand. -/
theorem Ends.unary {origin : Origin} {name : String} (p : Primitive) {arg : Value}
    {P : Value → Prop} (hname : Primitive.ofName? name = some p)
    (hkeyword : Keyword.ofName? name = none) (harg : Yields loader? s arg env P)
    (hcall : ∀ v, P v → Run.Comes s (fun room => p.apply room [v]) good) :
    Ends loader? s (.list origin [.symbol name, arg]) env good := by
  refine Ends.primitive (A := fun outcome => ∃ v, outcome = .ok [v] ∧ P v) hname hkeyword
    (Arrive.value harg fun v hv => Arrive.nil ⟨v, rfl, hv⟩) ?_ ?_
  · rintro _ ⟨v, hout, hv⟩
    cases hout
    exact hcall v hv
  · rintro fault ⟨v, hout, -⟩
    cases hout

/-- A primitive of two operands. -/
theorem Ends.binary {origin : Origin} {name : String} (p : Primitive) {first second : Value}
    {P Q : Value → Prop} (hname : Primitive.ofName? name = some p)
    (hkeyword : Keyword.ofName? name = none) (hfirst : Yields loader? s first env P)
    (hsecond : Yields loader? s second env Q)
    (hcall : ∀ v w, P v → Q w → Run.Comes s (fun room => p.apply room [v, w]) good) :
    Ends loader? s (.list origin [.symbol name, first, second]) env good := by
  refine Ends.primitive (A := fun outcome => ∃ v w, outcome = .ok [v, w] ∧ P v ∧ Q w) hname
    hkeyword ?_ ?_ ?_
  · exact Arrive.value hfirst fun v hv => Arrive.value hsecond fun w hw =>
      Arrive.nil ⟨v, w, rfl, hv, hw⟩
  · rintro _ ⟨v, w, hout, hv, hw⟩
    cases hout
    exact hcall v w hv hw
  · rintro fault ⟨v, w, hout, -⟩
    cases hout

/-- The fault of the first operand is that of the call, -/
theorem Ends.first_fault {origin : Origin} {name : String} {p : Primitive} {first : Value}
    {exprs : List Value} {fault : Fault} (hname : Primitive.ofName? name = some p)
    (hkeyword : Keyword.ofName? name = none)
    (hfirst : Ends loader? s first env (· = .error fault)) :
    Ends loader? s (.list origin (.symbol name :: first :: exprs)) env (· = .error fault) := by
  refine Ends.primitive (A := (· = .error fault)) hname hkeyword
    (Arrive.cons hfirst nofun fun fault' h => ?_) nofun fun fault' h => ?_
  · cases h
    rfl
  · cases h
    rfl

/-- and so is that of the second one, if the first comes to a value. -/
theorem Ends.second_fault {origin : Origin} {name : String} {p : Primitive}
    {first second : Value} {exprs : List Value} {fault : Fault} {P : Value → Prop}
    (hname : Primitive.ofName? name = some p) (hkeyword : Keyword.ofName? name = none)
    (hfirst : Yields loader? s first env P)
    (hsecond : Ends loader? s second env (· = .error fault)) :
    Ends loader? s (.list origin (.symbol name :: first :: second :: exprs)) env
      (· = .error fault) := by
  refine Ends.primitive (A := (· = .error fault)) hname hkeyword
    (Arrive.value hfirst fun v _ => Arrive.cons hsecond nofun fun fault' h => ?_) nofun
    fun fault' h => ?_
  · cases h
    rfl
  · cases h
    rfl

/-- A call of a function that is defined in the store. -/
theorem Ends.function {origin : Origin} {name : String} {formals : List String} {body : Value}
    {exprs : List Value} {A : Except Fault (List Value) → Prop}
    (hname : Primitive.ofName? name = none) (hkeyword : Keyword.ofName? name = none)
    (henv : env.lookup? name = none)
    (hstore : s.store.get? name = some (.closure formals body .empty))
    (hargs : Arrive loader? s exprs env A)
    (hbody : ∀ vs, A (.ok vs) → vs.length = formals.length ∧
      ∀ origin, Ends loader? s body (.frame origin formals vs .empty) good)
    (hfault : ∀ fault, A (.error fault) → good (.error fault)) :
    Ends loader? s (.list origin (.symbol name :: exprs)) env good := by
  refine Ends.call hkeyword (Ends.stored hname henv hstore rfl) nofun hargs (fun vs hvs => ?_)
    hfault
  obtain ⟨hlength, hends⟩ := hbody vs hvs
  have hcall : ∀ room, (inRoom loader? room).call (.closure formals body .empty) vs
      = Run.fresh >>= fun origin => direct loader? room body (.frame origin formals vs .empty) := by
    intro room
    rw [Way.call, if_pos hlength]
    simp only [Env.bind?, if_pos hlength.symm]
    rfl
  simp only [hcall]
  exact Run.Comes.bind_fresh hends

/-! ### Choices -/

/-- What is left of a `cond` comes to an outcome of which `good` holds. -/
def Chooses (loader? : Option Loader) (s : State) (clauses : List (Value × Value))
    (otherwise? : Option Value) (env : Env) (good : Except Fault Value → Prop) : Prop :=
  Run.Comes s (fun room => (inRoom loader? room).choice env otherwise? clauses) good

/-- A `cond` is its clauses. -/
theorem Ends.cond {origin : Origin} {items : List Value} {clauses : List (Value × Value)}
    {otherwise? : Option Value} (hclauses : Form.clauses? items = .ok (clauses, otherwise?))
    (h : Chooses loader? s clauses otherwise? env good) :
    Ends loader? s (.list origin (.symbol "cond" :: items)) env good := by
  have hform : Form.ofExpr? (.list origin (.symbol "cond" :: items))
      = .ok (.cond clauses otherwise?) := by
    show Form.special? .cond items = _
    rw [Form.special?, hclauses]
  exact Ends.of_form hform h

/-- When all questions have been asked, there is the answer of `else`. -/
theorem Chooses.otherwise {answer : Value} (h : Ends loader? s answer env good) :
    Chooses loader? s [] (some answer) env good := h

/-- A question that is answered with true or false decides what is left. -/
theorem Chooses.ask {question answer : Value} {clauses : List (Value × Value)}
    {otherwise? : Option Value} (b : Bool)
    (hquestion : Ends loader? s question env (· = .ok (.bool b)))
    (hyes : b = true → Ends loader? s answer env good)
    (hno : b = false → Chooses loader? s clauses otherwise? env good) :
    Chooses loader? s ((question, answer) :: clauses) otherwise? env good := by
  refine Run.Comes.bind hquestion (fun v hv => ?_) fun fault h => nomatch h
  cases hv
  cases b with
  | true => exact hyes rfl
  | false => exact hno rfl

/-! ### Taking a list apart -/

section Lists

variable {x : String} {v answer : Value} {vs : List Value} {origin origin' : Origin}
  {clauses : List (Value × Value)} {otherwise? : Option Value}

/-- Is that the end of the list?  It is. -/
theorem Chooses.at_end (h : env.Has x (.list origin []))
    (hanswer : Ends loader? s answer env good) :
    Chooses loader? s ((.list origin' [.symbol "null?", .symbol x], answer) :: clauses) otherwise?
      env good := by
  have hquestion : Ends loader? s (.list origin' [.symbol "null?", .symbol x]) env
      (· = .ok (.bool true)) := by
    refine Ends.unary .isNull rfl rfl (Yields.variable h nofun) fun v hv => ?_
    subst hv
    exact Run.Comes.pure rfl
  exact Chooses.ask true hquestion (fun _ => hanswer) nofun

/-- Is that the end of the list?  There is an item left. -/
theorem Chooses.before_end (h : env.Has x (.list origin (v :: vs)))
    (hrest : Chooses loader? s clauses otherwise? env good) :
    Chooses loader? s ((.list origin' [.symbol "null?", .symbol x], answer) :: clauses) otherwise?
      env good := by
  have hquestion : Ends loader? s (.list origin' [.symbol "null?", .symbol x]) env
      (· = .ok (.bool false)) := by
    refine Ends.unary .isNull rfl rfl (Yields.variable h nofun) fun v hv => ?_
    subst hv
    exact Run.Comes.pure rfl
  exact Chooses.ask false hquestion nofun fun _ => hrest

/-- The first item of a list that a variable stands for. -/
theorem Ends.car (h : env.Has x (.list origin (v :: vs))) :
    Ends loader? s (.list origin' [.symbol "car", .symbol x]) env (· = .ok v) := by
  refine Ends.unary .car rfl rfl (Yields.variable h nofun) fun v hv => ?_
  subst hv
  exact Run.Comes.pure rfl

/-- The others.  They are a new list, whose origin does not matter. -/
theorem Yields.cdr (h : env.Has x (.list origin (v :: vs))) :
    Yields loader? s (.list origin' [.symbol "cdr", .symbol x]) env
      (fun rest => ∃ origin, rest = .list origin vs) := by
  refine Ends.unary .cdr rfl rfl (Yields.variable h nofun) fun v hv => ?_
  subst hv
  exact Run.Comes.bind_fresh fun origin => Run.Comes.pure ⟨_, rfl, nofun, origin, rfl⟩

end Lists

/-! ## What the evaluator comes to -/

/-- With enough steps and room, the evaluation of the expression comes to an outcome of which
    `good` holds, and it changes nothing of the state but what has been made; with less, it comes
    to the same, or a limit stops it. -/
def ComesTo (loader? : Option Loader) (expr : Value) (env : Env) (s : State)
    (good : Except Fault Value → Prop) : Prop :=
  ∃ outcome made, good outcome ∧
    (∃ enough, ∀ steps room, enough ≤ steps → enough ≤ room →
      evaluate loader? steps room 0 expr env s = Run.result outcome { s with made := made }) ∧
    ∀ steps room below, Run.Settled (evaluate loader? steps room below expr env s) →
      evaluate loader? steps room below expr env s = Run.result outcome { s with made := made }

/-- There is only one outcome that an evaluation comes to. -/
theorem ComesTo.both {expr : Value} {good' : Except Fault Value → Prop}
    (h : ComesTo loader? expr env s good) (h' : ComesTo loader? expr env s good') :
    ∃ outcome, good outcome ∧ good' outcome := by
  obtain ⟨outcome, made, hgood, ⟨enough, henough⟩, -⟩ := h
  obtain ⟨outcome', made', hgood', ⟨enough', henough'⟩, -⟩ := h'
  have hone := henough (enough + enough') (enough + enough') (by omega) (by omega)
  have hother := henough' (enough + enough') (enough + enough') (by omega) (by omega)
  rw [hone] at hother
  have heq : outcome = outcome' := by
    cases outcome <;> cases outcome' <;> cases hother <;> rfl
  subst heq
  exact ⟨outcome, hgood, hgood'⟩

/-- What no limit stops for the reference evaluator, the evaluator comes to. -/
theorem Ends.comesTo {expr : Value} (h : Ends loader? s expr env good)
    (hlimit : ∀ fault, good (.error fault) → fault.isLimit = false) :
    ComesTo loader? expr env s good := by
  obtain ⟨outcome, made, hgood, enough, henough⟩ := h s.made
  have hdirect : direct loader? enough expr env s
      = Run.result outcome { s with made := made } := henough enough (Nat.le_refl _)
  -- the direct evaluator settles, and then the others come to the same
  have hsettled : Run.Settled
      (Mode.direct.run (fun _ _ => pure .unspecified) loader? 0 enough expr env s) := by
    show Run.Settled (direct loader? enough expr env s)
    rw [hdirect]
    cases outcome with
    | ok v => trivial
    | error fault => exact hlimit fault hgood
  refine ⟨outcome, made, hgood, ?_, fun steps room below hsettled' => ?_⟩
  · rw [← hdirect]
    exact Mode.reached hsettled .stepwise
  · rw [evaluate_below] at hsettled' ⊢
    rw [← hdirect]
    exact Mode.settled_eq hsettled .stepwise hsettled'

end Eval

end SmallScheme
