/-
  TAIL POSITIONS.

  A form hands the evaluation on in two ways.  One of its expressions is left, when all that is
  evaluated before it has let the form go on to it: the chosen answer of a `cond`, the last
  operand of `and` and of `or`, the last form of `begin`.  `Leaves` says so.  Or a closure has been
  called, and its body is left: `Calls`.

  A step of the evaluator replies with a part of the form, or with a body, in just these cases
  (`formStep_eq_part_iff`, `formStep_eq_body_iff`).  Everything else that a form needs the value
  of is evaluated inside of the step.

  Structure:
    1. What is left of a form (`Leaves`), said of the state before and the state in which it is
       left.
    2. A series of expressions.  `and`, `or` and `begin` have the same loop but for the values with
       which it goes on (`Series`), so what they leave is shown once.
    3. A choice, which goes through its clauses in a loop of its own.
    4. Calls: the operator, the operands, and the closure that takes them.
    5. Forms: the two equivalences, by cases on the form.
-/
import SmallScheme.Proofs.Host
import SmallScheme.Proofs.Way

namespace SmallScheme

/-- An error that is raised is no value. -/
theorem Run.raise_ne_ok {α : Type} {room : Nat} {e : Error} {s t : State} {a : α} :
    (Run.raise room e : Run α) s ≠ .ok a t := by
  unfold Run.raise
  cases e.limit? room <;> nofun

namespace Eval

/-! ## What is left of a form -/

/-- The expressions come to values, one after the other, and with each of them it goes on. -/
inductive Passes (ev : Evaluator) (env : Env) (goesOn : Value → Prop) :
    List Value → State → State → Prop where
  | nil {s : State} : Passes ev env goesOn [] s s
  | cons {expr v : Value} {exprs : List Value} {s t u : State}
    (h : ev.run Room.part expr env s = .ok v t) (hv : goesOn v)
    (hs : Passes ev env goesOn exprs t u) : Passes ev env goesOn (expr :: exprs) s u

/-- One expression of the form is left, in tail position. -/
inductive Leaves (ev : Evaluator) (env : Env) : Form → Value → State → State → Prop where
  /-- The answer to the first question that is not answered with false. -/
  | answer {before after : List (Value × Value)} {question answer v : Value}
    {otherwise? : Option Value} {s t u : State}
    (hbefore : Passes ev env (· = .bool false) (before.map Prod.fst) s t)
    (h : ev.run Room.part question env t = .ok v u) (hv : v ≠ .bool false ∧ v ≠ .quit) :
    Leaves ev env (.cond (before ++ (question, answer) :: after) otherwise?) answer s u
  /-- The answer for when all questions are answered with false. -/
  | otherwise {clauses : List (Value × Value)} {answer : Value} {s t : State}
    (h : Passes ev env (· = .bool false) (clauses.map Prod.fst) s t) :
    Leaves ev env (.cond clauses (some answer)) answer s t
  /-- The last operand, when none before it is false. -/
  | and {before : List Value} {last : Value} {s t : State}
    (h : Passes ev env (fun v => v ≠ .bool false ∧ v ≠ .quit) before s t) :
    Leaves ev env (.and (before ++ [last])) last s t
  /-- The last operand, when all before it are false. -/
  | or {before : List Value} {last : Value} {s t : State}
    (h : Passes ev env (· = .bool false) before s t) :
    Leaves ev env (.or (before ++ [last])) last s t
  /-- The last form, when none before it quits. -/
  | begin {first last : Value} {others before : List Value} {s t : State}
    (hforms : first :: others = before ++ [last]) (h : Passes ev env (· ≠ .quit) before s t) :
    Leaves ev env (.begin first others) last s t

/-- The form has called a closure: its body is left, in a new frame. -/
inductive Calls (ev : Evaluator) (env : Env) : Form → Value → Env → State → State → Prop where
  | closure {head body : Value} {exprs args : List Value} {formals : List String} {captured : Env}
    {s t u : State}
    (hhead : ev.run Room.operator head env s = .ok (.closure formals body captured) t)
    (hargs : operands ev env exprs t = .ok (some args) u)
    (hlength : args.length = formals.length) :
    Calls ev env (.call head exprs) body (.frame (.made u.made) formals args captured) s
      { u with made := u.made + 1 }

/-! ## A series of expressions -/

variable {loader? : Option Loader} {ev : Evaluator} {env : Env}

/-- What lets a form go on lets it go on to what comes after, too. -/
theorem Passes.append {goesOn : Value → Prop} {exprs more : List Value} {s t u : State}
    (h : Passes ev env goesOn exprs s t) (hmore : Passes ev env goesOn more t u) :
    Passes ev env goesOn (exprs ++ more) s u := by
  induction h with
  | nil => exact hmore
  | cons h hv _ ih => exact .cons h hv (ih hmore)

/-- A function on expressions that leaves the last one.  Each of the others is evaluated, and its
    value tells whether it goes on with those that follow. -/
structure Series (ev : Evaluator) (env : Env) (goesOn : Value → Prop)
    (f : List Value → Run Reply) : Prop where
  last : ∀ expr, f [expr] = pure (.part expr)
  goes : ∀ expr next others s v t, ev.run Room.part expr env s = .ok v t → goesOn v →
    f (expr :: next :: others) s = f (next :: others) t
  stops : ∀ expr next others s v t, ev.run Room.part expr env s = .ok v t → ¬ goesOn v →
    ∃ w, f (expr :: next :: others) s = .ok (.done w) t
  fails : ∀ expr next others s fault t, ev.run Room.part expr env s = .error fault t →
    f (expr :: next :: others) s = .error fault t

namespace Series

variable {goesOn : Value → Prop} {f : List Value → Run Reply} (hf : Series ev env goesOn f)
include hf

/-- It leaves the last expression, if it goes on after all of the others. -/
theorem of_passes {before : List Value} {last : Value} {s t : State}
    (h : Passes ev env goesOn before s t) : f (before ++ [last]) s = .ok (.part last) t := by
  induction h with
  | nil =>
    rw [List.nil_append, hf.last]
    rfl
  | @cons expr v exprs s t u h hv _ ih =>
    obtain ⟨next, others, hnext⟩ : ∃ next others, exprs ++ [last] = next :: others :=
      List.exists_cons_of_ne_nil (List.append_ne_nil_of_right_ne_nil _ (List.cons_ne_nil _ _))
    rw [List.cons_append, hnext, hf.goes _ _ _ _ _ _ h hv, ← hnext]
    exact ih

/-- It ends with a value or with the last expression, and never with a body. -/
theorem reply {exprs : List Value} (hne : exprs ≠ []) {s t : State} {reply : Reply}
    (h : f exprs s = .ok reply t) : (∃ v, reply = .done v) ∨ ∃ before last,
      reply = .part last ∧ exprs = before ++ [last] ∧ Passes ev env goesOn before s t := by
  induction exprs generalizing s with
  | nil => exact absurd rfl hne
  | cons expr exprs ih =>
    cases exprs with
    | nil =>
      rw [hf.last] at h
      cases h
      exact Or.inr ⟨[], expr, rfl, rfl, .nil⟩
    | cons next others =>
      cases hrun : ev.run Room.part expr env s with
      | error fault u =>
        rw [hf.fails _ _ _ _ _ _ hrun] at h
        cases h
      | ok v u =>
        -- the series goes on to the next expression, or stops with a value
        by_cases hv : goesOn v
        · rw [hf.goes _ _ _ _ _ _ hrun hv] at h
          rcases ih (List.cons_ne_nil _ _) h with hdone | ⟨before, last, hreply, hexprs, hpasses⟩
          · exact Or.inl hdone
          · refine Or.inr ⟨expr :: before, last, hreply, ?_, .cons hrun hv hpasses⟩
            rw [hexprs, List.cons_append]
        · obtain ⟨w, hw⟩ := hf.stops _ _ _ _ _ _ hrun hv
          rw [hw] at h
          cases h
          exact Or.inl ⟨w, rfl⟩

end Series

/-- `and` goes on after all but falsity. -/
theorem conjunction_series :
    Series ev env (fun v => v ≠ .bool false ∧ v ≠ .quit) (conjunction ev env) where
  last _ := rfl
  goes expr next others s v t h hv := by
    rw [conjunction, Run.bind_apply, h]
    · dsimp only
      split
      -- neither false nor a quit, so the next expression follows
      · exact absurd rfl hv.1
      · exact absurd rfl hv.2
      · rfl
    · exact List.cons_ne_nil _ _
  stops expr next others s v t h hv := by
    rw [conjunction, Run.bind_apply, h]
    · dsimp only
      split
      · exact ⟨_, rfl⟩
      · exact ⟨_, rfl⟩
      · next hfalse hquit => exact absurd ⟨hfalse, hquit⟩ hv
    · exact List.cons_ne_nil _ _
  fails expr next others s fault t h := by
    rw [conjunction, Run.bind_apply, h]
    exact List.cons_ne_nil _ _

/-- `or` goes on after falsity alone. -/
theorem disjunction_series : Series ev env (· = .bool false) (disjunction ev env) where
  last _ := rfl
  goes expr next others s v t h hv := by
    rw [disjunction, Run.bind_apply, h, hv]
    exact List.cons_ne_nil _ _
  stops expr next others s v t h hv := by
    rw [disjunction, Run.bind_apply, h]
    · dsimp only
      split
      · exact absurd rfl hv
      · exact ⟨_, rfl⟩
    · exact List.cons_ne_nil _ _
  fails expr next others s fault t h := by
    rw [disjunction, Run.bind_apply, h]
    exact List.cons_ne_nil _ _

/-- The forms of a `begin`, of which there is one at least. -/
def forms (ev : Evaluator) (env : Env) : List Value → Run Reply
  | [] => pure (.done .unspecified)
  | first :: others => sequence ev env first others

/-- `begin` goes on after all but the signal. -/
theorem forms_series : Series ev env (· ≠ .quit) (forms ev env) where
  last _ := rfl
  goes expr next others s v t h hv := by
    rw [forms, sequence, Run.bind_apply, h]
    dsimp only
    split
    · exact absurd rfl hv
    · rfl
  stops expr next others s v t h hv := by
    rw [forms, sequence, Run.bind_apply, h, Classical.not_not.mp hv]
    exact ⟨_, rfl⟩
  fails expr next others s fault t h := by
    rw [forms, sequence, Run.bind_apply, h]

/-! ## A choice -/

/-- What is left of a choice is an answer: that of the first question not answered with false, or
    the one for when there is no such question. -/
theorem choice_of_passes {clauses : List (Value × Value)} {otherwise? : Option Value}
    {before : List (Value × Value)} {s t : State}
    (h : Passes ev env (· = .bool false) (before.map Prod.fst) s t) :
    choice ev env otherwise? (before ++ clauses) s = choice ev env otherwise? clauses t := by
  induction before generalizing s with
  | nil =>
    cases h
    rfl
  | cons clause before ih =>
    cases h with
    | cons h hv hs =>
      rw [List.cons_append, choice, Run.bind_apply, h, hv]
      exact ih hs

/-- A choice ends with a value or with one of the answers, and never with a body. -/
theorem choice_reply {clauses : List (Value × Value)} {otherwise? : Option Value} {s t : State}
    {reply : Reply} (h : choice ev env otherwise? clauses s = .ok reply t) :
    (∃ v, reply = .done v) ∨
      ∃ rest, reply = .part rest ∧ Leaves ev env (.cond clauses otherwise?) rest s t := by
  -- on the clauses that are left, after others that were answered with false
  suffices general : ∀ (before : List (Value × Value)) (r : State),
      Passes ev env (· = .bool false) (before.map Prod.fst) r s → (∃ v, reply = .done v) ∨
        ∃ rest, reply = .part rest ∧ Leaves ev env (.cond (before ++ clauses) otherwise?) rest r t
    from general [] s .nil
  induction clauses generalizing s with
  | nil =>
    intro before r hbefore
    rw [List.append_nil]
    cases otherwise? with
    | none =>
      rw [choice] at h
      exact absurd h Run.raise_ne_ok
    | some answer =>
      cases h
      exact Or.inr ⟨answer, rfl, .otherwise hbefore⟩
  | cons clause clauses ih =>
    intro before r hbefore
    obtain ⟨question, answer⟩ := clause
    rw [choice, Run.bind_apply] at h
    cases hrun : ev.run Room.part question env s with
    | error fault u =>
      rw [hrun] at h
      cases h
    | ok v u =>
      rw [hrun] at h
      dsimp only at h
      split at h
      · have hmore : Passes ev env (· = .bool false) ((before ++ [(question, answer)]).map Prod.fst)
            r u := by
          rw [List.map_append]
          exact hbefore.append (.cons hrun rfl .nil)
        rw [List.append_cons]
        exact ih h _ r hmore
      · cases h
        exact Or.inl ⟨_, rfl⟩
      · next hfalse hquit =>
        cases h
        exact Or.inr ⟨answer, rfl, .answer hbefore hrun ⟨hfalse, hquit⟩⟩

/-! ## Calls -/

/-- A call ends with a value or with the body of the closure that has been called. -/
theorem call_reply {room : Nat} {f : Value} {args : List Value} {s t : State} {reply : Reply}
    (h : call room f args s = .ok reply t) : (∃ v, reply = .done v) ∨
      ∃ formals body captured, f = .closure formals body captured ∧
        args.length = formals.length ∧ t = { s with made := s.made + 1 } ∧
        reply = .body body (.frame (.made s.made) formals args captured) := by
  cases f with
  | closure formals body captured =>
    rw [call] at h
    split at h
    · next hlength =>
      rw [Run.bind_apply] at h
      -- the number of the arguments is right, so the frame can be made
      simp only [Run.fresh, Env.bind?, if_pos hlength.symm] at h
      cases h
      exact Or.inr ⟨formals, body, captured, rfl, hlength, rfl, rfl⟩
    · exact absurd h Run.raise_ne_ok
  | primitive name =>
    rw [call, Run.bind_apply] at h
    split at h
    · cases h
      exact Or.inl ⟨_, rfl⟩
    · cases h
  | _ =>
    rw [call] at h
    · exact absurd h Run.raise_ne_ok
    · intro _ _ _ hclosure
      cases hclosure
    · intro _ hprimitive
      cases hprimitive

/-- A closure with as many arguments as it has parameters leaves its body. -/
theorem call_closure {room : Nat} {formals : List String} {body : Value} {captured : Env}
    {args : List Value} (hlength : args.length = formals.length) (s : State) :
    call room (.closure formals body captured) args s
      = .ok (.body body (.frame (.made s.made) formals args captured))
          { s with made := s.made + 1 } := by
  rw [call, if_pos hlength, Run.bind_apply]
  simp only [Run.fresh, Env.bind?, if_pos hlength.symm]
  rfl

/-! ## Forms -/

/-- A form that needs a value first hands on the quit signal, and goes on with any other. -/
theorem unlessQuit_eq_ok {m : Run Value} {k : Value → Run Reply} {s t : State} {reply : Reply}
    (h : unlessQuit m k s = .ok reply t) : reply = .done .quit ∨
      ∃ v u, m s = .ok v u ∧ v ≠ .quit ∧ k v u = .ok reply t := by
  rw [unlessQuit, Run.bind_apply] at h
  cases hm : m s with
  | error fault u =>
    rw [hm] at h
    cases h
  | ok v u =>
    rw [hm] at h
    dsimp only at h
    split at h
    · cases h
      exact Or.inl rfl
    · next hquit => exact Or.inr ⟨v, u, rfl, hquit, h⟩

/-- What ends with the value of a run ends with a value. -/
theorem done_of_bind {m : Run Value} {s t : State} {reply : Reply}
    (h : (m >>= fun v => pure (.done v)) s = .ok reply t) : ∃ v, reply = .done v := by
  rw [Run.bind_apply] at h
  split at h
  · cases h
    exact ⟨_, rfl⟩
  · cases h

/-- A form ends with a value, or hands the evaluation on to what it leaves or has called. -/
theorem formStep_reply {form : Form} {s t : State} {reply : Reply}
    (h : formStep loader? ev env form s = .ok reply t) : (∃ v, reply = .done v) ∨
      (∃ rest, reply = .part rest ∧ Leaves ev env form rest s t) ∨
      ∃ body inner, reply = .body body inner ∧ Calls ev env form body inner s t := by
  cases form with
  | constant v | quote v | lambda formals body | quit =>
    cases h
    exact Or.inl ⟨_, rfl⟩
  | identifier name => exact Or.inl (done_of_bind h)
  | cond clauses otherwise? =>
    rcases choice_reply h with hdone | hleaves
    · exact Or.inl hdone
    · exact Or.inr (Or.inl hleaves)
  | define name expr =>
    rcases unlessQuit_eq_ok h with hquit | ⟨v, u, -, -, h⟩
    · exact Or.inl ⟨_, hquit⟩
    -- a definition comes to its name, and goes on nowhere
    · have hdefining : (defining name v >>= fun v => pure (.done v)) u = .ok reply t := by
        simp only [defining, bind_assoc, pure_bind]
        exact h
      exact Or.inl (done_of_bind hdefining)
  | and exprs =>
    -- without an expression there is nothing to go on with
    by_cases hne : exprs = []
    · subst hne
      cases h
      exact Or.inl ⟨_, rfl⟩
    · rcases conjunction_series.reply hne h with hdone | ⟨before, last, hreply, rfl, hpasses⟩
      · exact Or.inl hdone
      · exact Or.inr (Or.inl ⟨last, hreply, .and hpasses⟩)
  | or exprs =>
    by_cases hne : exprs = []
    · subst hne
      cases h
      exact Or.inl ⟨_, rfl⟩
    · rcases disjunction_series.reply hne h with hdone | ⟨before, last, hreply, rfl, hpasses⟩
      · exact Or.inl hdone
      · exact Or.inr (Or.inl ⟨last, hreply, .or hpasses⟩)
  | not operand =>
    rcases unlessQuit_eq_ok h with hquit | ⟨v, u, -, -, h⟩
    · exact Or.inl ⟨_, hquit⟩
    · cases h
      exact Or.inl ⟨_, rfl⟩
  | begin first others =>
    have hforms : forms ev env (first :: others) s = .ok reply t := h
    rcases forms_series.reply (List.cons_ne_nil _ _) hforms with
      hdone | ⟨before, last, hreply, hsplit, hpasses⟩
    · exact Or.inl hdone
    · exact Or.inr (Or.inl ⟨last, hreply, .begin hsplit hpasses⟩)
  | require name =>
    rcases unlessQuit_eq_ok h with hquit | ⟨v, u, -, -, h⟩
    · exact Or.inl ⟨_, hquit⟩
    · cases h
      exact Or.inl ⟨_, rfl⟩
  | call head exprs =>
    rcases unlessQuit_eq_ok h with hquit | ⟨f, u, hhead, -, h⟩
    · exact Or.inl ⟨_, hquit⟩
    · rw [Run.bind_apply] at h
      -- operator and operands are evaluated by now, so what remains is the call itself
      cases hargs : operands ev env exprs u with
      | error fault r =>
        rw [hargs] at h
        cases h
      | ok args? r =>
        rw [hargs] at h
        cases args? with
        | none =>
          cases h
          exact Or.inl ⟨_, rfl⟩
        | some args =>
          rcases call_reply h with hdone | ⟨formals, body, captured, rfl, hlength, rfl, rfl⟩
          · exact Or.inl hdone
          · exact Or.inr (Or.inr ⟨body, _, rfl, .closure hhead hargs hlength⟩)

/-- A step replies with a part of the form just where this is left in tail position, -/
theorem formStep_eq_part_iff {form : Form} {s t : State} {rest : Value} :
    formStep loader? ev env form s = .ok (.part rest) t ↔ Leaves ev env form rest s t := by
  constructor
  · intro h
    rcases formStep_reply h with ⟨v, hv⟩ | ⟨_, hreply, hleaves⟩ | ⟨body, inner, hreply, -⟩
    · cases hv
    · cases hreply
      exact hleaves
    · cases hreply
  · intro h
    -- whoever has got to the last expression goes on with it
    cases h with
    | answer hbefore h hv =>
      show choice ev env _ _ s = _
      rw [choice_of_passes hbefore, choice, Run.bind_apply, h]
      dsimp only
      split
      · exact absurd rfl hv.1
      · exact absurd rfl hv.2
      · rfl
    | @otherwise clauses _ _ _ h =>
      have hall : choice ev env (some rest) (clauses ++ []) s = choice ev env (some rest) [] t :=
        choice_of_passes h
      rw [List.append_nil] at hall
      exact hall
    | and h => exact conjunction_series.of_passes h
    | or h => exact disjunction_series.of_passes h
    | @begin first last others before _ _ hforms h =>
      show forms ev env (first :: others) s = _
      rw [hforms]
      exact forms_series.of_passes h

/-- and with a body just where the form has called a closure. -/
theorem formStep_eq_body_iff {form : Form} {s t : State} {body : Value} {inner : Env} :
    formStep loader? ev env form s = .ok (.body body inner) t
      ↔ Calls ev env form body inner s t := by
  constructor
  · intro h
    rcases formStep_reply h with ⟨v, hv⟩ | ⟨rest, hreply, -⟩ | ⟨_, _, hreply, hcalls⟩
    · cases hv
    · cases hreply
    · cases hreply
      exact hcalls
  · intro h
    cases h with
    | closure hhead hargs hlength =>
      rw [formStep, unlessQuit, Run.bind_apply, hhead]
      show (operands ev env _ >>= _) _ = _
      rw [Run.bind_apply, hargs]
      exact call_closure hlength _

end Eval

end SmallScheme
