/-
  THE BOOLEAN FORMS agree with each other.

  `and`, `or` and `cond` each go through a list in a loop of their own, and `not` has none.  Two
  laws say that they do so in the same way.  A conjunction is denied by denying one of its operands:
  `(not (and e ...))` is `(or (not e) ...)`.  And a conjunction is a choice: `(and e1 e2 ...)` is
  `(cond (e1 (and e2 ...)) (else #f))`.  The operands are any expressions.  They may display and
  define, they may fail or quit, and their values need not be booleans; so the laws hold because
  the loops have the same order, the same notion of falsity and the same rule for quitting.

  Written in one way, the expressions are nested deeper than in the other, and so need more room:
  one level more at most.  So what no limit stops is the same, in tail position and outside of it.

  Structure:
    1. More room does not change what the flagged evaluator does (`flagged_mono`).  It is the
       evaluator that the laws are proved for: it is told whether an expression is in tail
       position, so both cases are one statement.
    2. The first law, operand by operand (`disjunction_denials`).
    3. The second law, in both directions, since neither writing is the deeper one throughout.
    4. Agreement (`Follows`, `Agree`): from the flagged evaluator to all others.
    5. The level more.  Below enough denials one writing of the first law is within the limit and
       the other is not, so the laws cannot be had without the condition.
-/
import Mathlib.Data.List.Forall2
import Mathlib.Logic.Function.Iterate
import SmallScheme.Proofs.TailCall

namespace SmallScheme

namespace Eval

variable {stray : Value → Env → Run Value} {loader? : Option Loader} {steps : Nat}

/-! ## Flagged evaluation in more room -/

/-- What is carried out call by call is within what is carried out by a wider evaluator. -/
theorem resume_mono {ask ask' : Value → Env → Run Answer}
    (hask : ∀ body env, Run.Within (ask body env) (ask' body env)) (steps : Nat) (a : Answer) :
    Run.Within (resume ask steps a) (resume ask' steps a) := by
  induction steps generalizing a with
  | zero => cases a <;> exact Run.Within.refl _
  | succ steps ih =>
    cases a with
    | value v => exact Run.Within.refl _
    | call body env => exact (hask body env).bind ih

/-- More room does not change what the flagged evaluator does. -/
theorem flagged_mono {room room' : Nat} (h : room ≤ room') (tail : Bool) (expr : Value)
    (env : Env) : Run.Within (flagged stray loader? steps room tail expr env)
      (flagged stray loader? steps room' tail expr env) := by
  induction room generalizing room' tail expr env with
  | zero => exact Run.Within.of_limit rfl _
  | succ room ih =>
    -- both rooms are successors, so both evaluators take a step into the smaller rooms
    obtain ⟨big, rfl⟩ : ∃ big, room' = big + 1 := ⟨room' - 1, by omega⟩
    have hle : room ≤ big := by omega
    have called : ∀ expr env, Run.Within (trampolined stray loader? steps room expr env)
        (trampolined stray loader? steps big expr env) := fun expr env =>
      (ih hle true expr env).bind (resume_mono (ih hle true) steps)
    have related : @Way.Related Run Run _ _ _ _ Answer Answer (fun _ => Run.Within) Run.Within env
        (Way.flagged stray loader? steps room tail (flagged stray loader? steps room))
        (Way.flagged stray loader? steps big tail (flagged stray loader? steps big)) :=
      { pure := fun _ => Run.Within.refl _
        bind := Run.Within.bind
        bindLast := Run.Within.bind
        act := fun x hx => hx _ _ h
        sub := fun _ expr inner _ => (ih hle false expr inner).bind fun _ => Run.Within.refl _
        load := fun name => require_within ⟨hle, fun _ expr env _ => called expr env⟩ name
        last := fun expr => ih hle tail expr env
        enter := fun body inner => by
          -- in tail position a call is handed back, which takes no room; elsewhere it is carried
          -- out
          cases tail with
          | true => exact Run.Within.refl _
          | false => exact (called body inner).bind fun _ => Run.Within.refl _
        give := fun _ => Run.Within.refl _ }
    exact related.eval expr

/-! ## The first law -/

/-- The way in which the flagged evaluator evaluates an expression in so much room and one more. -/
def flaggedWay (stray : Value → Env → Run Value) (loader? : Option Loader) (steps room : Nat)
    (tail : Bool) : Way Run Answer :=
  .flagged stray loader? steps room tail (flagged stray loader? steps room)

/-- The first expression denies the second. -/
def Denies (denial expr : Value) : Prop := ∃ origin, denial = .list origin [.symbol "not", expr]

variable {room : Nat} {tail : Bool} {env : Env}

/-- `and` is the loop of conjunctions. -/
theorem flagged_and (origin : Origin) (es : List Value) :
    flagged stray loader? steps (room + 1) tail (.list origin (.symbol "and" :: es)) env
      = (flaggedWay stray loader? steps room tail).conjunction env es := rfl

/-- `or` is the loop of disjunctions. -/
theorem flagged_or (origin : Origin) (es : List Value) :
    flagged stray loader? steps (room + 1) tail (.list origin (.symbol "or" :: es)) env
      = (flaggedWay stray loader? steps room tail).disjunction env es := rfl

/-- What is made of a value when it is denied. -/
def denied : Value → Value
  | .quit => .quit
  | v => .bool (isFalse v)

/-- `not` evaluates its operand outside of tail position, and denies the value. -/
theorem flagged_not (origin : Origin) (expr : Value) :
    flagged stray loader? steps (room + 1) tail (.list origin [.symbol "not", expr]) env
      = (flagged stray loader? steps room false expr env >>= Answer.demand stray)
          >>= fun v => pure (.value (denied v)) := by
  show _ >>= _ = _
  congr 1
  funext v
  cases v <;> rfl

/-- A denial that comes before others. -/
theorem sub_not (origin : Origin) (expr : Value) :
    (flaggedWay stray loader? steps (room + 1) tail).sub Room.part
        (.list origin [.symbol "not", expr]) env
      = (flaggedWay stray loader? steps room false).sub Room.part expr env
          >>= fun v => pure (denied v) := by
  show flagged stray loader? steps (room + 1) false _ env >>= Answer.demand stray = _
  rw [flagged_not, bind_assoc]
  simp only [pure_bind, Answer.demand]
  rfl

/-- A disjunction of denials denies a conjunction, operand by operand. -/
theorem disjunction_denials {es ns : List Value} (h : List.Forall₂ Denies ns es) :
    (flaggedWay stray loader? steps (room + 1) tail).disjunction env ns
      = ((flaggedWay stray loader? steps room false).conjunction env es >>= Answer.demand stray)
          >>= fun v => pure (.value (denied v)) := by
  induction h with
  | nil => rfl
  | @cons n e ns es hn hrest ih =>
    obtain ⟨origin, rfl⟩ := hn
    cases hrest with
    | nil => exact flagged_not origin e
    | @cons n' e' ns es hn' hrest =>
      -- a denial is true just where the denied expression is false, so both go on together
      rw [Way.disjunction, Way.conjunction, sub_not, ih]
      · simp only [bind_assoc, pure_bind]
        congr 1
        funext v
        cases v with
        | bool b => cases b <;> rfl
        | _ => rfl
      all_goals exact List.cons_ne_nil _ _

/-- A conjunction that is denied is a disjunction of denials. -/
theorem flagged_not_and (outer inner origin : Origin) {es ns : List Value}
    (h : List.Forall₂ Denies ns es) :
    flagged stray loader? steps (room + 2) tail
        (.list outer [.symbol "not", .list inner (.symbol "and" :: es)]) env
      = flagged stray loader? steps (room + 2) tail (.list origin (.symbol "or" :: ns)) env := by
  rw [flagged_not, flagged_and, flagged_or, disjunction_denials h]

/-! ## The second law -/

/-- The choice that a conjunction is: `(cond (first rest) (else #f))`. -/
def choiceOf (origin clause last : Origin) (first rest : Value) : Value :=
  .list origin [.symbol "cond", .list clause [first, rest],
    .list last [.symbol "else", .bool false]]

/-- The choice that a conjunction is has one clause, and an `else`. -/
theorem flagged_choiceOf (origin clause last : Origin) {first : Value} (rest : Value)
    (h : first ≠ .symbol "else") :
    flagged stray loader? steps (room + 1) tail (choiceOf origin clause last first rest) env
      = (flaggedWay stray loader? steps room tail).choice env (some (.bool false))
          [(first, rest)] := by
  have hclauses : Form.clauses? [.list clause [first, rest],
      .list last [.symbol "else", .bool false]] = .ok ([(first, rest)], some (.bool false)) := by
    rw [Form.clauses?]
    · rfl
    · exact h
  have hform : Form.ofExpr? (choiceOf origin clause last first rest)
      = .ok (.cond [(first, rest)] (some (.bool false))) := by
    show Form.special? .cond _ = _
    rw [Form.special?, hclauses]
  show (flaggedWay stray loader? steps room tail).eval _ env = _
  rw [Way.eval, hform]
  rfl

/-- A part of an expression is evaluated to the same in more room. -/
theorem sub_mono (expr : Value) :
    Run.Within ((flaggedWay stray loader? steps room tail).sub Room.part expr env)
      ((flaggedWay stray loader? steps (room + 1) tail).sub Room.part expr env) :=
  (flagged_mono (Nat.le_succ room) false expr env).bind fun _ => Run.Within.refl _

variable (stray loader? steps room tail env) in
/-- Where the conjunction comes to something, so does the choice. -/
theorem conjunction_within_choice (origin clause last inner outer : Origin) {first : Value}
    (second : Value) (others : List Value) (h : first ≠ .symbol "else") :
    Run.Within
      (flagged stray loader? steps room tail
        (.list outer (.symbol "and" :: first :: second :: others)) env)
      (flagged stray loader? steps (room + 1) tail (choiceOf origin clause last first
        (.list inner (.symbol "and" :: second :: others))) env) := by
  cases room with
  | zero => exact Run.Within.of_limit rfl _
  | succ room =>
    -- both evaluate the first operand; if it is false they are done, and else the others are left
    rw [flagged_choiceOf _ _ _ _ h, flagged_and, Way.conjunction, Way.choice]
    · refine (sub_mono first).bind fun v => ?_
      cases v with
      | bool b => cases b <;> exact Run.Within.refl _
      | _ => exact Run.Within.refl _
    all_goals exact List.cons_ne_nil _ _

variable (stray loader? steps room tail env) in
/-- Where the choice comes to something, so does the conjunction. -/
theorem choice_within_conjunction (origin clause last inner outer : Origin) {first : Value}
    (second : Value) (others : List Value) (h : first ≠ .symbol "else") :
    Run.Within
      (flagged stray loader? steps room tail (choiceOf origin clause last first
        (.list inner (.symbol "and" :: second :: others))) env)
      (flagged stray loader? steps (room + 1) tail
        (.list outer (.symbol "and" :: first :: second :: others)) env) := by
  cases room with
  | zero => exact Run.Within.of_limit rfl _
  | succ room =>
    -- the conjunction of the others stands one form deeper in the choice
    have hrest : Run.Within
        (flagged stray loader? steps room tail
          (.list inner (.symbol "and" :: second :: others)) env)
        ((flaggedWay stray loader? steps (room + 1) tail).conjunction env (second :: others)) :=
      flagged_mono (Nat.le_add_right room 2) tail _ env
    have hfalse : Run.Within (flagged stray loader? steps room tail (.bool false) env)
        (pure (.value (.bool false))) := flagged_mono (Nat.le_succ room) tail _ env
    rw [flagged_choiceOf _ _ _ _ h, flagged_and, Way.conjunction, Way.choice]
    · refine (sub_mono first).bind fun v => ?_
      cases v with
      | bool b =>
        cases b with
        | true => exact hrest
        | false => exact hfalse
      | quit => exact Run.Within.refl _
      | _ => exact hrest
    all_goals exact List.cons_ne_nil _ _

/-! ## Agreement -/

/-- What the first expression comes to, in tail position or outside of it, the second comes to in
    room for one level more: to a value, to a call that is handed back, or to a fault. -/
def Follows (loader? : Option Loader) (env : Env) (expr other : Value) : Prop :=
  ∀ stray steps room tail, Run.Within (flagged stray loader? steps room tail expr env)
    (flagged stray loader? steps (room + 1) tail other env)

/-- What is the same in so much room follows, for that is more than one level. -/
theorem Follows.of_eq {expr other : Value}
    (h : ∀ stray steps room tail, flagged stray loader? steps (room + 2) tail expr env
      = flagged stray loader? steps (room + 2) tail other env) :
    Follows loader? env expr other := by
  intro stray steps room tail
  cases room with
  | zero => exact Run.Within.of_limit rfl _
  | succ room =>
    rw [← h]
    exact flagged_mono (Nat.le_succ _) tail expr env

/-- What any evaluator has come to, every evaluator comes to with the other expression. -/
theorem Follows.reached {expr other : Value} (h : Follows loader? env expr other) {mode : Mode}
    {s : State} (hs : Run.Settled (mode.run stray loader? steps room expr env s)) (mode' : Mode) :
    ∃ enough, ∀ steps' room', enough ≤ steps' → enough ≤ room' →
      mode'.run stray loader? steps' room' other env s
        = mode.run stray loader? steps room expr env s := by
  -- by way of the flagged evaluator outside of tail position
  obtain ⟨n, hn⟩ := Mode.reached hs .nontail
  have hflag : Mode.nontail.run stray loader? n n expr env s = _ := hn n n (Nat.le_refl n)
    (Nat.le_refl n)
  have hwithin : Run.Within (Mode.nontail.run stray loader? n n expr env)
      (Mode.nontail.run stray loader? n (n + 1) other env) :=
    (h stray n n false).bind fun _ => Run.Within.refl _
  have hother := hwithin s (by rw [hflag]; exact hs)
  rw [hflag] at hother
  have hdone : Run.Settled (Mode.nontail.run stray loader? n (n + 1) other env s) := by
    rw [hother]
    exact hs
  obtain ⟨m, hm⟩ := Mode.reached hdone mode'
  refine ⟨m, fun steps' room' hsteps hroom => ?_⟩
  rw [hm steps' room' hsteps hroom, hother]

/-- Runs of the expressions that no limit stops are the same. -/
theorem Follows.settled_eq {expr other : Value} (h : Follows loader? env expr other)
    {mode mode' : Mode} {steps' room' : Nat} {s : State}
    (hs : Run.Settled (mode.run stray loader? steps room expr env s))
    (hs' : Run.Settled (mode'.run stray loader? steps' room' other env s)) :
    mode'.run stray loader? steps' room' other env s
      = mode.run stray loader? steps room expr env s := by
  obtain ⟨n, hn⟩ := h.reached hs mode'
  -- both meet in a room that is enough for either of them
  have hother := hn n n (Nat.le_refl n) (Nat.le_refl n)
  rw [← hother]
  exact Mode.settled_eq (by rw [hother]; exact hs) mode' hs'

/-- The expressions agree.  Unless a limit stops one of them, they come to the same value or fault
    in the same state: in tail position, where this may also be a call that is handed back, and
    outside of it, and by every evaluator, such as the one that programs run on. -/
structure Agree (loader? : Option Loader) (env : Env) (expr other : Value) : Prop where
  left : Follows loader? env expr other
  right : Follows loader? env other expr
  settled : ∀ stray (mode mode' : Mode) steps room steps' room' s,
    Run.Settled (mode.run stray loader? steps room expr env s) →
    Run.Settled (mode'.run stray loader? steps' room' other env s) →
    mode'.run stray loader? steps' room' other env s = mode.run stray loader? steps room expr env s
  reached : ∀ stray (mode mode' : Mode) steps room s,
    (Run.Settled (mode.run stray loader? steps room expr env s) →
      ∃ enough, ∀ steps' room', enough ≤ steps' → enough ≤ room' →
        mode'.run stray loader? steps' room' other env s
          = mode.run stray loader? steps room expr env s) ∧
    (Run.Settled (mode.run stray loader? steps room other env s) →
      ∃ enough, ∀ steps' room', enough ≤ steps' → enough ≤ room' →
        mode'.run stray loader? steps' room' expr env s
          = mode.run stray loader? steps room other env s)

/-- What follows both ways agrees. -/
theorem Follows.agree {expr other : Value} (h : Follows loader? env expr other)
    (h' : Follows loader? env other expr) : Agree loader? env expr other where
  left := h
  right := h'
  settled _ _ _ _ _ _ _ _ hs hs' := h.settled_eq hs hs'
  reached _ _ mode' _ _ _ := ⟨fun hs => h.reached hs mode', fun hs => h'.reached hs mode'⟩

/-- The boolean forms agree: a conjunction that is denied with the disjunction of the denials of
    its operands, of which there may be none, and a conjunction of two or more with the choice
    that its first operand makes. -/
theorem boolean_forms_agree (loader? : Option Loader) (env : Env) :
    (∀ (outer inner origin : Origin) (es ns : List Value), List.Forall₂ Denies ns es →
      Agree loader? env (.list outer [.symbol "not", .list inner (.symbol "and" :: es)])
        (.list origin (.symbol "or" :: ns))) ∧
    ∀ (outer inner origin clause last : Origin) (first second : Value) (others : List Value),
      first ≠ .symbol "else" →
      Agree loader? env (.list outer (.symbol "and" :: first :: second :: others))
        (choiceOf origin clause last first (.list inner (.symbol "and" :: second :: others))) := by
  refine ⟨fun outer inner origin es ns hns => ?_, ?_⟩
  · refine Follows.agree (.of_eq fun stray steps room tail => ?_)
      (.of_eq fun stray steps room tail => ?_)
    -- here the evaluators are equal, so each of the two follows the other
    · exact flagged_not_and outer inner origin hns
    · exact (flagged_not_and outer inner origin hns).symm
  · intro outer inner origin clause last first second others hfirst
    refine Follows.agree (fun stray steps room tail => ?_) fun stray steps room tail => ?_
    · exact conjunction_within_choice stray loader? steps room tail env origin clause last inner
        outer second others hfirst
    · exact choice_within_conjunction stray loader? steps room tail env origin clause last inner
        outer second others hfirst

/-- `(not (and #t #f))` and `(or (not #t) (not #f))`, `(and #t 1)` and
    `(cond (#t (and 1)) (else #f))`. -/
theorem boolean_forms_agree_constants :
    (evaluate none 9 9 0 (.ofItems [.symbol "not", .ofItems [.symbol "and", .bool true,
        .bool false]]) .empty .initial = .ok (.bool true) .initial ∧
      evaluate none 9 9 0 (.ofItems [.symbol "or", .ofItems [.symbol "not", .bool true],
        .ofItems [.symbol "not", .bool false]]) .empty .initial = .ok (.bool true) .initial) ∧
    evaluate none 9 9 0 (.ofItems [.symbol "and", .bool true, .int 1]) .empty .initial
      = .ok (.int 1) .initial ∧
    ∃ enough, ∀ steps room, enough ≤ steps → enough ≤ room →
      evaluate none steps room 0 (.ofItems [.symbol "cond",
        .ofItems [.bool true, .ofItems [.symbol "and", .int 1]],
        .ofItems [.symbol "else", .bool false]]) .empty .initial = .ok (.int 1) .initial := by
  have hdenies : List.Forall₂ Denies
      [.ofItems [.symbol "not", .bool true], .ofItems [.symbol "not", .bool false]]
      [.bool true, .bool false] := .cons ⟨.unknown, rfl⟩ (.cons ⟨.unknown, rfl⟩ .nil)
  obtain ⟨hfirst, hsecond⟩ := boolean_forms_agree none .empty
  have hor := hfirst .unknown .unknown .unknown _ _ hdenies
  have hchoice := hsecond .unknown .unknown .unknown .unknown .unknown (.bool true) (.int 1) []
    nofun
  have hrun : Mode.stepwise.run (fun _ _ => pure .quit) none 9 9 (.ofItems [.symbol "not",
      .ofItems [.symbol "and", .bool true, .bool false]]) .empty .initial
        = .ok (.bool true) .initial := rfl
  refine ⟨⟨hrun, ?_⟩, rfl, ?_⟩
  · exact hor.settled (fun _ _ => pure .quit) .stepwise .stepwise 9 9 9 9 .initial trivial
      trivial
  · exact (hchoice.reached (fun _ _ => pure .quit) .stepwise .stepwise 9 9 .initial).1 trivial

/-! ## The level more -/

/-- The expression, denied so many times. -/
def denials : (times : Nat) → Value → Value
  | 0, expr => expr
  | times + 1, expr => .ofItems [.symbol "not", denials times expr]

/-- A denial is evaluated with two of the room less for its operand. -/
theorem evaluate_not (origin : Origin) (expr : Value) :
    evaluate loader? (steps + 1) (room + 2) 0 (.list origin [.symbol "not", expr]) env
      = evaluate loader? (steps + 1) room 0 expr env >>= fun v => pure (denied v) := by
  have hrun : ((stepping loader? (steps + 1) (room + 1)).deeper 0).run Room.part expr env
      = evaluate loader? (steps + 1) room 0 expr env := stepping_run (room + 1) 0 Room.part expr env
  have hstep : stepIn loader? (steps + 1) (room + 1) 0 (.list origin [.symbol "not", expr]) env
      = evaluate loader? (steps + 1) room 0 expr env >>= fun v => pure (.done (denied v)) := by
    rw [← hrun]
    show unlessQuit _ _ = _
    rw [unlessQuit]
    congr 1
    funext v
    cases v <;> rfl
  show follow (stepIn loader? (steps + 1) (room + 1)) (steps + 1) 0 none _ env = _
  rw [follow_succ, hstep, bind_assoc]
  rfl

/-- Each denial takes up two of the room. -/
theorem evaluate_denials (times : Nat) (expr : Value) :
    evaluate loader? (steps + 1) (room + 2 * times) 0 (denials times expr) env
      = evaluate loader? (steps + 1) room 0 expr env >>= fun v => pure (denied^[times] v) := by
  induction times with
  | zero => exact (bind_pure _).symm
  | succ times ih =>
    rw [denials, Value.ofItems, Nat.mul_succ, ← Nat.add_assoc, evaluate_not, ih, bind_assoc]
    simp only [pure_bind, Function.iterate_succ_apply']

/-- Where room is left for one level only, `(or)` has a value, but `(not (and))` goes too deep.
    This is so below as many denials as the room allows. -/
theorem or_shallower_than_not_and :
    (evaluate none 1 2 0 (.ofItems [.symbol "or"]) .empty .initial = .ok (.bool false) .initial ∧
      evaluate none 1 2 0 (.ofItems [.symbol "not", .ofItems [.symbol "and"]]) .empty .initial
        = .error .tooDeep .initial) ∧
    evaluate none 1 Room.standard 0 (denials 4999 (.ofItems [.symbol "or"])) .empty .initial
      = .ok (.bool true) .initial ∧
    evaluate none 1 Room.standard 0
        (denials 4999 (.ofItems [.symbol "not", .ofItems [.symbol "and"]])) .empty .initial
      = .error .tooDeep .initial := by
  have hroom : Room.standard = 2 + 2 * 4999 := rfl
  -- an even number of denials comes back to the value denied
  have htwice : ∀ times, denied^[2 * times] (.bool true) = .bool true := by
    intro times
    rw [Function.iterate_mul]
    exact Function.iterate_fixed rfl times
  have hdenied : denied^[4999] (.bool false) = .bool true := by
    have hodd : 4999 = 2 * 2499 + 1 := rfl
    rw [hodd, Function.iterate_succ_apply]
    exact htwice 2499
  rw [hroom, evaluate_denials, evaluate_denials]
  refine ⟨⟨rfl, rfl⟩, ?_, rfl⟩
  show EStateM.Result.ok (denied^[4999] (.bool false)) _ = _
  rw [hdenied]

end Eval

end SmallScheme
