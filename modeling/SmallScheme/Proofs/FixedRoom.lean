/-
  LOOPS in a fixed room.

  A function that calls itself in tail position makes a chain with one leg for each call.  If no
  leg needs more than some room, then the whole chain needs little more, however long it is
  (`Shallow.completes`).  The functions of the bundled library that are loops in this sense are
  `lat?`, `member?`, `o+` and `o-`; their legs need ten.

  Structure:
    1. Chains of shallow legs.  `Shallow` is closed under one more call, and what is shallow and
       comes to a value comes to it in the fixed room.
    2. Legs of known code.  Where every step of a leg is known, the leg is computed: `leg_done`,
       `leg_part` and `leg_call` are its three kinds of steps.
    3. The loops of the library, by induction on what each of them goes down.  One leg is
       computed for the end of the loop, and one for a round of it.
    4. Calls from the top level, and all of the loops together.

  That the loops compute what they are meant to is shown elsewhere; here it is only a matter of
  the room in which they do.
-/
import SmallScheme.Proofs.Lists
import SmallScheme.Proofs.Numbers
import SmallScheme.Proofs.TailChain

namespace SmallScheme

namespace Eval

/-! ## Chains of shallow legs -/

section Shallow

variable {loader? : Option Loader} {steps depth room : Nat} {expr : Value} {env : Env}
  {s t : State}

/-- The evaluation is a chain, and none of its legs needs more room than that. -/
def Shallow (loader? : Option Loader) (steps depth : Nat) (expr : Value) (env : Env) (s : State) :
    Prop :=
  ∃ legs r, Chain loader? steps expr env s legs r ∧ ∀ l ∈ legs, l.depth ≤ depth

/-- In so much room, and in more, the expression is evaluated to the value, unless there are too few
    steps for it.  Nothing changes but what has been made. -/
def CompletesIn (loader? : Option Loader) (depth : Nat) (expr : Value) (env : Env) (s : State)
    (v : Value) : Prop :=
  ∃ made enough, ∀ room steps, depth ≤ room →
    evaluate loader? steps room 0 expr env s = .ok v { s with made := made } ∨
      steps < enough ∧ ∃ t, evaluate loader? steps room 0 expr env s = .error .tooLong t

/-- A leg to a value. -/
theorem Shallow.value {nested : Nat} {v : Value}
    (hleg : leg loader? steps depth expr env s = (nested, .ok (.value v) t)) :
    Shallow loader? steps depth expr env s := by
  obtain ⟨l, hdepth, htakes⟩ := Leg.exists_takes hleg trivial
  exact ⟨[l], _, .value htakes, List.forall_mem_singleton.mpr hdepth⟩

/-- A leg to a call, and then those of the body. -/
theorem Shallow.call {nested : Nat} {body : Value} {inner : Env}
    (hleg : leg loader? steps depth expr env s = (nested, .ok (.call body inner) t))
    (h : Shallow loader? steps depth body inner t) : Shallow loader? steps depth expr env s := by
  obtain ⟨l, hdepth, htakes⟩ := Leg.exists_takes hleg trivial
  obtain ⟨legs, r, hchain, hlegs⟩ := h
  exact ⟨l :: legs, r, .call htakes hchain, List.forall_mem_cons.mpr ⟨hdepth, hlegs⟩⟩

/-- Shallow legs need little more room together than each on its own. -/
theorem Chain.roomFor_le {legs : List Leg} {r : EStateM.Result Fault State Value}
    (h : Chain loader? steps expr env s legs r) (hlegs : ∀ l ∈ legs, l.depth ≤ depth) :
    roomFor legs ≤ 2 * depth + 5 := by
  have hbody : Room.body = 4 := rfl
  refine roomFor_le_iff.mpr ?_
  cases h with
  | value h | fault h =>
    have hdepth := hlegs _ (List.mem_cons_self ..)
    rw [reachesFrom_singleton]
    exact List.forall_mem_singleton.mpr (by omega)
  | @call l legs _ body _ inner _ t r h hrest =>
    obtain ⟨hdepth, hlegs⟩ := List.forall_mem_cons.mp hlegs
    have hpart : Room.part * l.nested = 2 * l.nested := rfl
    have hnested := h.nested_lt
    refine List.forall_mem_cons.mpr ⟨by omega, ?_⟩
    -- the first leg of a body is entered, and the ones after it take its place
    cases legs with
    | nil => exact nofun
    | cons first others =>
      obtain ⟨hfirst, hothers⟩ := List.forall_mem_cons.mp hlegs
      refine List.forall_mem_cons.mpr ⟨by omega, ?_⟩
      show ∀ reach ∈ reachesFrom _ (some _) others, reach ≤ _
      rw [reachesFrom_some]
      intro reach hreach
      obtain ⟨l', hl', rfl⟩ := List.mem_map.mp hreach
      have hother := hothers l' hl'
      omega

/-- What an evaluation comes to, it completes in fixed room, if it is a chain of shallow legs. -/
theorem Shallow.completes {v : Value} (hcomes : ComesTo loader? expr env s (· = .ok v))
    (h : ∀ steps, Shallow loader? (steps + 1) depth expr env s) :
    CompletesIn loader? (2 * depth + 5) expr env s v := by
  obtain ⟨_, made, rfl, ⟨enough, henough⟩, hsettled⟩ := hcomes
  refine ⟨made, enough + 1, fun room steps hroom => ?_⟩
  cases steps with
  | zero =>
    obtain ⟨room, rfl⟩ : ∃ small, room = small + 1 := ⟨room - 1, by omega⟩
    exact Or.inr ⟨Nat.succ_pos _, s, rfl⟩
  | succ steps =>
    obtain ⟨legs, r, hchain, hlegs⟩ := h steps
    have hneeds := hchain.roomFor_le hlegs
    rcases Nat.lt_or_ge (steps + 1) (stepsFor legs) with hfew | hmany
    · refine Or.inr ⟨?_, (hchain.evaluate_eq (Nat.le_trans hneeds hroom)).2 hfew⟩
      -- with enough steps the evaluation would have come to the value in more room
      by_contra hc
      obtain ⟨t, ht⟩ := (hchain.evaluate_eq (show roomFor legs ≤ room + enough by omega)).2 hfew
      rw [henough (steps + 1) (room + enough) (by omega) (by omega)] at ht
      cases ht
    · have hr := (hchain.evaluate_eq (Nat.le_trans hneeds hroom)).1 hmany
      refine Or.inl (hsettled (steps + 1) room 0 ?_)
      rw [hr]
      exact hchain.settled

end Shallow

/-! ## Legs of known code -/

section Legs

variable {loader? : Option Loader} {steps room : Nat} {expr : Value} {env : Env} {s t : State}

/-- A step that is done is a leg. -/
theorem leg_done {v : Value}
    (h : step loader? (within loader? steps room) expr env s = .ok (.done v) t) :
    leg loader? steps room expr env s = (0, .ok (.value v) t) := by
  rw [leg_eq, h]

/-- A step that leaves a part is the beginning of the leg of that part. -/
theorem leg_part {nested : Nat} {rest : Value} {r : EStateM.Result Fault State Answer}
    (h : step loader? (within loader? steps room) expr env s = .ok (.part rest) t)
    (hrest : leg loader? steps (room - Room.part) rest env t = (nested, r)) :
    leg loader? steps room expr env s = (nested + 1, r) := by
  rw [leg_eq, h]
  dsimp only
  rw [hrest]

/-- Where there is room, a step is that of the form. -/
theorem step_of_form {form : Form} (hroom : room ≠ 0) (hform : Form.ofExpr? expr = .ok form) :
    step loader? (within loader? steps room) expr env
      = formStep loader? (within loader? steps room) env form := by
  have hroom : (within loader? steps room).room ≠ 0 := hroom
  rw [step, if_neg hroom, hform]

/-- It replies with the part that is left. -/
theorem step_of_leaves {form : Form} {rest : Value} (hroom : room ≠ 0)
    (hform : Form.ofExpr? expr = .ok form)
    (h : Leaves (within loader? steps room) env form rest s t) :
    step loader? (within loader? steps room) expr env s = .ok (.part rest) t := by
  rw [step_of_form hroom hform]
  exact formStep_eq_part_iff.mpr h

/-- An expression that is evaluated in one step. -/
theorem evaluate_done {v : Value}
    (h : step loader? (within loader? (steps + 1) (room + 1)) expr env s = .ok (.done v) t) :
    evaluate loader? (steps + 1) (room + 1) 0 expr env s = .ok v t := by
  show follow (stepIn loader? (steps + 1) room) (steps + 1) 0 none expr env s = _
  rw [follow_succ, Run.bind_apply, stepIn_eq, Nat.sub_zero, h]
  rfl

/-- A name that only the store binds. -/
theorem evaluate_stored {name : String} {v : Value} (hname : Primitive.ofName? name = none)
    (henv : env.lookup? name = none) (hstore : s.store.get? name = some v) :
    evaluate loader? (steps + 1) (room + 1) 0 (.symbol name) env s = .ok v s := by
  have hform : Form.ofExpr? (.symbol name) = .ok (.identifier name) := by
    rw [Form.ofExpr?, hname]
    rfl
  refine evaluate_done ?_
  rw [step_of_form (Nat.succ_ne_zero room) hform, formStep, Run.bind_apply, lookup_apply, henv,
    hstore]
  rfl

/-- The call of a function that the store binds. -/
theorem leg_call (d : Definition) {next : Nat} {origin : Origin} {exprs args : List Value}
    (hname : TopLevel d.name env) (hd : s.store.get? d.name = some (d.function next))
    (hroom : Room.operator < room)
    (hargs : operands (within loader? (steps + 1) room) env exprs s = .ok (some args) t)
    (hlength : args.length = d.formals.length) :
    leg loader? (steps + 1) room (.list origin (.symbol d.name :: exprs)) env s
      = (0, .ok (.call (d.body.stamp next).1 (.frame (.made t.made) d.formals args .empty))
          { t with made := t.made + 1 }) := by
  have hform : Form.ofExpr? (.list origin (.symbol d.name :: exprs))
      = .ok (.call (.symbol d.name) exprs) := by
    have hhead : Value.keyword? [.symbol d.name] = none := hname.keyword
    rw [Form.ofExpr?, hhead]
  -- the name is looked up in a room that is smaller by what an operator takes
  have hhead : (within loader? (steps + 1) room).run Room.operator (.symbol d.name) env s
      = .ok (d.function next) s := by
    obtain ⟨small, hsmall⟩ : ∃ small, room - Room.operator = small + 1 :=
      ⟨room - Room.operator - 1, by omega⟩
    show evaluate loader? (steps + 1) room Room.operator (.symbol d.name) env s = _
    rw [evaluate_below, hsmall]
    exact evaluate_stored hname.primitive hname.env hd
  have hcalls := Calls.closure hhead hargs hlength
  have hne : room ≠ 0 := by omega
  rw [leg_eq, step_of_form hne hform, formStep_eq_body_iff.mpr hcalls]

end Legs

end Eval

/-! ## The loops of the library -/

namespace Library

open Eval

variable {loader? : Option Loader} {steps next : Nat} {s : State}

/-- Room for a leg of any of the loops. -/
def legRoom : Nat := 10

/-- Each round of `lat?` asks two questions and calls itself. -/
theorem isLat_shallow (h : s.store.get? isLat.name = some (isLat.function next)) (vs : List Value)
    (hvs : ∀ v ∈ vs, Primitive.isAtomValue v = true) (origin frame : Origin) (made : Nat) :
    Shallow loader? (steps + 1) legRoom (isLat.body.stamp next).1
      (.frame frame ["l"] [.list origin vs] .empty) { s with made := made } := by
  induction vs generalizing origin frame made with
  | nil => exact Shallow.value (leg_part rfl (leg_done rfl))
  | cons v vs ih =>
    obtain ⟨hv, hvs⟩ := List.forall_mem_cons.mp hvs
    -- both questions have been answered, so the call is left
    obtain ⟨o, o', hpart⟩ : ∃ o o', step loader? (within loader? (steps + 1) legRoom)
        (isLat.body.stamp next).1 (.frame frame ["l"] [.list origin (v :: vs)] .empty)
        { s with made := made }
          = .ok (.part (.list o [.symbol "lat?", .list o' [.symbol "cdr", .symbol "l"]]))
              { s with made := made } := by
      cases v with
      | symbol name | bool b | int n => exact ⟨_, _, rfl⟩
      | _ => cases hv
    refine Shallow.call (leg_part hpart (leg_call isLat ⟨rfl, rfl, rfl⟩ h (by decide) rfl rfl)) ?_
    exact ih hvs _ _ _

/-- The question whether the first item is the one that is looked for. -/
theorem isFound_run {a v : Value} (ha : a ≠ .quit) (hv : Primitive.isAtomValue v = true)
    (vs : List Value) (origin frame o o' : Origin) :
    ∃ b, (within loader? (steps + 1) legRoom).run Room.part
      (.list o [.symbol "eq?", .list o' [.symbol "car", .symbol "lat"], .symbol "a"])
      (.frame frame ["a", "lat"] [a, .list origin (v :: vs)] .empty) s = .ok (.bool b) s := by
  cases v with
  | symbol name | bool b | int n =>
    cases a with
    | quit => exact absurd rfl ha
    | _ => exact ⟨_, rfl⟩
  | _ => cases hv

/-- Each round of `member?` asks two questions, and calls itself if neither has an answer. -/
theorem isMember_shallow (h : s.store.get? isMember.name = some (isMember.function next))
    {a : Value} (ha : a ≠ .quit) (vs : List Value)
    (hvs : ∀ v ∈ vs, Primitive.isAtomValue v = true) (origin frame : Origin) (made : Nat) :
    Shallow loader? (steps + 1) legRoom (isMember.body.stamp next).1
      (.frame frame ["a", "lat"] [a, .list origin vs] .empty) { s with made := made } := by
  induction vs generalizing origin frame made with
  | nil => exact Shallow.value (leg_part rfl (leg_done rfl))
  | cons v vs ih =>
    obtain ⟨hv, hvs⟩ := List.forall_mem_cons.mp hvs
    let t : State := { s with made := made }
    let ev := within loader? (steps + 1) legRoom
    let env : Env := .frame frame ["a", "lat"] [a, .list origin (v :: vs)] .empty
    obtain ⟨null, found, o, o', hform, hnull, b, hfound⟩ : ∃ null found o o',
        Form.ofExpr? (isMember.body.stamp next).1 = .ok (.cond
          [(null, .bool false), (found, .bool true)]
          (some (.list o [.symbol "member?", .symbol "a",
            .list o' [.symbol "cdr", .symbol "lat"]]))) ∧
        ev.run Room.part null env t = .ok (.bool false) t ∧
        ∃ b, ev.run Room.part found env t = .ok (.bool b) t :=
      ⟨_, _, _, _, rfl, rfl, isFound_run ha hv vs origin frame _ _⟩
    let again : Value := .list o [.symbol "member?", .symbol "a",
      .list o' [.symbol "cdr", .symbol "lat"]]
    have hbefore : Passes ev env (· = .bool false) [null] t t := .cons hnull rfl .nil
    -- the answer is that it is found, or the call is left
    cases b with
    | true =>
      have hleaves : Leaves ev env (.cond ([(null, .bool false)] ++ (found, .bool true) :: [])
          (some again)) (.bool true) t t := .answer hbefore hfound ⟨nofun, nofun⟩
      exact Shallow.value (leg_part (step_of_leaves (by decide) hform hleaves) (leg_done rfl))
    | false =>
      have hleaves : Leaves ev env (.cond [(null, .bool false), (found, .bool true)] (some again))
          again t t := .otherwise (hbefore.append (.cons hfound rfl .nil))
      have hargs : operands (within loader? (steps + 1) (legRoom - Room.part)) env
          [.symbol "a", .list o' [.symbol "cdr", .symbol "lat"]] t
            = .ok (some [a, .list (.made made) vs]) { t with made := made + 1 } := by
        cases a with
        | quit => exact absurd rfl ha
        | _ => rfl
      refine Shallow.call (leg_part (step_of_leaves (by decide) hform hleaves)
        (leg_call isMember ⟨rfl, rfl, rfl⟩ h (by decide) hargs rfl)) ?_
      exact ih hvs _ _ _

/-- Each round of a counting function asks one question and calls itself. -/
theorem counting_shallow {name step : String} {δ : Int} (hcounts : Counts name step δ)
    (hstep : step = "add1" ∨ step = "sub1")
    (h : s.store.get? name = some ((counting name step).function next)) (m : Nat) (n : Int)
    (frame : Origin) (made : Nat) :
    Shallow loader? (steps + 1) legRoom ((counting name step).body.stamp next).1
      (.frame frame ["n", "m"] [.int n, .int m] .empty) { s with made := made } := by
  induction m generalizing n frame made with
  | zero => exact Shallow.value (leg_part rfl (leg_done rfl))
  | succ m ih =>
    let t : State := { s with made := made }
    let env : Env := .frame frame ["n", "m"] [.int n, .int (m + 1 : Nat)] .empty
    -- m is not zero, so the answer of the else clause follows, which is the call
    obtain ⟨o, o₁, o₂, hpart⟩ : ∃ o o₁ o₂, Eval.step loader? (within loader? (steps + 1) legRoom)
        ((counting name step).body.stamp next).1 env t
          = .ok (.part (.list o [.symbol name, .list o₁ [.symbol step, .symbol "n"],
              .list o₂ [.symbol "sub1", .symbol "m"]])) t := ⟨_, _, _, rfl⟩
    -- one of the two numbers is counted down, the other one up or down
    obtain ⟨n', hargs⟩ : ∃ n', operands (within loader? (steps + 1) (legRoom - Room.part)) env
        [.list o₁ [.symbol step, .symbol "n"], .list o₂ [.symbol "sub1", .symbol "m"]] t
          = .ok (some [.int n', .int m]) t := by
      have hpred : ((m + 1 : Nat) : Int) - 1 = m := by omega
      rw [← hpred]
      rcases hstep with rfl | rfl
      · exact ⟨n + 1, rfl⟩
      · exact ⟨n - 1, rfl⟩
    refine Shallow.call (leg_part hpart (leg_call (counting name step) (hcounts.topLevel _ _ _) h
      (by decide) hargs rfl)) ?_
    exact ih n' _ _

/-! ### Calls from the top level -/

/-- Quoted values come to themselves. -/
theorem operands_quoteOf (env : Env) (args : List Value) (hargs : ∀ v ∈ args, v ≠ .quit) :
    operands (within loader? (steps + 1) legRoom) env (args.map .quoteOf) s
      = .ok (some args) s := by
  induction args with
  | nil => rfl
  | cons v args ih =>
    obtain ⟨hv, hargs⟩ := List.forall_mem_cons.mp hargs
    have hquote : (within loader? (steps + 1) legRoom).run Room.operand (.quoteOf v) env s
        = .ok v s := rfl
    have hrest := ih hargs
    rw [List.map_cons, operands, Run.bind_apply, hquote]
    cases v with
    | quit => exact absurd rfl hv
    | _ =>
      dsimp only
      rw [Run.bind_apply, hrest]
      rfl

/-- So a call of a function with shallow rounds is shallow. -/
theorem callOf_shallow {d : Definition} {env : Env} {args : List Value}
    (hname : TopLevel d.name env) (hd : s.store.get? d.name = some (d.function next))
    (hargs : ∀ v ∈ args, v ≠ .quit) (hlength : args.length = d.formals.length)
    (hbody : ∀ frame made, Shallow loader? (steps + 1) legRoom (d.body.stamp next).1
      (.frame frame d.formals args .empty) { s with made := made }) :
    Shallow loader? (steps + 1) legRoom (.callOf d.name args) env s :=
  Shallow.call (leg_call d hname hd (by decide) (operands_quoteOf env args hargs) hlength)
    (hbody _ _)

/-- `lat?` completes in the fixed room. -/
theorem isLat_completes {env : Env} (hname : TopLevel isLat.name env) (hd : s.store.Binds isLat)
    (origin : Origin) (vs : List Value) (hvs : ∀ v ∈ vs, Primitive.isAtomValue v = true) :
    CompletesIn loader? (2 * legRoom + 5) (.callOf "lat?" [.list origin vs]) env s
      (.bool true) := by
  have hquit : ∀ v ∈ vs, v ≠ .quit := by
    rintro _ hv rfl
    cases hvs _ hv
  have hall : vs.all Primitive.isAtomValue = true := List.all_eq_true.mpr hvs
  have hcomes : ComesTo loader? (.callOf "lat?" [.list origin vs]) env s
      (· = .ok (.bool (vs.all Primitive.isAtomValue))) :=
    ComesTo.call_one hname rfl hd nofun (fun _ h => nomatch h)
      fun next frame h => isLat_ends h vs hquit origin frame
  rw [hall] at hcomes
  obtain ⟨next, hnext⟩ := hd
  refine Shallow.completes hcomes fun steps => callOf_shallow hname hnext ?_ rfl ?_
  · exact List.forall_mem_singleton.mpr nofun
  · exact isLat_shallow hnext vs hvs origin

/-- So does `member?`. -/
theorem isMember_completes {env : Env} (hname : TopLevel isMember.name env)
    (hd : s.store.Binds isMember) {a : Value} (ha : a ≠ .quit) (origin : Origin) (vs : List Value)
    (hvs : ∀ v ∈ vs, Primitive.isAtomValue v = true) :
    CompletesIn loader? (2 * legRoom + 5) (.callOf "member?" [a, .list origin vs]) env s
      (.bool (vs.any (·.same a))) := by
  have hquit : ∀ v ∈ vs, v ≠ .quit := by
    rintro _ hv rfl
    cases hvs _ hv
  have hcomes : ComesTo loader? (.callOf "member?" [a, .list origin vs]) env s
      (· = .ok (.bool (vs.any (·.same a)))) :=
    ComesTo.call_two hname rfl hd ha nofun (fun _ h => nomatch h)
      fun next frame h => isMember_ends ha h vs hquit origin frame
  obtain ⟨next, hnext⟩ := hd
  refine Shallow.completes hcomes fun steps => callOf_shallow hname hnext ?_ rfl ?_
  · exact List.forall_mem_cons.mpr ⟨ha, List.forall_mem_singleton.mpr nofun⟩
  · exact isMember_shallow hnext ha vs hvs origin

/-- So do the counting functions. -/
theorem counting_completes {env : Env} {name step : String} {δ : Int}
    (hcounts : Counts name step δ) (hstep : step = "add1" ∨ step = "sub1")
    (hname : TopLevel name env) (hd : s.store.Binds (counting name step)) (n : Int) (m : Nat) :
    CompletesIn loader? (2 * legRoom + 5) (.callOf name [.int n, .int m]) env s
      (.int (n + δ * m)) := by
  have hcomes : ComesTo loader? (.callOf name [.int n, .int m]) env s
      (· = .ok (.int (n + δ * m))) :=
    ComesTo.call_two (d := counting name step) hname rfl hd nofun nofun (fun _ h => nomatch h)
      fun next frame h => counting_ends hcounts h m n frame
  obtain ⟨next, hnext⟩ := hd
  refine Shallow.completes hcomes fun steps =>
    callOf_shallow (d := counting name step) hname hnext ?_ rfl ?_
  · exact List.forall_mem_cons.mpr ⟨nofun, List.forall_mem_singleton.mpr nofun⟩
  · exact counting_shallow hcounts hstep hnext m n

/-- Tail calls take no room.

    A form leaves the evaluation to one of its expressions just where this stands in tail position
    and has been got to, and to a body just where a closure has been called.

    Every evaluation that no limit stops is a chain of legs, each but the last one up to a call.
    What it needs is the room of the leg that reaches furthest down; with that, it comes to its end
    unless there are too few steps, and with less, a limit stops it.  So the room depends on what
    the legs need each for itself, and not on how many there are.

    In particular there is a room in which the loops of the library complete for every list of
    atoms and for all numbers. -/
theorem tail_calls_take_no_room :
    (∀ (loader? : Option Loader) (ev : Evaluator) (env : Env) (form : Form) (s t : State),
      (∀ rest, formStep loader? ev env form s = .ok (.part rest) t
        ↔ Leaves ev env form rest s t) ∧
      ∀ body inner, formStep loader? ev env form s = .ok (.body body inner) t
        ↔ Calls ev env form body inner s t) ∧
    (∀ (loader? : Option Loader) (steps : Nat) (expr : Value) (env : Env) (s : State),
      (∀ room, Run.Settled (evaluate loader? steps room 0 expr env s) → ∃ legs,
        Chain loader? steps expr env s legs (evaluate loader? steps room 0 expr env s)) ∧
      ∀ legs r, Chain loader? steps expr env s legs r →
        (∀ room, roomFor legs ≤ room →
          (stepsFor legs ≤ steps → evaluate loader? steps room 0 expr env s = r) ∧
          (steps < stepsFor legs → ∃ t,
            evaluate loader? steps room 0 expr env s = .error .tooLong t)) ∧
        (∀ room, room < roomFor legs →
          ¬ Run.Settled (evaluate loader? steps room 0 expr env s)) ∧
        ∀ depth, (∀ l ∈ legs, l.depth ≤ depth) → roomFor legs ≤ 2 * depth + 5) ∧
    ∃ depth, ∀ (loader? : Option Loader) (s : State) (env : Env),
      ((∀ name ∈ listNames, s.store.HasFrom lists name) →
        (∀ name ∈ listNames, env.lookup? name = none) →
        ∀ (origin : Origin) (vs : List Value), (∀ v ∈ vs, Primitive.isAtomValue v = true) →
          CompletesIn loader? depth (.callOf "lat?" [.list origin vs]) env s (.bool true) ∧
          ∀ a, a ≠ .quit → CompletesIn loader? depth (.callOf "member?" [a, .list origin vs]) env s
            (.bool (vs.any (·.same a)))) ∧
      ((∀ name ∈ numberNames, s.store.HasFrom numbers name) →
        (∀ name ∈ numberNames, env.lookup? name = none) →
        ∀ (n : Int) (m : Nat),
          CompletesIn loader? depth (.callOf "o+" [.int n, .int m]) env s (.int (n + m)) ∧
          CompletesIn loader? depth (.callOf "o-" [.int n, .int m]) env s (.int (n - m))) := by
  refine ⟨fun loader? ev env form s t => ⟨fun rest => formStep_eq_part_iff, fun body inner =>
    formStep_eq_body_iff⟩, fun loader? steps expr env s => ⟨fun room => evaluate_chain, ?_⟩,
    2 * legRoom + 5, fun loader? s env => ⟨?_, ?_⟩⟩
  · intro legs r hchain
    exact ⟨fun room hroom => hchain.evaluate_eq hroom, fun room hroom => hchain.not_settled hroom,
      fun depth hlegs => hchain.roomFor_le hlegs⟩
  · intro hstore henv origin vs hvs
    have hready : ∀ d ∈ listFunctions, TopLevel d.name env ∧ s.store.Binds d := fun d hd =>
      TopLevel.of_module lists_madeOf (by decide) hstore henv hd
    obtain ⟨hlat, hlatBinds⟩ := hready isLat (by simp [listFunctions])
    obtain ⟨hmember, hmemberBinds⟩ := hready isMember (by simp [listFunctions])
    exact ⟨isLat_completes hlat hlatBinds origin vs hvs, fun a ha =>
      isMember_completes hmember hmemberBinds ha origin vs hvs⟩
  · intro hstore henv n m
    have hready : ∀ d ∈ numberFunctions, TopLevel d.name env ∧ s.store.Binds d := fun d hd =>
      TopLevel.of_module numbers_madeOf (by decide) hstore henv hd
    obtain ⟨hplus, hplusBinds⟩ := hready plus (by simp [numberFunctions])
    obtain ⟨hminus, hminusBinds⟩ := hready minus (by simp [numberFunctions])
    -- both functions count the second number down, in steps of one and minus one
    have hsum : n + (m : Int) = n + 1 * m := by omega
    have hdifference : n - (m : Int) = n + -1 * m := by omega
    rw [hsum, hdifference]
    exact ⟨counting_completes plus_counts (Or.inl rfl) hplus hplusBinds n m,
      counting_completes minus_counts (Or.inr rfl) hminus hminusBinds n m⟩

/-- `((lambda (x) x) 1)`, and the loops in a fresh system that has loaded their module. -/
theorem tail_calls_take_no_room_small :
    let expr : Value := .list .unknown [.list .unknown [.symbol "lambda",
      .list .unknown [.symbol "x"], .symbol "x"], .int 1]
    let t : State := { State.initial with made := 1 }
    (∃ legs, Chain none 2 expr .empty .initial legs (.ok (.int 1) t) ∧ roomFor legs = 5 ∧
      (∀ room, 5 ≤ room → evaluate none 2 room 0 expr .empty .initial = .ok (.int 1) t) ∧
      ∀ room, room < 5 → ¬ Run.Settled (evaluate none 2 room 0 expr .empty .initial)) ∧
    ∃ depth,
      CompletesIn none depth (.callOf "lat?" [.ofItems [.symbol "a", .int 1]]) .empty
        (State.withModule lists) (.bool true) ∧
      CompletesIn none depth (.callOf "member?" [.int 1, .ofItems [.symbol "a", .int 1]]) .empty
        (State.withModule lists) (.bool true) ∧
      CompletesIn none depth (.callOf "o+" [.int (-2), .int 3]) .empty (State.withModule numbers)
        (.int 1) ∧
      CompletesIn none depth (.callOf "o-" [.int (-2), .int 3]) .empty (State.withModule numbers)
        (.int (-5)) := by
  intro expr t
  obtain ⟨-, hchains, depth, hloops⟩ := tail_calls_take_no_room
  refine ⟨?_, depth, ?_⟩
  · obtain ⟨hevery, hneeds⟩ := hchains none 2 expr .empty .initial
    have hfive : evaluate none 2 5 0 expr .empty .initial = .ok (.int 1) t := rfl
    -- five is enough and four is not, so the legs take five
    have hfour : ¬ Run.Settled (evaluate none 2 4 0 expr .empty .initial) := nofun
    have hsettled : Run.Settled (evaluate none 2 5 0 expr .empty .initial) := by
      rw [hfive]
      trivial
    obtain ⟨legs, hlegs⟩ := hevery 5 hsettled
    rw [hfive] at hlegs
    obtain ⟨hmore, hless, -⟩ := hneeds legs _ hlegs
    have hle : roomFor legs ≤ 5 := by
      by_contra hc
      exact hless 5 (by omega) hsettled
    have hsteps : stepsFor legs ≤ 2 := by
      by_contra hc
      obtain ⟨u, hu⟩ := (hmore 5 hle).2 (by omega)
      rw [hfive] at hu
      cases hu
    have hge : 5 ≤ roomFor legs := by
      by_contra hc
      have hend := (hmore 4 (by omega)).1 hsteps
      rw [hend] at hfour
      exact hfour trivial
    exact ⟨legs, hlegs, by omega, fun room hroom => (hmore room (by omega)).1 hsteps,
      fun room hroom => hless room (by omega)⟩
  · have hatoms : ∀ v ∈ [Value.symbol "a", .int 1], Primitive.isAtomValue v = true := by
      simp [Primitive.isAtomValue]
    obtain ⟨hlists, -⟩ := hloops none (State.withModule lists) .empty
    obtain ⟨-, hnumbers⟩ := hloops none (State.withModule numbers) .empty
    obtain ⟨hlat, hmember⟩ := hlists
      (fun name _ => State.withModule_hasFrom lists_madeOf (by decide) lists_isPlain name)
      (fun _ _ => rfl) .unknown [.symbol "a", .int 1] hatoms
    obtain ⟨hplus, hminus⟩ := hnumbers
      (fun name _ => State.withModule_hasFrom numbers_madeOf (by decide) numbers_isPlain name)
      (fun _ _ => rfl) (-2) 3
    exact ⟨hlat, hmember (.int 1) nofun, hplus, hminus⟩

end Library

end SmallScheme
