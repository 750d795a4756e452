/-
  CHAINS OF TAIL CALLS.

  The evaluation of an expression goes through the parts that are left of it, one inside of the
  other, up to a value, to a fault or to the call of a closure.  That is a leg.  It needs room, for
  all that is evaluated on the way and for the forms that it has gone into, and `leg` says what
  becomes of it in so much room.

  After a call the body of the closure is left, and the next leg begins.  The first body is
  evaluated below the forms that have been gone into; each one that follows takes the place of
  the one before.  So the room for a chain of calls is the largest that one of its legs needs
  (`Chain.evaluate_eq`, `Chain.not_settled`), and it does not matter how many there are.

  Structure:
    1. Steps in the same room.  A step asks the evaluator for nothing but what is deeper
       (`inward`), so what it does depends on the room that is left and on nothing else
       (`stepIn_eq`), and more room does not change it (`step_mono`).
    2. Legs.  A leg is settled from some least room on (`Leg.Takes`, `Leg.exists_takes`).
    3. One leg after the other.  `follow_of_leg` takes the first leg off an evaluation, and
       `Chain` is what is left when all of them are taken off: every evaluation that no limit
       stops is a chain (`evaluate_chain`).
    4. The room that a chain needs, from both sides.

  The least room of a leg is found by search and not by a recursion of its own.  It is only named
  to take the maximum of it, and what is said of it (`enough`, `less`) is what the search gives.
-/
import Mathlib.Data.Nat.Find
import SmallScheme.Proofs.LoadedText
import SmallScheme.Proofs.TailPosition

namespace SmallScheme

/-! ## Steps in the same room -/

/-- The evaluator that is asked for nothing but what is deeper.  Steps ask for nothing else, so it
    does the same steps. -/
def Evaluator.inward (ev : Evaluator) : Evaluator := ⟨ev.room, fun below => ev.run (below - 1 + 1)⟩

/-- The loader evaluates every form of a file deeper than it was called itself. -/
theorem Loader.runForms_inward (ev : Evaluator) (forms : List Value) :
    runForms ev.inward forms = runForms ev forms := by
  induction forms with
  | nil => rfl
  | cons form forms ih =>
    rw [runForms, runForms, ih]
    rfl

/-- So a module is loaded the same. -/
theorem Loader.load_inward (loader : Loader) (ev : Evaluator) (name : String) :
    loader.load ev.inward name = loader.load ev name := by
  have hscript : ∀ script, runScript ev.inward script = runScript ev script := by
    intro script
    rw [runScript, runScript, runForms_inward]
  have hpath : ∀ path, loader.loadPath ev.inward path = loader.loadPath ev path := by
    intro path
    simp only [loadPath, hscript]
    rfl
  simp only [load, hpath]
  rfl

namespace Eval

variable {loader? : Option Loader} {steps : Nat}

section Inward

variable (ev : Evaluator) (env : Env)

/-- Operands are evaluated deeper, one after the other. -/
theorem operands_inward (exprs : List Value) :
    operands ev.inward env exprs = operands ev env exprs := by
  induction exprs with
  | nil => rfl
  | cons expr exprs ih =>
    rw [operands, operands, ih]
    rfl

/-- So is every part of a conjunction but the last one, which is left. -/
theorem conjunction_inward (exprs : List Value) :
    conjunction ev.inward env exprs = conjunction ev env exprs := by
  induction exprs with
  | nil => rfl
  | cons expr exprs ih =>
    cases exprs with
    | nil => rfl
    | cons next others =>
      simp only [conjunction, ih]
      rfl

/-- So is every part of a disjunction but the last one. -/
theorem disjunction_inward (exprs : List Value) :
    disjunction ev.inward env exprs = disjunction ev env exprs := by
  induction exprs with
  | nil => rfl
  | cons expr exprs ih =>
    cases exprs with
    | nil => rfl
    | cons next others =>
      simp only [disjunction, ih]
      rfl

/-- So are the conditions of a choice. -/
theorem choice_inward (otherwise? : Option Value) (clauses : List (Value × Value)) :
    choice ev.inward env otherwise? clauses = choice ev env otherwise? clauses := by
  induction clauses with
  | nil => rfl
  | cons clause clauses ih =>
    rw [choice, choice, ih]
    rfl

/-- So are the expressions of a sequence, but for the last one. -/
theorem sequence_inward (first : Value) (others : List Value) :
    sequence ev.inward env first others = sequence ev env first others := by
  induction others generalizing first with
  | nil => rfl
  | cons next others ih =>
    rw [sequence, sequence, ih]
    rfl

/-- What is done for a form asks for nothing but what is deeper. -/
theorem formStep_inward (form : Form) :
    formStep loader? ev.inward env form = formStep loader? ev env form := by
  cases form with
  | cond clauses otherwise? => exact choice_inward ev env otherwise? clauses
  | and exprs => exact conjunction_inward ev env exprs
  | or exprs => exact disjunction_inward ev env exprs
  | begin first others => exact sequence_inward ev env first others
  | require name =>
    have hload : require loader? ev.inward name = require loader? ev name := by
      cases loader? with
      | none => rfl
      | some loader => exact loader.load_inward ev name
    rw [formStep, formStep, hload]
  | call head exprs =>
    rw [formStep, formStep, operands_inward]
    rfl
  | _ => rfl

end Inward

/-- Evaluators with the same room that do the same with all that is deeper do the same steps. -/
theorem step_congr {ev ev' : Evaluator} (hroom : ev.room = ev'.room)
    (hrun : ∀ below, ev.run (below + 1) = ev'.run (below + 1)) (expr : Value) (env : Env) :
    step loader? ev expr env = step loader? ev' expr env := by
  have hinward : ev.inward = ev'.inward := by
    rw [Evaluator.inward, Evaluator.inward, hroom]
    simp only [hrun]
  have hform : ∀ form, formStep loader? ev env form = formStep loader? ev' env form := by
    intro form
    rw [← formStep_inward ev, hinward, formStep_inward]
  simp only [step, hroom, hform]

/-- A step in an evaluation is a step in the room that is left. -/
theorem stepIn_eq (room used : Nat) (expr : Value) (env : Env) :
    stepIn loader? steps room used expr env
      = step loader? (within loader? steps (room + 1 - used)) expr env := by
  have hroom : ((stepping loader? steps room).deeper used).room
      = (within loader? steps (room + 1 - used)).room := rfl
  have hdeeper : ∀ below, ((stepping loader? steps room).deeper used).run (below + 1)
      = (within loader? steps (room + 1 - used)).run (below + 1) := by
    intro below
    funext expr env
    have hleft : room - (used + (below + 1) - 1) = room + 1 - used - (below + 1) := by omega
    rw [stepping_run, hleft]
    exact (evaluate_below _ _ expr env).symm
  exact step_congr hroom hdeeper expr env

/-- More room does not change a step. -/
theorem step_mono {room room' : Nat} (h : room ≤ room') (expr : Value) (env : Env) :
    Run.Within (step loader? (within loader? steps room) expr env)
      (step loader? (within loader? steps room') expr env) := by
  by_cases h0 : room = 0
  · subst h0
    exact Run.Within.of_limit rfl _
  · have hsub : ∀ below expr inner, Run.Within (evaluate loader? steps room below expr inner)
        (evaluate loader? steps room' below expr inner) := by
      intro below expr inner
      rw [evaluate_below room, evaluate_below room']
      exact evaluate_mono (Nat.sub_le_sub_right h below) expr inner
    have h0' : room' ≠ 0 := by omega
    -- a step and a whole evaluation go the same way, so this is a case of what is known of ways
    let w := Way.ofStep loader? (within loader? steps room)
    let w' := Way.ofStep loader? (within loader? steps room')
    have heval : Run.Within (w.eval expr env >>= pure) (w'.eval expr env >>= pure) := by
      refine Way.eval_within h ?_ ?_ ?_ ?_ ?_ expr
      · exact fun below expr inner _ => hsub below expr inner
      · exact fun name => require_within ⟨h, fun below expr env _ => hsub below expr env⟩ name
      · exact fun expr => Run.Within.refl _
      · exact fun body inner => Run.Within.refl _
      · exact fun v => Run.Within.refl _
    rw [bind_pure, bind_pure] at heval
    rw [Way.step_eq_eval loader? (within loader? steps room) env h0 expr,
      Way.step_eq_eval loader? (within loader? steps room') env h0' expr]
    exact heval

/-! ## Legs -/

/-- Goes through the parts that are left, one inside of the other, up to a value, a fault or a
    call: how many forms have been gone into, and what it ends with. -/
def leg (loader? : Option Loader) (steps room : Nat) (expr : Value) (env : Env) (s : State) :
    Nat × EStateM.Result Fault State Answer :=
  if _h : room = 0 then (0, .error .tooDeep s)
  else
    match step loader? (within loader? steps room) expr env s with
    | .ok (.done v) t => (0, .ok (.value v) t)
    | .ok (.body body inner) t => (0, .ok (.call body inner) t)
    | .ok (.part rest) t =>
      let (nested, r) := leg loader? steps (room - Room.part) rest env t
      (nested + 1, r)
    | .error fault t => (0, .error fault t)
termination_by room
decreasing_by
  have hpart : Room.part = 2 := rfl
  omega

/-- A leg begins with a step, and without room there is no step. -/
theorem leg_eq (loader? : Option Loader) (steps room : Nat) (expr : Value) (env : Env) (s : State) :
    leg loader? steps room expr env s
      = match step loader? (within loader? steps room) expr env s with
        | .ok (.done v) t => (0, .ok (.value v) t)
        | .ok (.body body inner) t => (0, .ok (.call body inner) t)
        | .ok (.part rest) t =>
          let (nested, r) := leg loader? steps (room - Room.part) rest env t
          (nested + 1, r)
        | .error fault t => (0, .error fault t) := by
  rw [leg]
  split
  · next h =>
    subst h
    rfl
  · rfl

variable {room : Nat} {expr : Value} {env : Env} {s t : State}

/-- More room does not change a leg. -/
theorem leg_mono {room' : Nat} (h : room ≤ room')
    (hsettled : Run.Settled (leg loader? steps room expr env s).2) :
    leg loader? steps room' expr env s = leg loader? steps room expr env s := by
  induction room using Nat.strongRecOn generalizing room' expr s with
  | ind room ih =>
    rw [leg_eq] at hsettled
    have hstep : Run.Settled (step loader? (within loader? steps room) expr env s) := by
      cases hstep : step loader? (within loader? steps room) expr env s with
      | ok reply t => trivial
      | error fault t =>
        rw [hstep] at hsettled
        exact hsettled
    rw [leg_eq loader? steps room', leg_eq loader? steps room, step_mono h expr env s hstep]
    cases hreply : step loader? (within loader? steps room) expr env s with
    | error fault t => rfl
    | ok reply t =>
      rw [hreply] at hsettled
      cases reply with
      | done v => rfl
      | body body inner => rfl
      | part rest =>
        have hpart : Room.part = 2 := rfl
        -- without room there would be no reply
        have hroom : room ≠ 0 := by
          rintro rfl
          cases hreply
        have hrest := ih (room - Room.part) (by omega) (Nat.sub_le_sub_right h _) hsettled
        dsimp only
        rw [hrest]

/-- A leg needs more room than the forms take that it goes into. -/
theorem leg_nested_lt (hsettled : Run.Settled (leg loader? steps room expr env s).2) :
    Room.part * (leg loader? steps room expr env s).1 < room := by
  induction room using Nat.strongRecOn generalizing expr s with
  | ind room ih =>
    have hroom : 0 < room := by
      refine Nat.pos_of_ne_zero ?_
      rintro rfl
      rw [leg_eq] at hsettled
      cases hsettled
    rw [leg_eq] at hsettled ⊢
    cases hreply : step loader? (within loader? steps room) expr env s with
    | error fault t => exact hroom
    | ok reply t =>
      rw [hreply] at hsettled
      cases reply with
      | part rest =>
        have hpart : Room.part = 2 := rfl
        -- the form that is gone into takes the room of a part
        have hrest := ih (room - Room.part) (by omega) hsettled
        dsimp only
        rw [Nat.mul_add]
        omega
      | _ => exact hroom

/-- The room that a leg needs, and how many forms it goes into. -/
structure Leg where
  depth : Nat
  nested : Nat

/-- From the expression, the leg leads to this end, for which it needs so much room: in less, a
    limit stops it. -/
structure Leg.Takes (loader? : Option Loader) (steps : Nat) (l : Leg) (expr : Value) (env : Env)
    (s : State) (r : EStateM.Result Fault State Answer) : Prop where
  settled : Run.Settled r
  enough : ∀ room, l.depth ≤ room → leg loader? steps room expr env s = (l.nested, r)
  less : ∀ room, room < l.depth → ¬ Run.Settled (leg loader? steps room expr env s).2

/-- What a leg leads to, it leads to with some least room. -/
theorem Leg.exists_takes {nested : Nat} {r : EStateM.Result Fault State Answer}
    (hleg : leg loader? steps room expr env s = (nested, r)) (hr : Run.Settled r) :
    ∃ l : Leg, l.depth ≤ room ∧ l.Takes loader? steps expr env s r := by
  -- a leg that is settled in some room is settled from there on, so the least room is a threshold
  classical
  have hsettled : Run.Settled (leg loader? steps room expr env s).2 := by
    rw [hleg]
    exact hr
  have hex : ∃ room, Run.Settled (leg loader? steps room expr env s).2 := ⟨room, hsettled⟩
  have hle : Nat.find hex ≤ room := Nat.find_min' hex hsettled
  have hleast : leg loader? steps (Nat.find hex) expr env s = (nested, r) := by
    rw [← leg_mono hle (Nat.find_spec hex)]
    exact hleg
  refine ⟨⟨Nat.find hex, nested⟩, hle, hr, fun room' hroom' => ?_,
    fun room' hroom' => Nat.find_min hex hroom'⟩
  rw [leg_mono hroom' (Nat.find_spec hex), hleast]

/-- Every leg needs some room, and more than the forms take that it goes into. -/
theorem Leg.Takes.nested_lt {l : Leg} {r : EStateM.Result Fault State Answer}
    (h : l.Takes loader? steps expr env s r) : Room.part * l.nested < l.depth := by
  have hleg := h.enough l.depth (Nat.le_refl _)
  have hsettled : Run.Settled (leg loader? steps l.depth expr env s).2 := by
    rw [hleg]
    exact h.settled
  have hlt := leg_nested_lt hsettled
  rw [hleg] at hlt
  exact hlt

/-! ## One leg after the other -/

/-- What the evaluation goes on with after a leg. -/
def Answer.reply : Answer → Reply
  | .value v => .done v
  | .call body inner => .body body inner

/-- What becomes of the evaluation after a leg. -/
def goOn (next : Nat → Value → Env → Run Reply) (fuel used : Nat) (body? : Option Nat) (env : Env) :
    EStateM.Result Fault State Answer → EStateM.Result Fault State Value
  | .ok answer t => carryOn next fuel used body? env answer.reply t
  | .error fault t => .error fault t

/-- To follow the steps is to go on after the first leg, unless there are too few. -/
theorem follow_of_leg {used nested : Nat} {r : EStateM.Result Fault State Answer}
    (h : leg loader? steps (room + 1 - used) expr env s = (nested, r)) (fuel : Nat)
    (body? : Option Nat) :
    (fuel ≤ nested → ∃ t, follow (stepIn loader? steps room) fuel used body? expr env s
      = .error .tooLong t) ∧
    (nested < fuel → follow (stepIn loader? steps room) fuel used body? expr env s
      = goOn (stepIn loader? steps room) (fuel - (nested + 1)) (used + Room.part * nested) body?
          env r) := by
  -- on the forms that the leg goes into: each of them takes one of the steps
  induction nested generalizing used fuel expr s with
  | zero =>
    refine ⟨fun hfuel => ?_, fun hfuel => ?_⟩
    · obtain rfl : fuel = 0 := by omega
      exact ⟨s, rfl⟩
    · obtain ⟨fuel, rfl⟩ : ∃ n, fuel = n + 1 := ⟨fuel - 1, by omega⟩
      rw [follow_succ, Run.bind_apply, stepIn_eq]
      rw [leg_eq] at h
      cases hreply : step loader? (within loader? steps (room + 1 - used)) expr env s with
      | error fault t =>
        rw [hreply] at h
        cases h
        rfl
      | ok reply t =>
        rw [hreply] at h
        cases reply with
        | part rest => cases h
        | _ =>
          cases h
          rfl
  | succ nested ih =>
    rw [leg_eq] at h
    cases hreply : step loader? (within loader? steps (room + 1 - used)) expr env s with
    | error fault t =>
      rw [hreply] at h
      cases h
    | ok reply t =>
      rw [hreply] at h
      cases reply with
      | part rest =>
        have hrest : leg loader? steps (room + 1 - (used + Room.part)) rest env t
            = (nested, r) := by
          rw [← Nat.sub_sub]
          cases h
          rfl
        cases fuel with
        | zero => exact ⟨fun _ => ⟨s, rfl⟩, nofun⟩
        | succ fuel =>
          have hgo : follow (stepIn loader? steps room) (fuel + 1) used body? expr env s
              = follow (stepIn loader? steps room) fuel (used + Room.part) body? rest env t := by
            rw [follow_succ, Run.bind_apply, stepIn_eq, hreply]
            rfl
          have hfuel : fuel + 1 - (nested + 1 + 1) = fuel - (nested + 1) := by omega
          have hused : used + Room.part * (nested + 1)
              = used + Room.part + Room.part * nested := by
            rw [Nat.mul_add]
            omega
          obtain ⟨hfew, hmany⟩ := ih hrest fuel
          rw [hgo, hfuel, hused]
          exact ⟨fun hle => hfew (Nat.le_of_succ_le_succ hle),
            fun hlt => hmany (Nat.lt_of_succ_lt_succ hlt)⟩
      | _ => cases h

/-- Where the steps come to an end of their own, so does the first leg, and there are steps for
    it. -/
theorem leg_of_follow_settled {fuel used : Nat} {body? : Option Nat}
    (h : Run.Settled (follow (stepIn loader? steps room) fuel used body? expr env s)) :
    (leg loader? steps (room + 1 - used) expr env s).1 < fuel ∧
      Run.Settled (leg loader? steps (room + 1 - used) expr env s).2 := by
  rcases hleg : leg loader? steps (room + 1 - used) expr env s with ⟨nested, r⟩
  obtain ⟨hfew, hmany⟩ := follow_of_leg hleg fuel body?
  rcases Nat.lt_or_ge nested fuel with hlt | hle
  · rw [hmany hlt] at h
    refine ⟨hlt, ?_⟩
    cases r with
    | ok answer t => trivial
    | error fault t => exact h
  · obtain ⟨t, ht⟩ := hfew hle
    rw [ht] at h
    cases h

/-- The evaluation of an expression, one leg after the other.  Each leg but the last one leads to
    a call, and the next one begins with the body. -/
inductive Chain (loader? : Option Loader) (steps : Nat) :
    Value → Env → State → List Leg → EStateM.Result Fault State Value → Prop where
  | value {l : Leg} {expr v : Value} {env : Env} {s t : State}
    (h : l.Takes loader? steps expr env s (.ok (.value v) t)) :
    Chain loader? steps expr env s [l] (.ok v t)
  | fault {l : Leg} {expr : Value} {env : Env} {s t : State} {fault : Fault}
    (h : l.Takes loader? steps expr env s (.error fault t)) :
    Chain loader? steps expr env s [l] (.error fault t)
  | call {l : Leg} {legs : List Leg} {expr body : Value} {env inner : Env} {s t : State}
    {r : EStateM.Result Fault State Value}
    (h : l.Takes loader? steps expr env s (.ok (.call body inner) t))
    (hrest : Chain loader? steps body inner t legs r) :
    Chain loader? steps expr env s (l :: legs) r

/-- How far down the legs of a chain reach.  The first body is below the forms that the top leg has
    gone into; all that follow are in the same place, one further down. -/
def reaches : List Leg → List Nat
  | [] => []
  | [top] => [top.depth]
  | top :: first :: others =>
    let below := Room.part * top.nested + Room.body
    top.depth :: (below + first.depth) :: others.map fun l => below + 1 + l.depth

/-- The room that a chain needs. -/
def roomFor (legs : List Leg) : Nat := (reaches legs).foldr max 0

/-- The steps that a chain needs. -/
def stepsFor (legs : List Leg) : Nat := legs.foldr (fun l steps => l.nested + 1 + steps) 0

/-- How far down legs reach from the place where the first of them begins, where the bodies have a
    place of their own once one has been entered. -/
def reachesFrom (used : Nat) (body? : Option Nat) : List Leg → List Nat
  | [] => []
  | l :: legs =>
    (used + l.depth) ::
      match body? with
      | some size => reachesFrom size (some size) legs
      | none =>
        let below := used + Room.part * l.nested + Room.body
        reachesFrom below (some (below + 1)) legs

/-- The last leg reaches as far as it is deep, wherever the bodies have their place. -/
theorem reachesFrom_singleton (used : Nat) (body? : Option Nat) (l : Leg) :
    reachesFrom used body? [l] = [used + l.depth] := by
  cases body? <;> rfl

/-- Where the bodies have a place, all legs begin there. -/
theorem reachesFrom_some (size : Nat) (legs : List Leg) :
    reachesFrom size (some size) legs = legs.map fun l => size + l.depth := by
  induction legs with
  | nil => rfl
  | cons l legs ih => rw [reachesFrom, ih, List.map_cons]

/-- From the top the legs reach as far as was said. -/
theorem reachesFrom_zero (legs : List Leg) : reachesFrom 0 none legs = reaches legs := by
  match legs with
  | [] => rfl
  | [top] => rw [reachesFrom, Nat.zero_add, reaches, reachesFrom]
  | top :: first :: others =>
    rw [reachesFrom, Nat.zero_add, Nat.zero_add, reachesFrom, reachesFrom_some, reaches]

section Chains

variable {legs : List Leg} {r : EStateM.Result Fault State Value}

/-- A chain ends in what no limit stops. -/
theorem Chain.settled (h : Chain loader? steps expr env s legs r) : Run.Settled r := by
  induction h with
  | value h => trivial
  | fault h => exact h.settled
  | call h hrest ih => exact ih

/-- There is the room that a leg needs. -/
theorem Leg.Takes.leg_eq {l : Leg} {r : EStateM.Result Fault State Answer}
    (h : l.Takes loader? steps expr env s r) {used : Nat} (hroom : used + l.depth ≤ room + 1) :
    leg loader? steps (room + 1 - used) expr env s = (l.nested, r) :=
  h.enough _ (by omega)

/-- A chain of one leg. -/
theorem follow_last {l : Leg} {result : EStateM.Result Fault State Answer} {used fuel : Nat}
    {body? : Option Nat} (h : l.Takes loader? steps expr env s result)
    (hroom : used + l.depth ≤ room + 1)
    (hr : ∀ next fuel used, goOn next fuel used body? env result = r) :
    (stepsFor [l] ≤ fuel →
      follow (stepIn loader? steps room) fuel used body? expr env s = r) ∧
    (fuel < stepsFor [l] → ∃ t,
      follow (stepIn loader? steps room) fuel used body? expr env s = .error .tooLong t) := by
  obtain ⟨hfew, hmany⟩ := follow_of_leg (h.leg_eq hroom) fuel body?
  have hsteps : stepsFor [l] = l.nested + 1 := rfl
  refine ⟨fun hle => ?_, fun hlt => hfew (by omega)⟩
  rw [hmany (by omega), hr]

/-- In room for all legs, the steps lead to the end of the chain, unless there are too few. -/
theorem Chain.follow_eq (h : Chain loader? steps expr env s legs r) {used fuel : Nat}
    {body? : Option Nat} (hroom : ∀ reach ∈ reachesFrom used body? legs, reach ≤ room + 1) :
    (stepsFor legs ≤ fuel →
      follow (stepIn loader? steps room) fuel used body? expr env s = r) ∧
    (fuel < stepsFor legs → ∃ t,
      follow (stepIn loader? steps room) fuel used body? expr env s = .error .tooLong t) := by
  induction h generalizing used fuel body? with
  | value h => exact follow_last h (hroom _ (List.mem_cons_self ..)) fun _ _ _ => rfl
  | fault h => exact follow_last h (hroom _ (List.mem_cons_self ..)) fun _ _ _ => rfl
  | @call l legs expr body env inner s t r h hrest ih =>
    obtain ⟨hfirst, hothers⟩ := List.forall_mem_cons.mp hroom
    obtain ⟨hfew, hmany⟩ := follow_of_leg (h.leg_eq hfirst) fuel body?
    have hsteps : stepsFor (l :: legs) = l.nested + 1 + stepsFor legs := rfl
    rcases Nat.lt_or_ge l.nested fuel with hlt | hle
    · rw [hmany hlt, hsteps]
      have hrest : (stepsFor legs ≤ fuel - (l.nested + 1) →
            goOn (stepIn loader? steps room) (fuel - (l.nested + 1)) (used + Room.part * l.nested)
              body? env (.ok (.call body inner) t) = r) ∧
          (fuel - (l.nested + 1) < stepsFor legs → ∃ u,
            goOn (stepIn loader? steps room) (fuel - (l.nested + 1)) (used + Room.part * l.nested)
              body? env (.ok (.call body inner) t) = .error .tooLong u) := by
        -- only the first body moves the place where the legs begin
        cases body? with
        | none => exact ih hothers
        | some size => exact ih hothers
      exact ⟨fun hle => hrest.1 (by omega), fun hlt => hrest.2 (by omega)⟩
    · exact ⟨fun _ => by omega, fun _ => hfew hle⟩

/-- Where the steps come to an end of their own, there is the room that the first leg needs. -/
theorem Leg.Takes.le_of_settled {l : Leg} {result : EStateM.Result Fault State Answer}
    {used fuel : Nat} {body? : Option Nat} (h : l.Takes loader? steps expr env s result)
    (hsettled : Run.Settled (follow (stepIn loader? steps room) fuel used body? expr env s)) :
    used + l.depth ≤ room + 1 := by
  have hleg := (leg_of_follow_settled hsettled).2
  have hpos := h.nested_lt
  by_contra hc
  exact h.less (room + 1 - used) (by omega) hleg

/-- Where the steps come to an end of their own, there is the room that all legs need. -/
theorem Chain.le_of_settled (h : Chain loader? steps expr env s legs r) {used fuel : Nat}
    {body? : Option Nat}
    (hsettled : Run.Settled (follow (stepIn loader? steps room) fuel used body? expr env s)) :
    ∀ reach ∈ reachesFrom used body? legs, reach ≤ room + 1 := by
  induction h generalizing used fuel body? with
  | value h | fault h =>
    rw [reachesFrom_singleton]
    exact List.forall_mem_singleton.mpr (h.le_of_settled hsettled)
  | call h hrest ih =>
    have hfirst := h.le_of_settled hsettled
    -- the first leg has ended, so what is left of the steps is settled too
    have hfuel := (leg_of_follow_settled hsettled).1
    rw [h.leg_eq hfirst] at hfuel
    rw [(follow_of_leg (h.leg_eq hfirst) fuel body?).2 hfuel] at hsettled
    refine List.forall_mem_cons.mpr ⟨hfirst, ?_⟩
    cases body? with
    | none => exact ih hsettled
    | some size => exact ih hsettled

/-- What the steps come to, they come to by a chain. -/
theorem exists_chain {used fuel : Nat} {body? : Option Nat}
    (h : Run.Settled (follow (stepIn loader? steps room) fuel used body? expr env s)) :
    ∃ legs, Chain loader? steps expr env s legs
      (follow (stepIn loader? steps room) fuel used body? expr env s) := by
  -- on the steps, of which every leg takes some
  induction fuel using Nat.strongRecOn generalizing used body? expr env s with
  | ind fuel ih =>
    obtain ⟨hfuel, hsettled⟩ := leg_of_follow_settled h
    rcases hleg : leg loader? steps (room + 1 - used) expr env s with ⟨nested, r⟩
    rw [hleg] at hfuel hsettled
    obtain ⟨l, -, htakes⟩ := Leg.exists_takes hleg hsettled
    have hgo := (follow_of_leg hleg fuel body?).2 hfuel
    rw [hgo] at h ⊢
    cases r with
    | error fault t => exact ⟨[l], .fault htakes⟩
    | ok answer t =>
      cases answer with
      | value v => exact ⟨[l], .value htakes⟩
      | call body inner =>
        have hless : fuel - (nested + 1) < fuel := by omega
        cases body? with
        | none =>
          obtain ⟨legs, hlegs⟩ := ih _ hless h
          exact ⟨l :: legs, .call htakes hlegs⟩
        | some size =>
          obtain ⟨legs, hlegs⟩ := ih _ hless h
          exact ⟨l :: legs, .call htakes hlegs⟩

/-! ## The room that a chain needs -/

/-- There is room for a chain if there is room for each of its legs. -/
theorem roomFor_le_iff {size : Nat} :
    roomFor legs ≤ size ↔ ∀ reach ∈ reachesFrom 0 none legs, reach ≤ size := by
  rw [reachesFrom_zero, roomFor]
  induction reaches legs with
  | nil => exact ⟨fun _ => nofun, fun _ => Nat.zero_le size⟩
  | cons reach others ih => rw [List.foldr_cons, Nat.max_le, ih, List.forall_mem_cons]

/-- In room for the largest of its legs, an evaluation comes to the end of its chain, unless there
    are too few steps. -/
theorem Chain.evaluate_eq (h : Chain loader? steps expr env s legs r)
    (hroom : roomFor legs ≤ room) :
    (stepsFor legs ≤ steps → evaluate loader? steps room 0 expr env s = r) ∧
    (steps < stepsFor legs → ∃ t,
      evaluate loader? steps room 0 expr env s = .error .tooLong t) := by
  have hreach := roomFor_le_iff.mp hroom
  have hpos : 0 < room := by
    cases h with
    | value h | fault h | call h hrest =>
      have hdepth := h.nested_lt
      have hle := hreach _ (List.mem_cons_self ..)
      omega
  obtain ⟨room, rfl⟩ : ∃ small, room = small + 1 := ⟨room - 1, by omega⟩
  exact h.follow_eq hreach

/-- In less room than for the largest of its legs, a limit stops it. -/
theorem Chain.not_settled (h : Chain loader? steps expr env s legs r)
    (hroom : room < roomFor legs) :
    ¬ Run.Settled (evaluate loader? steps room 0 expr env s) := by
  intro hsettled
  cases room with
  | zero => cases hsettled
  | succ room =>
    have hle := roomFor_le_iff.mpr (h.le_of_settled hsettled)
    omega

/-- Every evaluation that no limit stops is a chain. -/
theorem evaluate_chain (h : Run.Settled (evaluate loader? steps room 0 expr env s)) :
    ∃ legs, Chain loader? steps expr env s legs (evaluate loader? steps room 0 expr env s) := by
  cases room with
  | zero => cases h
  | succ room => exact exists_chain h

end Chains

end Eval

end SmallScheme
