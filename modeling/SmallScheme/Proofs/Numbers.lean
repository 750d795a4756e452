/-
  THE BUNDLED FUNCTIONS ON NUMBERS compute what they are meant to.

  `o+`, `o-` and `expt` count their second argument down to zero, and `addtup` goes down a list of
  numbers; what the bodies come to is shown by induction on that.  A negative number is never
  counted down to zero.  So with such an argument the functions call themselves again and again,
  and every run is stopped by a limit.

  Structure:
    1. Counting: the primitives that the functions count with.
    2. Sum and difference.  The two functions differ in one primitive, so they are one function
       (`counting`) with two steps (`plus_counts`, `minus_counts`).
    3. Powers.  Here the call is not in tail position, but an operand of the product.
    4. The sum of a list.
    5. All of them, in any store that has them from the bundled module.

  Functions that count have two statements: what they come to when the number is counted down to
  zero (`counting_ends`, `expt_ends`), and that they never do when it is negative
  (`counting_strays`, `expt_strays`).
-/
import Mathlib.Algebra.Ring.Int.Defs
import SmallScheme.Proofs.Endless

namespace SmallScheme

open Eval

namespace Eval

variable {loader? : Option Loader} {s : State} {env : Env} {x : String} {n : Int}
  {origin : Origin}

/-! ## Counting -/

/-- A number is asked whether it is zero. -/
theorem Ends.isZero (h : env.Has x (.int n)) :
    Ends loader? s (.list origin [.symbol "zero?", .symbol x]) env (· = .ok (.bool (n == 0))) := by
  refine Ends.unary .isZero rfl rfl (Yields.variable h nofun) fun v hv => ?_
  subst hv
  exact Run.Comes.pure rfl

/-- Is that zero?  It is. -/
theorem Ends.at_zero (h : env.Has x (.int 0)) :
    Ends loader? s (.list origin [.symbol "zero?", .symbol x]) env (· = .ok (.bool true)) :=
  Ends.isZero h

/-- Is that zero?  It is not. -/
theorem Ends.off_zero (h : env.Has x (.int n)) (hn : n ≠ 0) :
    Ends loader? s (.list origin [.symbol "zero?", .symbol x]) env (· = .ok (.bool false)) := by
  have hfalse : (n == 0) = false := beq_eq_false_iff_ne.mpr hn
  rw [← hfalse]
  exact Ends.isZero h

/-- A primitive that adds something to a number. -/
theorem Yields.stepped {name : String} (p : Primitive) (δ : Int)
    (hname : Primitive.ofName? name = some p) (hkeyword : Keyword.ofName? name = none)
    (happly : ∀ room n, p.apply room [.int n] = pure (.int (n + δ))) (h : env.Has x (.int n)) :
    Yields loader? s (.list origin [.symbol name, .symbol x]) env (· = .int (n + δ)) := by
  refine Ends.unary p hname hkeyword (Yields.variable h nofun) fun v hv => ?_
  subst hv
  simp only [happly]
  exact Run.Comes.pure ⟨_, rfl, nofun, rfl⟩

/-- A number is counted down. -/
theorem Yields.sub1 (h : env.Has x (.int n)) :
    Yields loader? s (.list origin [.symbol "sub1", .symbol x]) env (· = .int (n - 1)) :=
  Yields.stepped .sub1 (-1) rfl rfl (fun _ _ => rfl) h

end Eval

namespace Library

variable {loader? : Option Loader} {s : State} {next : Nat}

/-! ## Sum and difference -/

/-- The step of a counting function is a primitive that adds `δ` to a number, and inside of the
    function its name stands for the function itself. -/
structure Counts (name step : String) (δ : Int) : Prop where
  topLevel : ∀ frame v w, TopLevel name (.frame frame ["n", "m"] [v, w] .empty)
  keyword : Keyword.ofName? step = none
  step : ∃ p, Primitive.ofName? step = some p ∧
    ∀ room n, p.apply room [.int n] = pure (.int (n + δ))

/-- `o+` counts up. -/
theorem plus_counts : Counts "o+" "add1" 1 where
  topLevel _ _ _ := ⟨rfl, rfl, rfl⟩
  keyword := rfl
  step := ⟨.add1, rfl, fun _ _ => rfl⟩

/-- `o-` counts down. -/
theorem minus_counts : Counts "o-" "sub1" (-1) where
  topLevel _ _ _ := ⟨rfl, rfl, rfl⟩
  keyword := rfl
  step := ⟨.sub1, rfl, fun _ _ => rfl⟩

section Counting

variable {name step : String} {δ : Int} (hcounts : Counts name step δ)
include hcounts

/-- The step of a counting function adds its number. -/
theorem Counts.yields {env : Env} {n : Int} {origin : Origin} (h : env.Has "n" (.int n)) :
    Yields loader? s (.list origin [.symbol step, .symbol "n"]) env (· = .int (n + δ)) := by
  obtain ⟨p, hname, happly⟩ := hcounts.step
  exact Yields.stepped p δ hname hcounts.keyword happly h

/-- A counting function adds its number as often as the second argument says. -/
theorem counting_ends (h : s.store.get? name = some ((counting name step).function next))
    (m : Nat) (n : Int) (frame : Origin) :
    Ends loader? s ((counting name step).body.stamp next).1
      (.frame frame ["n", "m"] [.int n, .int m] .empty) (· = .ok (.int (n + δ * m))) := by
  -- what is counted goes on as the first argument, so this one is not fixed
  induction m generalizing n frame with
  | zero =>
    have hzero : n + δ * (0 : Nat) = n := by simp
    rw [hzero]
    exact Ends.cond rfl (Chooses.ask true (Ends.at_zero ⟨rfl, rfl⟩)
      (fun _ => Ends.variable ⟨rfl, rfl⟩) nofun)
  | succ m ih =>
    have hm : ((m + 1 : Nat) : Int) ≠ 0 := by omega
    have hsum : n + δ * (m + 1 : Nat) = (n + δ) + δ * m := by
      rw [Nat.cast_succ, mul_add, mul_one]
      omega
    have hpred : ((m + 1 : Nat) : Int) - 1 = m := by omega
    rw [hsum]
    refine Ends.cond rfl (Chooses.ask false (Ends.off_zero ⟨rfl, rfl⟩ hm) nofun fun _ =>
      Chooses.otherwise ?_)
    refine Ends.call_two (counting name step) (hcounts.topLevel _ _ _) rfl h
      (hcounts.yields ⟨rfl, rfl⟩) (Yields.sub1 ⟨rfl, rfl⟩) ?_
    rintro _ _ frame rfl rfl
    rw [hpred]
    exact ih (n + δ) frame

/-- What is negative is not zero, and counting down leaves it negative.  So up to any bound the
    function only gets to call itself. -/
theorem counting_strays (h : s.store.get? name = some ((counting name step).function next))
    (bound : Nat) {m : Int} (hm : m < 0) (n : Int) (frame : Origin) :
    Strays loader? s bound ((counting name step).body.stamp next).1
      (.frame frame ["n", "m"] [.int n, .int m] .empty) := by
  induction bound generalizing m n frame with
  | zero => exact Strays.zero _ _
  | succ bound ih =>
    have hne : m ≠ 0 := by omega
    have hpred : m - 1 < 0 := by omega
    refine Strays.cond rfl (Ends.off_zero ⟨rfl, rfl⟩ hne) ?_
    refine Strays.mono (Strays.call_two (counting name step) (hcounts.topLevel _ _ _) rfl h
      (hcounts.yields ⟨rfl, rfl⟩) (Yields.sub1 ⟨rfl, rfl⟩) ?_) (Nat.le_succ bound)
    rintro _ _ frame rfl rfl
    exact ih hpred (n + δ) frame

end Counting

/-! ## Powers -/

/-- `expt` is the power, where the exponent is not negative. -/
theorem expt_ends (h : s.store.get? expt.name = some (expt.function next)) (n : Int) (m : Nat)
    (frame : Origin) :
    Ends loader? s (expt.body.stamp next).1
      (.frame frame ["n", "m"] [.int n, .int m] .empty) (· = .ok (.int (n ^ m))) := by
  induction m generalizing frame with
  | zero =>
    have hone : n ^ 0 = 1 := pow_zero n
    rw [hone]
    exact Ends.cond rfl (Chooses.ask true (Ends.at_zero ⟨rfl, rfl⟩)
      (fun _ => Ends.constant rfl rfl) nofun)
  | succ m ih =>
    have hm : ((m + 1 : Nat) : Int) ≠ 0 := by omega
    have hpred : ((m + 1 : Nat) : Int) - 1 = m := by omega
    -- the multiplication of the source starts from one
    have hpower : n ^ (m + 1) = 1 * n * n ^ m := by
      rw [pow_succ', one_mul]
    rw [hpower]
    refine Ends.cond rfl (Chooses.ask false (Ends.off_zero ⟨rfl, rfl⟩ hm) nofun fun _ =>
      Chooses.otherwise ?_)
    refine Ends.binary .multiply (Q := (· = .int (n ^ m))) rfl rfl
      (Yields.variable ⟨rfl, rfl⟩ nofun) (Ends.yields ?_ nofun) ?_
    · refine Ends.call_two expt ⟨rfl, rfl, rfl⟩ rfl h (Yields.variable ⟨rfl, rfl⟩ nofun)
        (Yields.sub1 ⟨rfl, rfl⟩) ?_
      rintro _ _ frame rfl rfl
      rw [hpred]
      exact ih frame
    · rintro _ _ rfl rfl
      exact Run.Comes.pure rfl

/-- Where it is, `expt` gets to call itself for ever. -/
theorem expt_strays (h : s.store.get? expt.name = some (expt.function next)) (bound : Nat)
    {m : Int} (hm : m < 0) (n : Int) (frame : Origin) :
    Strays loader? s bound (expt.body.stamp next).1
      (.frame frame ["n", "m"] [.int n, .int m] .empty) := by
  induction bound generalizing m frame with
  | zero => exact Strays.zero _ _
  | succ bound ih =>
    have hne : m ≠ 0 := by omega
    have hpred : m - 1 < 0 := by omega
    refine Strays.cond rfl (Ends.off_zero ⟨rfl, rfl⟩ hne) ?_
    -- the call is an operand of the product, which cannot be made before the call has ended
    refine Strays.mono (Strays.second_operand (p := .multiply) rfl rfl
      (Yields.variable ⟨rfl, rfl⟩ nofun) ?_) (Nat.le_succ bound)
    refine Strays.mono (Strays.call_two expt ⟨rfl, rfl, rfl⟩ rfl h
      (Yields.variable ⟨rfl, rfl⟩ nofun) (Yields.sub1 ⟨rfl, rfl⟩) ?_) (Nat.le_succ bound)
    rintro _ _ frame rfl rfl
    exact ih hpred frame

/-! ## The sum of a list -/

/-- `addtup` is the sum. -/
theorem addtup_ends (h : s.store.get? addtup.name = some (addtup.function next)) (ns : List Int)
    (origin frame : Origin) :
    Ends loader? s (addtup.body.stamp next).1
      (.frame frame ["tup"] [.list origin (ns.map .int)] .empty) (· = .ok (.int ns.sum)) := by
  induction ns generalizing origin frame with
  | nil => exact Ends.cond rfl (Chooses.at_end ⟨rfl, rfl⟩ (Ends.constant rfl rfl))
  | cons n ns ih =>
    have hsum : (n :: ns).sum = 0 + n + ns.sum := by rw [List.sum_cons, zero_add]
    rw [hsum]
    refine Ends.cond rfl (Chooses.before_end ⟨rfl, rfl⟩ (Chooses.otherwise ?_))
    refine Ends.binary .add (Q := (· = .int ns.sum)) rfl rfl
      (Ends.yields (Ends.car ⟨rfl, rfl⟩) nofun) (Ends.yields ?_ nofun) ?_
    · refine Ends.call_one addtup ⟨rfl, rfl, rfl⟩ rfl h (Yields.cdr ⟨rfl, rfl⟩) ?_
      rintro _ frame ⟨origin, rfl⟩
      exact ih origin frame
    · rintro _ _ rfl rfl
      exact Run.Comes.pure rfl

/-! ## All of them -/

/-- The names that the module on numbers binds. -/
def numberNames : List String := ["o+", "o-", "addtup", "expt"]

/-- The functions on numbers compute what they are meant to, in any store that has them from the
    bundled module: the sum and the difference of two numbers, a power, and the sum of a list of
    numbers, where what is counted down is not negative.  Of the state nothing changes but how
    much has been made.  Where what is counted down is negative, a limit stops every run. -/
theorem number_functions_compute (loader? : Option Loader) (s : State) (env : Env)
    (hstore : ∀ name ∈ numberNames, s.store.HasFrom numbers name)
    (henv : ∀ name ∈ numberNames, env.lookup? name = none) :
    (∀ (n : Int) (m : Nat),
      ComesTo loader? (.callOf "o+" [.int n, .int m]) env s (· = .ok (.int (n + m))) ∧
      ComesTo loader? (.callOf "o-" [.int n, .int m]) env s (· = .ok (.int (n - m))) ∧
      ComesTo loader? (.callOf "expt" [.int n, .int m]) env s (· = .ok (.int (n ^ m)))) ∧
    (∀ (origin : Origin) (ns : List Int),
      ComesTo loader? (.callOf "addtup" [.list origin (ns.map .int)]) env s
        (· = .ok (.int ns.sum))) ∧
    ∀ n m : Int, m < 0 → ∀ name ∈ ["o+", "o-", "expt"], ∀ steps room below,
      ¬ Run.Settled (evaluate loader? steps room below (.callOf name [.int n, .int m]) env s) := by
  have hready : ∀ d ∈ numberFunctions, TopLevel d.name env ∧ s.store.Binds d := fun d hd =>
    TopLevel.of_module numbers_madeOf (by decide) hstore henv hd
  obtain ⟨hplus, hplusBinds⟩ := hready plus (by simp [numberFunctions])
  obtain ⟨hminus, hminusBinds⟩ := hready minus (by simp [numberFunctions])
  obtain ⟨haddtup, haddtupBinds⟩ := hready addtup (by simp [numberFunctions])
  obtain ⟨hexpt, hexptBinds⟩ := hready expt (by simp [numberFunctions])
  refine ⟨fun n m => ⟨?_, ?_, ?_⟩, fun origin ns => ?_, fun n m hm name hname => ?_⟩
  -- counting up is addition of one times the second number
  · have hsum : n + (m : Int) = n + 1 * m := by omega
    rw [hsum]
    exact ComesTo.call_two hplus rfl hplusBinds nofun nofun (fun _ h => nomatch h)
      fun next frame h => counting_ends plus_counts h m n frame
  · have hdifference : n - (m : Int) = n + -1 * m := by omega
    rw [hdifference]
    exact ComesTo.call_two hminus rfl hminusBinds nofun nofun (fun _ h => nomatch h)
      fun next frame h => counting_ends minus_counts h m n frame
  · exact ComesTo.call_two hexpt rfl hexptBinds nofun nofun (fun _ h => nomatch h)
      fun next frame h => expt_ends h n m frame
  · exact ComesTo.call_one haddtup rfl haddtupBinds nofun (fun _ h => nomatch h)
      fun next frame h => addtup_ends h ns origin frame
  · rcases List.mem_cons.mp hname with rfl | hname
    · exact call_two_not_settled hplus rfl hplusBinds nofun nofun fun next bound frame h =>
        counting_strays plus_counts h bound hm n frame
    · rcases List.mem_cons.mp hname with rfl | hname
      · exact call_two_not_settled hminus rfl hminusBinds nofun nofun fun next bound frame h =>
          counting_strays minus_counts h bound hm n frame
      · obtain rfl := List.mem_singleton.mp hname
        exact call_two_not_settled hexpt rfl hexptBinds nofun nofun fun next bound frame h =>
          expt_strays h bound hm n frame

/-- In a fresh system that has loaded the module. -/
theorem number_functions_compute_small :
    let s := State.withModule numbers
    ComesTo none (.callOf "o+" [.int (-2), .int 3]) .empty s (· = .ok (.int 1)) ∧
    ComesTo none (.callOf "o-" [.int (-2), .int 3]) .empty s (· = .ok (.int (-5))) ∧
    ComesTo none (.callOf "expt" [.int (-2), .int 3]) .empty s (· = .ok (.int (-8))) ∧
    ComesTo none (.callOf "addtup" [.ofItems [.int 4, .int (-1)]]) .empty s (· = .ok (.int 3)) ∧
    ∀ steps room, ¬ Run.Settled
      (evaluate none steps room 0 (.callOf "o+" [.int 2, .int (-1)]) .empty s) := by
  have h := number_functions_compute none (State.withModule numbers) .empty
    (fun name _ => State.withModule_hasFrom numbers_madeOf (by decide) numbers_isPlain name)
    (fun _ _ => rfl)
  obtain ⟨hcount, hsum, hnegative⟩ := h
  obtain ⟨hplus, hminus, hexpt⟩ := hcount (-2) 3
  exact ⟨hplus, hminus, hexpt, hsum .unknown [4, -1], fun steps room =>
    hnegative 2 (-1) (by decide) "o+" (by simp) steps room 0⟩

end Library

end SmallScheme
