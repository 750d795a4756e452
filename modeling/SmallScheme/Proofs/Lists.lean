/-
  THE BUNDLED LIST FUNCTIONS compute what they are meant to.

  Each of them goes down a list.  So what the body of a function comes to is shown by induction on
  the list, with the rules for the constructs of the body; the call of the function inside of its
  own body is the case of the list without its first item.

  Structure:
    1. What the functions are meant to compute, where the library has no name for it: to put items
       in front of any value, and the fault for what has no first item.
    2. The primitives on the way, and what they come to.
    3. Each of the functions.  Some end in one value that is known; the others yield a new list, and
       of that only the items are known.  One may fail (`firsts_fault`).
    4. All of them, in any store that has them from the bundled module.

  A value is never the quit signal, for whoever gets that hands it on.  The lists that the
  functions make are new ones, so it is left open where they come from.
-/
import SmallScheme.Proofs.Bundled
import SmallScheme.Proofs.Equality
import SmallScheme.Proofs.Printing

namespace SmallScheme

open Eval

/-! ## What the functions are meant to compute -/

/-- The value with items in front of it.  Items in front of a value that is no list make a dotted
    list, and no items change nothing. -/
def Value.prepend (origin : Origin) : (items : List Value) → Value → Value
  | [], v => v
  | items, .list _ vs => .list origin (items ++ vs)
  | items, .dotted _ vs v => .dotted origin (items ++ vs) v
  | items, v => .dotted origin items v

/-- What taking the first item of a value ends in that is no pair.  The error says what the value
    is, and a number of too many digits cannot be said. -/
def Value.carFault : Value → Fault
  | .int n =>
    if Numeral.isTooLong n then .digitsPrinted
    else .error (.notPair Primitive.car.name (.int n))
  | v => .error (.notPair Primitive.car.name v)

/-- That is no limit of the machine. -/
theorem Value.carFault_isLimit (v : Value) : v.carFault.isLimit = false := by
  cases v with
  | int n =>
    rw [Value.carFault]
    split <;> rfl
  | _ => rfl

/-- One more item in front. -/
theorem Value.consValue_prepend (origin origin' : Origin) (v w : Value) (vs : List Value) :
    Primitive.consValue origin v (w.prepend origin' vs) = w.prepend origin (v :: vs) := by
  cases vs <;> cases w <;> rfl

/-- Items in front of a value that is not the signal do not make it one. -/
theorem Value.prepend_ne_quit {v : Value} (hv : v ≠ .quit) (origin : Origin) (vs : List Value) :
    v.prepend origin vs ≠ .quit := by
  cases vs with
  | nil => exact hv
  | cons w ws => cases v <;> exact nofun

/-! ## The primitives on the way -/

namespace Primitive

variable {s : State} {good : Except Fault Value → Prop}

/-- Making a pair. -/
theorem comes_cons {v w : Value} (h : ∀ origin, good (.ok (consValue origin v w))) :
    Run.Comes s (fun room => cons.apply room [v, w]) good :=
  Run.Comes.bind_fresh fun origin => Run.Comes.pure (h origin)

/-- A comparison tells whether the values are the same. -/
theorem comes_isEqual {v w : Value} (h : good (.ok (.bool (v.same w)))) :
    Run.Comes s (fun room => isEqual.apply room [v, w]) good := by
  obtain ⟨enough, henough⟩ := Value.answers_equal? v w
  refine Run.Comes.still h enough fun room hroom t => ?_
  have hanswer : v.equal? (room + Room.margin) w = some (v.same w) :=
    henough _ (Nat.le_add_right_of_le hroom)
  show settle room (equality room v w) t = _
  rw [equality, hanswer]
  rfl

/-- Taking the first item of a value that is no pair. -/
theorem comes_car_fault {v : Value} (hv : v.isPair = false) (h : good (.error v.carFault)) :
    Run.Comes s (fun room => car.apply room [v]) good := by
  have hfirst : first v = .error (.error (.notPair car.name v)) := by
    cases v with
    | list origin vs =>
      cases vs with
      | nil => rfl
      | cons w ws => cases hv
    | dotted origin vs w => cases hv
    | _ => rfl
  refine Run.Comes.still h 0 fun room hroom t => ?_
  show settle room (first v) t = _
  rw [hfirst]
  show Run.raise room (.notPair car.name v) t = _
  cases v with
  -- an integer is named in the message, which fails if it has too many digits; every other value
  -- has a name of its own, or is a list within reach of the margin
  | int n =>
    rw [Run.raise, Error.limit?, Value.textLimit?,
      Limit.guarded_margin (Value.textRoom_le_margin _ _), Limit.ofInt?, Value.carFault]
    by_cases hn : Numeral.isTooLong n = true
    · simp only [hn, if_true]
      rfl
    · simp only [hn]
      rfl
  | list origin vs =>
    cases vs with
    | nil =>
      rw [Run.raise, Error.limit?, Value.textLimit?, Limit.guarded_margin (by decide)]
      rfl
    | cons w ws => cases hv
  | dotted origin vs w => cases hv
  | _ =>
    simp only [Run.raise, Error.limit?, Value.textLimit?,
      Limit.guarded_margin (Value.textRoom_le_margin _ _)]
    rfl

end Primitive

/-! ## Each of the functions -/

namespace Library

variable {loader? : Option Loader} {s : State} {next : Nat}

/-- `length` counts the items. -/
theorem length_ends (h : s.store.get? length.name = some (length.function next)) (vs : List Value)
    (origin frame : Origin) :
    Ends loader? s (length.body.stamp next).1 (.frame frame ["lat"] [.list origin vs] .empty)
      (· = .ok (.int vs.length)) := by
  induction vs generalizing origin frame with
  | nil => exact Ends.cond rfl (Chooses.at_end ⟨rfl, rfl⟩ (Ends.constant rfl rfl))
  | cons v vs ih =>
    refine Ends.cond rfl (Chooses.before_end ⟨rfl, rfl⟩ (Chooses.otherwise ?_))
    refine Ends.unary .add1 (P := (· = .int vs.length)) rfl rfl (Ends.yields ?_ nofun) ?_
    · refine Ends.call_one length ⟨rfl, rfl, rfl⟩ rfl h (Yields.cdr ⟨rfl, rfl⟩) ?_
      rintro _ frame ⟨origin, rfl⟩
      exact ih origin frame
    · rintro _ rfl
      exact Run.Comes.pure rfl

/-- `lat?` tells whether all items are atoms. -/
theorem isLat_ends (h : s.store.get? isLat.name = some (isLat.function next)) (vs : List Value)
    (hvs : ∀ v ∈ vs, v ≠ .quit) (origin frame : Origin) :
    Ends loader? s (isLat.body.stamp next).1 (.frame frame ["l"] [.list origin vs] .empty)
      (· = .ok (.bool (vs.all Primitive.isAtomValue))) := by
  induction vs generalizing origin frame with
  -- the induction is on what is left of the list; the frame is a new one at each call
  | nil => exact Ends.cond rfl (Chooses.at_end ⟨rfl, rfl⟩ (Ends.constant rfl rfl))
  | cons v vs ih =>
    obtain ⟨hv, hvs⟩ := List.forall_mem_cons.mp hvs
    refine Ends.cond rfl (Chooses.before_end ⟨rfl, rfl⟩ ?_)
    refine Chooses.ask (Primitive.isAtomValue v) ?_ (fun hatom => ?_) fun hatom => ?_
    · refine Ends.unary .isAtom rfl rfl (Ends.yields (Ends.car ⟨rfl, rfl⟩) hv) ?_
      rintro _ rfl
      exact Run.Comes.pure rfl
    · rw [List.all_cons, hatom, Bool.true_and]
      -- the tail call: what it comes to is what the whole comes to
      refine Ends.call_one isLat ⟨rfl, rfl, rfl⟩ rfl h (Yields.cdr ⟨rfl, rfl⟩) ?_
      rintro _ frame ⟨origin, rfl⟩
      exact ih hvs origin frame
    · rw [List.all_cons, hatom, Bool.false_and]
      exact Chooses.otherwise (Ends.constant rfl rfl)

variable {a : Value} (ha : a ≠ .quit)
include ha

/-- The question whether the first item is the one that is looked for. -/
theorem isFound_ends {env : Env} {v : Value} {vs : List Value} {origin origin₁ origin₂ : Origin}
    (hlist : env.Has "lat" (.list origin (v :: vs))) (hitem : env.Has "a" a) (hv : v ≠ .quit) :
    Ends loader? s
      (.list origin₁ [.symbol "eq?", .list origin₂ [.symbol "car", .symbol "lat"], .symbol "a"])
      env (· = .ok (.bool (v.same a))) := by
  refine Ends.binary .isEqual rfl rfl (Ends.yields (Ends.car hlist) hv)
    (Yields.variable hitem ha) ?_
  rintro _ _ rfl rfl
  exact Primitive.comes_isEqual rfl

/-- `member?` tells whether one of the items is the same. -/
theorem isMember_ends (h : s.store.get? isMember.name = some (isMember.function next))
    (vs : List Value) (hvs : ∀ v ∈ vs, v ≠ .quit) (origin frame : Origin) :
    Ends loader? s (isMember.body.stamp next).1
      (.frame frame ["a", "lat"] [a, .list origin vs] .empty)
      (· = .ok (.bool (vs.any (·.same a)))) := by
  induction vs generalizing origin frame with
  | nil => exact Ends.cond rfl (Chooses.at_end ⟨rfl, rfl⟩ (Ends.constant rfl rfl))
  | cons v vs ih =>
    obtain ⟨hv, hvs⟩ := List.forall_mem_cons.mp hvs
    refine Ends.cond rfl (Chooses.before_end ⟨rfl, rfl⟩ ?_)
    refine Chooses.ask (v.same a) (isFound_ends ha ⟨rfl, rfl⟩ ⟨rfl, rfl⟩ hv) (fun hsame => ?_)
      fun hsame => Chooses.otherwise ?_
    · rw [List.any_cons, hsame, Bool.true_or]
      exact Ends.constant rfl rfl
    · rw [List.any_cons, hsame, Bool.false_or]
      -- not found yet: the search goes on in the rest
      refine Ends.call_two isMember ⟨rfl, rfl, rfl⟩ rfl h (Yields.variable ⟨rfl, rfl⟩ ha)
        (Yields.cdr ⟨rfl, rfl⟩) ?_
      rintro _ _ frame rfl ⟨origin, rfl⟩
      exact ih hvs origin frame

/-- `rember` leaves out the first item that is the same. -/
theorem rember_yields (h : s.store.get? rember.name = some (rember.function next))
    (vs : List Value) (hvs : ∀ v ∈ vs, v ≠ .quit) (origin frame : Origin) :
    Yields loader? s (rember.body.stamp next).1
      (.frame frame ["a", "lat"] [a, .list origin vs] .empty)
      (fun w => ∃ origin, w = .list origin (vs.eraseP (·.same a))) := by
  induction vs generalizing origin frame with
  | nil =>
    exact Ends.cond rfl (Chooses.at_end ⟨rfl, rfl⟩ (Ends.quote _ ⟨_, rfl, nofun, _, rfl⟩))
  | cons v vs ih =>
    obtain ⟨hv, hvs⟩ := List.forall_mem_cons.mp hvs
    refine Ends.cond rfl (Chooses.before_end ⟨rfl, rfl⟩ ?_)
    refine Chooses.ask (v.same a) (isFound_ends ha ⟨rfl, rfl⟩ ⟨rfl, rfl⟩ hv) (fun hsame => ?_)
      fun hsame => Chooses.otherwise ?_
    -- found: the rest of the list is the answer, and nothing is looked at any more
    · have hdrop : (v :: vs).eraseP (·.same a) = vs := List.eraseP_cons_of_pos hsame
      rw [hdrop]
      exact Yields.cdr ⟨rfl, rfl⟩
    -- not found: the item is put back in front of what the call on the rest yields
    · have hne : ¬v.same a = true := by
        rw [hsame]
        exact Bool.false_ne_true
      have hkeep : (v :: vs).eraseP (·.same a) = v :: vs.eraseP (·.same a) :=
        List.eraseP_cons_of_neg hne
      rw [hkeep]
      refine Ends.binary .cons (Q := fun w => ∃ origin, w = .list origin (vs.eraseP (·.same a)))
        rfl rfl (Ends.yields (Ends.car ⟨rfl, rfl⟩) hv) (Ends.call_two rember ⟨rfl, rfl, rfl⟩ rfl h
          (Yields.variable ⟨rfl, rfl⟩ ha) (Yields.cdr ⟨rfl, rfl⟩) ?_) ?_
      · rintro _ _ frame rfl ⟨origin, rfl⟩
        exact ih hvs origin frame
      · rintro _ _ rfl ⟨_, rfl⟩
        exact Primitive.comes_cons fun origin => ⟨_, rfl, nofun, origin, rfl⟩

omit ha

/-- `append` puts the items in front of the other value. -/
theorem append_yields (h : s.store.get? append.name = some (append.function next))
    (vs : List Value) (hvs : ∀ v ∈ vs, v ≠ .quit) {r : Value} (hr : r ≠ .quit)
    (origin frame : Origin) :
    Yields loader? s (append.body.stamp next).1
      (.frame frame ["l1", "l2"] [.list origin vs, r] .empty)
      (fun w => ∃ origin, w = r.prepend origin vs) := by
  induction vs generalizing origin frame with
  | nil =>
    refine Ends.cond rfl (Chooses.at_end ⟨rfl, rfl⟩ ?_)
    exact (Yields.variable ⟨rfl, rfl⟩ hr).mono fun w hw => ⟨.unknown, hw⟩
  | cons v vs ih =>
    obtain ⟨hv, hvs⟩ := List.forall_mem_cons.mp hvs
    refine Ends.cond rfl (Chooses.before_end ⟨rfl, rfl⟩ (Chooses.otherwise ?_))
    -- not a tail call: the item is put in front of what the call on the rest yields
    refine Ends.binary .cons (Q := fun w => ∃ origin, w = r.prepend origin vs) rfl rfl
      (Ends.yields (Ends.car ⟨rfl, rfl⟩) hv)
      (Ends.call_two append ⟨rfl, rfl, rfl⟩ rfl h (Yields.cdr ⟨rfl, rfl⟩)
        (Yields.variable ⟨rfl, rfl⟩ hr) ?_) ?_
    · rintro _ _ frame ⟨origin, rfl⟩ rfl
      exact ih hvs origin frame
    · rintro _ _ rfl ⟨_, rfl⟩
      refine Primitive.comes_cons fun origin => ⟨_, rfl, ?_, origin, ?_⟩
      · rw [Value.consValue_prepend]
        exact Value.prepend_ne_quit hr origin _
      · exact Value.consValue_prepend _ _ _ _ _

/-- The first item of the first item of the list. -/
theorem caar_yields {env : Env} {v w : Value} {vs : List Value} {origin origin₁ origin₂ : Origin}
    (hlist : env.Has "l" (.list origin (v :: vs))) (hv : Primitive.first v = .ok w)
    (hw : w ≠ .quit) :
    Yields loader? s
      (.list origin₁ [.symbol "car", .list origin₂ [.symbol "car", .symbol "l"]]) env (· = w) := by
  have hquit : v ≠ .quit := by
    rintro rfl
    cases hv
  have happly : ∀ room, Primitive.car.apply room [v] = pure w := by
    intro room
    show Primitive.settle room (Primitive.first v) = _
    rw [hv]
    rfl
  refine Ends.unary .car rfl rfl (Ends.yields (Ends.car hlist) hquit) ?_
  rintro _ rfl
  simp only [happly]
  exact Run.Comes.pure ⟨w, rfl, hw, rfl⟩

/-- `firsts` takes the first item of each, if all of them have one. -/
theorem firsts_yields (h : s.store.get? firsts.name = some (firsts.function next))
    (vs ws : List Value) (hfirst : vs.map Primitive.first = ws.map .ok) (hws : .quit ∉ ws)
    (origin frame : Origin) :
    Yields loader? s (firsts.body.stamp next).1 (.frame frame ["l"] [.list origin vs] .empty)
      (fun w => ∃ origin, w = .list origin ws) := by
  induction vs generalizing ws origin frame with
  | nil =>
    obtain rfl : ws = [] := List.map_eq_nil_iff.mp hfirst.symm
    exact Ends.cond rfl (Chooses.at_end ⟨rfl, rfl⟩ (Ends.quote _ ⟨_, rfl, nofun, _, rfl⟩))
  | cons v vs ih =>
    -- each item has a first part, and these are what is collected
    obtain ⟨w, ws, rfl, hv, hvs⟩ := List.map_eq_cons_iff.mp hfirst.symm
    obtain ⟨hw, hws⟩ := List.ne_and_not_mem_of_not_mem_cons hws
    refine Ends.cond rfl (Chooses.before_end ⟨rfl, rfl⟩ (Chooses.otherwise ?_))
    refine Ends.binary .cons (Q := fun w => ∃ origin, w = .list origin ws) rfl rfl
      (caar_yields ⟨rfl, rfl⟩ hv.symm hw.symm) (Ends.call_one firsts ⟨rfl, rfl, rfl⟩ rfl h
        (Yields.cdr ⟨rfl, rfl⟩) ?_) ?_
    · rintro _ frame ⟨origin, rfl⟩
      exact ih ws hvs.symm hws origin frame
    · rintro _ _ rfl ⟨_, rfl⟩
      exact Primitive.comes_cons fun origin => ⟨_, rfl, nofun, origin, rfl⟩

/-- At the first item that is no pair it ends. -/
theorem firsts_fault (h : s.store.get? firsts.name = some (firsts.function next))
    (before ws : List Value) (hfirst : before.map Primitive.first = ws.map .ok) (hws : .quit ∉ ws)
    {v : Value} (hv : v ≠ .quit) (hpair : v.isPair = false) (after : List Value)
    (origin frame : Origin) :
    Ends loader? s (firsts.body.stamp next).1
      (.frame frame ["l"] [.list origin (before ++ v :: after)] .empty)
      (· = .error v.carFault) := by
  induction before generalizing ws origin frame with
  | nil =>
    refine Ends.cond rfl (Chooses.before_end ⟨rfl, rfl⟩ (Chooses.otherwise ?_))
    -- the item itself is the one without a first part
    refine Ends.first_fault rfl rfl
      (Ends.unary .car rfl rfl (Ends.yields (Ends.car ⟨rfl, rfl⟩) hv) ?_)
    rintro _ rfl
    exact Primitive.comes_car_fault hpair rfl
  | cons u before ih =>
    obtain ⟨w, ws, rfl, hu, hbefore⟩ := List.map_eq_cons_iff.mp hfirst.symm
    obtain ⟨hw, hws⟩ := List.ne_and_not_mem_of_not_mem_cons hws
    refine Ends.cond rfl (Chooses.before_end ⟨rfl, rfl⟩ (Chooses.otherwise ?_))
    -- the fault comes from the rest, while the first part of this item waits to be put in front
    refine Ends.second_fault rfl rfl (caar_yields ⟨rfl, rfl⟩ hu.symm hw.symm)
      (Ends.call_one firsts ⟨rfl, rfl, rfl⟩ rfl h (Yields.cdr ⟨rfl, rfl⟩) ?_)
    rintro _ frame ⟨origin, rfl⟩
    exact ih ws hbefore.symm hws origin frame

/-! ## All of them -/

/-- The names that the module on lists binds. -/
def listNames : List String := ["lat?", "member?", "rember", "firsts", "length", "append"]

/-- The list functions compute what they are meant to, in any store that has them from the bundled
    module, for any list of values: the number of items; whether all of them are atoms; whether one
    of them is the same as another value; the list without the first that is the same; the list of
    the first items of the items, where these are pairs; and the list in front of another value.
    Where an item is no pair, `firsts` ends in the fault of the first such item.  Of the state
    nothing changes but how much has been made. -/
theorem list_functions_compute (loader? : Option Loader) (s : State) (env : Env)
    (hstore : ∀ name ∈ listNames, s.store.HasFrom lists name)
    (henv : ∀ name ∈ listNames, env.lookup? name = none) (origin : Origin) (vs : List Value)
    (hvs : ∀ v ∈ vs, v ≠ .quit) :
    ComesTo loader? (.callOf "length" [.list origin vs]) env s (· = .ok (.int vs.length)) ∧
    ComesTo loader? (.callOf "lat?" [.list origin vs]) env s
      (· = .ok (.bool (vs.all Primitive.isAtomValue))) ∧
    (∀ a, a ≠ .quit →
      ComesTo loader? (.callOf "member?" [a, .list origin vs]) env s
        (· = .ok (.bool (vs.any (·.same a)))) ∧
      ComesTo loader? (.callOf "rember" [a, .list origin vs]) env s
        (fun outcome => ∃ origin', outcome = .ok (.list origin' (vs.eraseP (·.same a))))) ∧
    (∀ ws : List Value, vs.map Primitive.first = ws.map .ok → .quit ∉ ws →
      ComesTo loader? (.callOf "firsts" [.list origin vs]) env s
        (fun outcome => ∃ origin', outcome = .ok (.list origin' ws))) ∧
    (∀ (before : List Value) v after (ws : List Value), vs = before ++ v :: after →
      before.map Primitive.first = ws.map .ok → .quit ∉ ws → v.isPair = false →
      ComesTo loader? (.callOf "firsts" [.list origin vs]) env s (· = .error v.carFault)) ∧
    ∀ r, r ≠ .quit →
      ComesTo loader? (.callOf "append" [.list origin vs, r]) env s
        (fun outcome => ∃ origin', outcome = .ok (r.prepend origin' vs)) := by
  -- a function of the module is bound to its definition, and its name is not hidden by a frame
  have hready : ∀ d ∈ listFunctions, TopLevel d.name env ∧ s.store.Binds d := fun d hd =>
    TopLevel.of_module lists_madeOf (by decide) hstore henv hd
  -- what is asked for is a value, so no fault of a limit can be taken for it
  have hlimit : ∀ {w : Origin → Value} (fault : Fault),
      (∃ origin', (.error fault : Except Fault Value) = .ok (w origin')) →
        fault.isLimit = false := by
    rintro w fault ⟨origin', h⟩
    cases h
  refine ⟨?_, ?_, fun a ha => ⟨?_, ?_⟩, fun ws hfirst hws => ?_,
    fun before v after ws hsplit hfirst hws hpair => ?_, fun r hr => ?_⟩
  · obtain ⟨hname, hbinds⟩ := hready length (by simp [listFunctions])
    exact ComesTo.call_one hname rfl hbinds nofun (fun _ h => nomatch h) fun next frame h =>
      length_ends h vs origin frame
  · obtain ⟨hname, hbinds⟩ := hready isLat (by simp [listFunctions])
    exact ComesTo.call_one hname rfl hbinds nofun (fun _ h => nomatch h) fun next frame h =>
      isLat_ends h vs hvs origin frame
  · obtain ⟨hname, hbinds⟩ := hready isMember (by simp [listFunctions])
    exact ComesTo.call_two hname rfl hbinds ha nofun (fun _ h => nomatch h) fun next frame h =>
      isMember_ends ha h vs hvs origin frame
  · obtain ⟨hname, hbinds⟩ := hready rember (by simp [listFunctions])
    refine ComesTo.call_two hname rfl hbinds ha nofun hlimit fun next frame h => ?_
    refine (rember_yields ha h vs hvs origin frame).ends ?_
    rintro _ ⟨origin', rfl⟩
    exact ⟨origin', rfl⟩
  · obtain ⟨hname, hbinds⟩ := hready firsts (by simp [listFunctions])
    refine ComesTo.call_one hname rfl hbinds nofun hlimit fun next frame h => ?_
    refine (firsts_yields h vs ws hfirst hws origin frame).ends ?_
    rintro _ ⟨origin', rfl⟩
    exact ⟨origin', rfl⟩
  · obtain ⟨hname, hbinds⟩ := hready firsts (by simp [listFunctions])
    subst hsplit
    have hv : v ≠ .quit := hvs v (by simp)
    refine ComesTo.call_one hname rfl hbinds nofun ?_ fun next frame h =>
      firsts_fault h before ws hfirst hws hv hpair after origin frame
    intro fault hfault
    cases hfault
    exact v.carFault_isLimit
  · obtain ⟨hname, hbinds⟩ := hready append (by simp [listFunctions])
    refine ComesTo.call_two hname rfl hbinds nofun hr hlimit fun next frame h => ?_
    refine (append_yields h vs hvs hr origin frame).ends ?_
    rintro _ ⟨origin', rfl⟩
    exact ⟨origin', rfl⟩

/-- In a fresh system that has loaded the module: the list `((1) b)`. -/
theorem list_functions_compute_pair :
    let l : Value := .ofItems [.ofItems [.int 1], .symbol "b"]
    let s := State.withModule lists
    ComesTo none (.callOf "length" [l]) .empty s (· = .ok (.int 2)) ∧
    ComesTo none (.callOf "lat?" [l]) .empty s (· = .ok (.bool false)) ∧
    ComesTo none (.callOf "member?" [.symbol "b", l]) .empty s (· = .ok (.bool true)) ∧
    ComesTo none (.callOf "rember" [.symbol "b", l]) .empty s
      (fun outcome => ∃ origin, outcome = .ok (.list origin [.ofItems [.int 1]])) ∧
    ComesTo none (.callOf "firsts" [l]) .empty s
      (· = .error (.error (.notPair "car" (.symbol "b")))) ∧
    ComesTo none (.callOf "append" [l, .int 2]) .empty s
      (fun outcome => ∃ origin,
        outcome = .ok (.dotted origin [.ofItems [.int 1], .symbol "b"] (.int 2))) := by
  have h := list_functions_compute none (State.withModule lists) .empty
    (fun name _ => State.withModule_hasFrom lists_madeOf (by decide) lists_isPlain name)
    (fun _ _ => rfl) .unknown [.ofItems [.int 1], .symbol "b"] (by simp [Value.ofItems])
  obtain ⟨hlength, hlat, hfound, -, hfault, happend⟩ := h
  have hsymbol : Value.symbol "b" ≠ .quit := by
    intro hquit
    cases hquit
  have hnumber : Value.int 2 ≠ .quit := by
    intro hquit
    cases hquit
  obtain ⟨hmember, hrember⟩ := hfound (.symbol "b") hsymbol
  exact ⟨hlength, hlat, hmember, hrember, hfault [.ofItems [.int 1]] (.symbol "b") [] [.int 1] rfl
    rfl (by simp) rfl, happend (.int 2) hnumber⟩

/-- A number of too many digits is no pair, and `firsts` ends in no error of the language that
    would say so: the error cannot say the number. -/
theorem firsts_of_long_number :
    (∀ name ∈ listNames, (State.withModule lists).store.HasFrom lists name) ∧
    ¬ ComesTo none (.callOf "firsts" [.ofItems [.int (Nat.pow 10 Numeral.maxDigits)]]) .empty
      (State.withModule lists)
      (fun outcome => ∃ e, outcome = .error (.error e) ∧ e.kind = .shape) := by
  have hstore : ∀ name, (State.withModule lists).store.HasFrom lists name :=
    State.withModule_hasFrom lists_madeOf (by decide) lists_isPlain
  have hbinds : (State.withModule lists).store.Binds firsts :=
    (hstore firsts.name).binds lists_madeOf (by simp [listFunctions])
  have hdigits : ∀ n, Numeral.isTooLong n = true →
      ComesTo none (.callOf "firsts" [.ofItems [.int n]]) .empty (State.withModule lists)
        (· = .error .digitsPrinted) := by
    intro n hn
    have hfault : (Value.int n).carFault = .digitsPrinted := by rw [Value.carFault, if_pos hn]
    have hquit : Value.int n ≠ .quit := nofun
    rw [← hfault]
    refine ComesTo.call_one (d := firsts) ⟨rfl, rfl, rfl⟩ rfl hbinds nofun ?_ fun next frame h =>
      firsts_fault h [] [] rfl List.not_mem_nil hquit rfl [] .unknown frame
    intro fault hout
    rw [Except.error.inj hout]
    exact Value.carFault_isLimit _
  have hlong : Numeral.isTooLong (Nat.pow 10 Numeral.maxDigits) = true := by
    have hsize := Int.natAbs_natCast (Nat.pow 10 Numeral.maxDigits)
    exact decide_eq_true (Nat.le_of_eq hsize.symm)
  refine ⟨fun name _ => hstore name, fun hshape => ?_⟩
  obtain ⟨_, rfl, e, he, -⟩ := (hdigits _ hlong).both hshape
  cases he

end Library

end SmallScheme
