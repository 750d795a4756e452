/-
  ARITHMETIC on any number of arguments.

  `+`, `*` and `-` check all of their arguments before they compute.  So each of them is two things,
  one after the other (`Primitive.Combines`): a scan for the first argument that is no number,
  wherever it stands, and a function of the list of numbers that the arguments are.

  For `+` and `*` the function is the sum and the product, and the order of the numbers does not
  matter.  For `-` it does.  Subtraction is taken from the right, `a - (b - c)`, so a number is
  taken away once for each one before it: every second number counts with its sign turned
  (`Primitive.alternating_eq`).

  Structure:
    1. The scan: it goes past numbers and stops at the first other value, whatever comes after it.
    2. The functions of numbers that the three primitives are.
    3. The laws, for all lists of arguments.
    4. What is not blamed: values that are no numbers after the first of them.

  The message about what is no number shows it.  This takes room for its nesting, and where there
  is too little of it the fault is that of depth instead.
-/
import Mathlib.Algebra.BigOperators.Fin
import SmallScheme.Proofs.Malformed

namespace SmallScheme

/-- The value is a number. -/
def Value.IsNumber (v : Value) : Prop := ∃ n, v = .int n

/-- The error about what is no number ends a run, unless there is too little room to show it. -/
theorem Error.fault_notNumber {v : Value} (hshort : ∀ n ∈ v.integers, Numeral.isTooLong n = false)
    (name : String) (room : Nat) :
    (Error.notNumber name v).fault room = .error (.notNumber name v) ∨
      (Error.notNumber name v).fault room = .tooDeep ∧ room < 3 * v.height := by
  have hlimit : (Error.notNumber name v).limit? room
      = v.textLimit? true (room + Room.margin) := rfl
  rw [Error.fault, hlimit]
  rcases (Value.shows_text true v hshort).with_margin with hnone | ⟨hnesting, hlt⟩
  · rw [hnone]
    exact Or.inl rfl
  · rw [hnesting]
    exact Or.inr ⟨rfl, hlt⟩

namespace Primitive

variable {p : Primitive} {f : List Int → Int} {ns : List Int} {v : Value} {after : List Value}
  {room : Nat} {s : State}

/-! ## The scan -/

/-- Arguments that are not all numbers are numbers up to the first one that is not. -/
theorem exists_first_not_number {args : List Value} (h : ∃ v ∈ args, ¬ v.IsNumber) :
    ∃ (ns : List Int) (v : Value) (after : List Value),
      args = ns.map .int ++ v :: after ∧ ¬ v.IsNumber := by
  induction args with
  | nil =>
    obtain ⟨v, hv, -⟩ := h
    cases hv
  | cons w args ih =>
    -- the first argument is the one, or the one is found among the others
    by_cases hw : w.IsNumber
    · obtain ⟨n, rfl⟩ := hw
      obtain ⟨v, hv, hother⟩ := h
      have hlater : v ∈ args := (List.mem_cons.mp hv).resolve_left fun heq => hother ⟨n, heq⟩
      obtain ⟨ns, u, after, rfl, hu⟩ := ih ⟨v, hlater, hother⟩
      exact ⟨n :: ns, u, after, rfl, hu⟩
    · exact ⟨[], w, args, rfl, hw⟩

/-- Numbers pass the scan. -/
theorem numbers_of_ints (name : String) (ns : List Int) : numbers name (ns.map .int) = .ok ns := by
  induction ns with
  | nil => rfl
  | cons n ns ih => rw [List.map_cons, numbers, ih]

/-- Whatever comes after it, the first one is to blame. -/
theorem numbers_of_first (name : String) (ns : List Int) (hv : ¬ v.IsNumber)
    (after : List Value) :
    numbers name (ns.map .int ++ v :: after) = .error (.notNumber name v) := by
  induction ns with
  | nil =>
    cases v with
    | int n => exact absurd ⟨n, rfl⟩ hv
    | _ => rfl
  | cons n ns ih => rw [List.map_cons, List.cons_append, numbers, ih]

/-! ## The functions of numbers -/

/-- The primitive computes `f` of the numbers that its arguments are. -/
def Combines (p : Primitive) (f : List Int → Int) (args : List Value) : Prop :=
  ∀ room, p.apply room args = settle room (onNumbers p (fun ns => .int (f ns)) args)

/-- `+` is the sum. -/
theorem add_combines (args : List Value) : Combines add List.sum args := by
  intro room
  simp only [apply, List.sum_eq_foldl]

/-- `*` is the product. -/
theorem multiply_combines (args : List Value) : Combines multiply List.prod args := by
  intro room
  simp only [apply, List.prod_eq_foldl]

/-- Subtraction from the right is the alternating sum. -/
theorem alternating_eq (ns : List Int) : alternating ns = ns.alternatingSum := by
  induction ns with
  | nil => rfl
  | cons n ns ih => rw [alternating, ih, List.alternatingSum_cons]

/-- `-` is the alternating sum, of at least one number. -/
theorem subtract_combines {args : List Value} (h : args ≠ []) :
    Combines subtract List.alternatingSum args := by
  intro room
  simp only [← alternating_eq]
  cases args with
  | nil => exact absurd rfl h
  | cons v vs => rfl

/-- A primitive that is called by its name is applied. -/
theorem call_name (p : Primitive) (room : Nat) (args : List Value) :
    call p.name room args = p.apply room args := by
  rw [call, ofName?_name]

/-- Of numbers it is the function of them. -/
theorem Combines.call_ints (h : Combines p f (ns.map .int)) :
    call p.name room (ns.map .int) s = .ok (.int (f ns)) s := by
  rw [call_name, h, onNumbers, numbers_of_ints]
  rfl

/-- Of other arguments the first that is no number is blamed. -/
theorem Combines.call_first (h : Combines p f (ns.map .int ++ v :: after)) (hv : ¬ v.IsNumber) :
    call p.name room (ns.map .int ++ v :: after) s
      = .error ((Error.notNumber p.name v).fault room) s := by
  rw [call_name, h, onNumbers, numbers_of_first _ ns hv, settle, Run.raise_apply]

/-! ## The laws -/

/-- The laws of arithmetic on any number of arguments.  `+` gives the sum of numbers and `*` their
    product, in whatever order they come.  `-` gives the sum of one number or more in which every
    second one has its sign turned; so the numbers can be split in two, where those of the second
    part keep their signs if there is an even number of others before them.  Arguments that are not
    all numbers are an error of type about the first that is none, or, where it is nested too deep
    for the message that shows it, the fault of depth.  The state stays as it is. -/
theorem arithmetic_laws (room : Nat) (s : State) :
    (∀ ns : List Int,
      call "+" room (ns.map .int) s = .ok (.int ns.sum) s ∧
      call "*" room (ns.map .int) s = .ok (.int ns.prod) s) ∧
    (∀ ms ns : List Int, ms.Perm ns → ∀ name ∈ ["+", "*"],
      call name room (ms.map .int) s = call name room (ns.map .int) s) ∧
    (∀ ns : List Int, ns ≠ [] → call "-" room (ns.map .int) s
      = .ok (.int (∑ i : Fin ns.length, (-1) ^ (i : Nat) * ns[i])) s) ∧
    (∀ ms ns : List Int, ms ≠ [] → ns ≠ [] → ∃ m n,
      call "-" room (ms.map .int) s = .ok (.int m) s ∧
      call "-" room (ns.map .int) s = .ok (.int n) s ∧
      call "-" room (ms.map .int ++ ns.map .int) s
        = .ok (.int (m + (-1) ^ ms.length * n)) s) ∧
    ∀ args : List Value, (∃ v ∈ args, ¬ v.IsNumber) →
      ∃ (ns : List Int) (v : Value) (after : List Value),
        args = ns.map .int ++ v :: after ∧ ¬ v.IsNumber ∧
        ((∀ n ∈ v.integers, Numeral.isTooLong n = false) →
          ∀ name ∈ ["+", "*", "-"], ∃ fault, call name room args s = .error fault s ∧
            ((∃ e, fault = .error e ∧ e = .notNumber name v ∧ e.kind = .type) ∨
              fault = .tooDeep ∧ room < 3 * v.height)) := by
  -- the three procedures fold their arguments, with the sum, the product and the alternating sum
  have hadd : ∀ ns : List Int, call "+" room (ns.map .int) s = .ok (.int ns.sum) s := fun ns =>
    (add_combines _).call_ints
  have hmultiply : ∀ ns : List Int, call "*" room (ns.map .int) s = .ok (.int ns.prod) s :=
    fun ns => (multiply_combines _).call_ints
  have hsubtract : ∀ ns : List Int, ns ≠ [] →
      call "-" room (ns.map .int) s = .ok (.int ns.alternatingSum) s := fun ns hns =>
    (subtract_combines fun hnil => hns (List.map_eq_nil_iff.mp hnil)).call_ints
  refine ⟨fun ns => ⟨hadd ns, hmultiply ns⟩, fun ms ns hperm name hname => ?_, fun ns hns => ?_,
    fun ms ns hms hns => ?_, fun args hargs => ?_⟩
  · simp only [List.mem_cons, List.not_mem_nil, or_false] at hname
    rcases hname with rfl | rfl
    · rw [hadd, hadd, hperm.sum_eq]
    · rw [hmultiply, hmultiply, hperm.prod_eq]
  · rw [hsubtract ns hns, List.alternatingSum_eq_finsetSum]
    simp only [smul_eq_mul]
  · refine ⟨_, _, hsubtract ms hms, hsubtract ns hns, ?_⟩
    rw [← List.map_append, hsubtract _ (List.append_ne_nil_of_left_ne_nil hms ns),
      List.alternatingSum_append, smul_eq_mul]
  · obtain ⟨ns, v, after, rfl, hv⟩ := exists_first_not_number hargs
    refine ⟨ns, v, after, rfl, hv, fun hshort name hname => ?_⟩
    -- after ≠ [] := :: there is an argument at least, so it is not their number that is complained
    -- about
    have hne : ns.map Value.int ++ v :: after ≠ [] :=
      List.append_ne_nil_of_right_ne_nil _ (List.cons_ne_nil v after)
    refine ⟨(Error.notNumber name v).fault room, ?_, ?_⟩
    · simp only [List.mem_cons, List.not_mem_nil, or_false] at hname
      rcases hname with rfl | rfl | rfl
      · exact (add_combines _).call_first hv
      · exact (multiply_combines _).call_first hv
      · exact (subtract_combines hne).call_first hv
    · exact (Error.fault_notNumber hshort name room).imp_left fun h => ⟨_, h, rfl, rfl⟩

/-- `1 - (2 - (3 - 4))` is `1 - 2 + 3 - 4`, and the same in two parts; two factors change places;
    and `#t` is no number, whatever comes after it and however deep that is nested. -/
theorem arithmetic_laws_four :
    call "-" 0 [.int 1, .int 2, .int 3, .int 4] .initial = .ok (.int (-2)) .initial ∧
    (∃ m n, call "-" 0 [.int 1] .initial = .ok (.int m) .initial ∧
      call "-" 0 [.int 2, .int 3, .int 4] .initial = .ok (.int n) .initial ∧
      call "-" 0 [.int 1, .int 2, .int 3, .int 4] .initial
        = .ok (.int (m + (-1) ^ 1 * n)) .initial) ∧
    call "*" 0 [.int 5, .int 7] .initial
      = call "*" 0 [.int 7, .int 5] .initial ∧
    call "*" 0 [.int 5, .bool true, Value.nest 20000] .initial
      = .error (.error (.notNumber "*" (.bool true))) .initial := by
  obtain ⟨-, hperm, hclosed, hsplit, hblame⟩ := arithmetic_laws 0 .initial
  have htrue : ¬ (Value.bool true).IsNumber := fun ⟨_, heq⟩ => nomatch heq
  refine ⟨hclosed [1, 2, 3, 4] (List.cons_ne_nil _ _),
    hsplit [1] [2, 3, 4] (List.cons_ne_nil _ _) (List.cons_ne_nil _ _),
    hperm [5, 7] [7, 5] (.swap _ _ _) "*" (by simp), ?_⟩
  obtain ⟨ns, v, after, heq, hv, hfault⟩ :=
    hblame [.int 5, .bool true, Value.nest 20000]
      ⟨_, List.mem_cons_of_mem _ List.mem_cons_self, htrue⟩
  obtain rfl : v = .bool true := by
    -- the numbers before the offender are a prefix of the arguments, and only one of them fits
    match ns, heq with
    | [], heq => exact absurd ⟨5, (List.cons.inj heq).1.symm⟩ hv
    | [_], heq => exact (List.cons.inj (List.cons.inj heq).2).1.symm
    | _ :: _ :: _, heq => cases (List.cons.inj (List.cons.inj heq).2).1
  obtain ⟨fault, hcall, hends⟩ := hfault (List.forall_mem_nil _) "*" (by simp)
  rcases hends with ⟨_, rfl, rfl, -⟩ | ⟨-, hlt⟩
  · exact hcall
  · cases hlt

end Primitive

/-! ## What is not blamed -/

/-- 20001 lists that are nested are no number, and there is none in them; but to add them to one
    ends in the error about depth, and so blames none of the arguments. -/
theorem deep_list_not_blamed :
    (¬ ∀ args : List Value, (∃ v ∈ args, ¬ v.IsNumber) →
      (∀ n ∈ Value.allIntegers args, Numeral.isTooLong n = false) →
      ∃ v ∈ args, Primitive.call "+" Room.standard args .initial
        = .error (.error (.notNumber "+" v)) .initial) ∧
    Primitive.call "+" Room.standard [.int 1, Value.nest 20000] .initial
      = .error .tooDeep .initial ∧
    Run.guardDepth (Primitive.call "+" Room.standard [.int 1, Value.nest 20000]) .initial
      = .error (.error .tooDeep) .initial ∧
    Error.tooDeep.kind = .recursion := by
  have hother : ¬ (Value.nest 20000).IsNumber := fun ⟨_, heq⟩ => nomatch heq
  -- the message would show the nest
  have hlimit : (Error.notNumber "+" (Value.nest 20000)).limit? Room.standard = some .nesting :=
    Value.textLimit?_nest (by decide)
  have hfault : (Error.notNumber "+" (Value.nest 20000)).fault Room.standard = .tooDeep := by
    rw [Error.fault, hlimit]
    rfl
  have hcall : Primitive.call "+" Room.standard [.int 1, Value.nest 20000] .initial
      = .error .tooDeep .initial := by
    have hcombines : Primitive.Combines .add List.sum ([1].map .int ++ [Value.nest 20000]) :=
      Primitive.add_combines _
    rw [← hfault]
    exact hcombines.call_first hother
  have hshort : ∀ n ∈ Value.allIntegers [.int 1, Value.nest 20000],
      Numeral.isTooLong n = false := by
    rw [Value.allIntegers, Value.allIntegers, Value.integers_nest]
    exact List.forall_mem_singleton.mpr (Numeral.isTooLong_eq_false (by decide))
  refine ⟨fun h => ?_, hcall, ?_, rfl⟩
  · obtain ⟨v, -, hv⟩ := h [.int 1, Value.nest 20000]
      ⟨_, List.mem_cons_of_mem _ List.mem_cons_self, hother⟩ hshort
    rw [hcall] at hv
    cases hv
  · rw [Run.guardDepth_apply, hcall]

end SmallScheme
