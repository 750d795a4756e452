/-
  MALFORMED EXPRESSIONS are rejected before they do anything.

  An expression is malformed if it is an empty list, a dotted list, or a special form with the
  wrong operands: too many of them, too few, or one that is not what has to stand there.  The last
  may be anywhere, as the clauses of a `cond` show: the malformed one can come after any number of
  others that would do something.  But the whole shape of a form is checked before the first of
  its parts is evaluated.  So all that happens is an error, whatever the rest of the form is and
  whatever evaluates its parts (`Trace.step_of_error`).

  Structure:
    1. What is malformed, said of the operands of each keyword and without the checks.
    2. The checks of a form accept just what is not malformed, and the error that they give blames
       one of the operands, or is about their number (`Form.special?_checks`).
    3. What the message of an error takes: two of the room for each layer of what it shows.
    4. Rejection.  A step on what is no form is the error and nothing else, traced by itself
       (`Trace.step_of_error`), so no other expression has been evaluated.
    5. A message that cannot be written.  A form may be read, and yet be nested too deep for the
       message that tells what is wrong with it.

  The error says what is wrong, by its kind.  Only its message can be in the way: it may have to
  show a part of the form, and this takes room for the nesting of the part.
-/
import SmallScheme.Proofs.Aloof
import SmallScheme.Proofs.Trace
import SmallScheme.Proofs.Tree

namespace SmallScheme

/-! ## What is malformed -/

namespace Value

/-- The value is a list of symbols. -/
def IsSymbolList (v : Value) : Prop :=
  ∃ origin vs, v = .list origin vs ∧ ∀ w ∈ vs, ∃ name, w = .symbol name

/-- The value is a list of two: a question and its answer. -/
def IsClause (v : Value) : Prop := ∃ origin question answer, v = .list origin [question, answer]

/-- It is one with `else` for its question. -/
def IsElse (v : Value) : Prop := ∃ origin answer, v = .list origin [.symbol "else", answer]

end Value

/-- One of the values is no clause, or has `else` for its question and is not the last. -/
def MisshapenClauses (vs : List Value) : Prop :=
  ∃ before clause after, vs = before ++ clause :: after ∧
    (¬ clause.IsClause ∨ clause.IsElse ∧ after ≠ [])

/-- The operands are not such as the keyword demands. -/
def Keyword.Misshapen : Keyword → List Value → Prop
  | .quote, operands | .not, operands => operands.length ≠ 1
  | .lambda, operands =>
    operands.length < 2 ∨ ∃ params forms, operands = params :: forms ∧ ¬ params.IsSymbolList
  | .cond, clauses => MisshapenClauses clauses
  | .define, operands =>
    operands.length ≠ 2 ∨ ∃ target expr, operands = [target, expr] ∧
      ∀ name, target = .symbol name → (Primitive.ofName? name).isSome
  | .and, _ | .or, _ => False
  | .begin, operands => operands = []
  | .require, operands => ¬ ∃ name, operands = [.str name]
  | .quit, operands => operands ≠ []

/-- The expression is an empty list, a dotted list, or a special form with operands that are not
    such as it demands. -/
inductive Value.Malformed : Value → Prop where
  | empty (origin : Origin) : Malformed (.list origin [])
  | dotted (origin : Origin) (vs : List Value) (v : Value) : Malformed (.dotted origin vs v)
  | special (origin : Origin) (keyword : Keyword) {operands : List Value} :
    keyword.Misshapen operands → Malformed (.list origin (.symbol keyword.name :: operands))

/-! ## The checks of a form -/

/-- The error is about a shape or a number of operands, and what its message shows is one of the
    values. -/
structure Error.Blames (e : Error) (vs : List Value) : Prop where
  kind : e.kind = .arity ∨ e.kind = .shape
  shown : (∀ room, e.limit? room = none) ∨
    ∃ v ∈ vs, ∀ room, e.limit? room = v.detailLimit? (room + Room.margin)

/-- An error with a message that shows no value. -/
theorem Error.Blames.silent {e : Error} {vs : List Value}
    (hkind : e.kind = .arity ∨ e.kind = .shape) (hlimit : ∀ room, e.limit? room = none) :
    e.Blames vs := ⟨hkind, Or.inl hlimit⟩

/-- An error with a message that shows one of the values. -/
theorem Error.Blames.shows {e : Error} {vs : List Value} (v : Value) (hv : v ∈ vs)
    (hkind : e.kind = .shape)
    (hlimit : ∀ room, e.limit? room = v.detailLimit? (room + Room.margin)) : e.Blames vs :=
  ⟨Or.inr hkind, Or.inr ⟨v, hv, hlimit⟩⟩

/-- What blames one of the values blames one of more values. -/
theorem Error.Blames.mono {e : Error} {vs ws : List Value} (h : e.Blames vs) (hsub : vs ⊆ ws) :
    e.Blames ws where
  kind := h.kind
  shown := h.shown.imp_right fun ⟨v, hv, hlimit⟩ => ⟨v, hsub hv, hlimit⟩

/-- Without clauses none is misshapen. -/
theorem not_misshapenClauses_nil : ¬ MisshapenClauses [] := by
  rintro ⟨before, clause, after, heq, -⟩
  exact List.append_ne_nil_of_right_ne_nil before (List.cons_ne_nil clause after) heq.symm

/-- The first of the clauses is misshapen, or one of the others. -/
theorem misshapenClauses_cons_iff {clause : Value} {rest : List Value} :
    MisshapenClauses (clause :: rest) ↔
      ¬ clause.IsClause ∨ clause.IsElse ∧ rest ≠ [] ∨ MisshapenClauses rest := by
  constructor
  · rintro ⟨before, bad, after, heq, hbad⟩
    rcases List.cons_eq_append_iff.mp heq with ⟨rfl, hcons⟩ | ⟨before', rfl, hrest⟩
    · obtain ⟨rfl, rfl⟩ := List.cons.inj hcons
      exact hbad.imp_right Or.inl
    · exact Or.inr (Or.inr ⟨before', bad, after, hrest, hbad⟩)
  · rintro (hclause | helse | ⟨before, bad, after, heq, hbad⟩)
    · exact ⟨[], clause, rest, rfl, Or.inl hclause⟩
    · exact ⟨[], clause, rest, rfl, Or.inr helse⟩
    · exact ⟨clause :: before, bad, after, congrArg (clause :: ·) heq, hbad⟩

namespace Form

/-- A check accepts what is not wrong; and of what is wrong, its error blames one of the values. -/
def Checks {α : Type} (result : Except Error α) (wrong : Prop) (vs : List Value) : Prop :=
  match result with
  | .ok _ => ¬ wrong
  | .error e => wrong ∧ e.Blames vs

/-- The clauses of a `cond` are all checked. -/
theorem clauses?_checks (vs : List Value) : Checks (clauses? vs) (MisshapenClauses vs) vs := by
  fun_induction clauses? vs with
  | case1 => exact not_misshapenClauses_nil
  | case2 rest origin answer hlast =>
    obtain rfl := List.isEmpty_iff.mp hlast
    show ¬ _
    rw [misshapenClauses_cons_iff]
    -- an else clause at the end is in order: it is a clause, no other follows it, and there is no
    -- more to check
    rintro (hclause | ⟨-, hmore⟩ | hrest)
    · exact hclause ⟨_, _, _, rfl⟩
    · exact hmore rfl
    · exact not_misshapenClauses_nil hrest
  | case3 rest origin answer hmore =>
    -- an else clause with clauses after it
    have hne : rest ≠ [] := fun hnil => hmore (List.isEmpty_iff.mpr hnil)
    exact ⟨misshapenClauses_cons_iff.mpr (Or.inr (Or.inl ⟨⟨_, _, rfl⟩, hne⟩)),
      .silent (Or.inr rfl) fun _ => rfl⟩
  | case4 rest origin question answer hquestion clauses otherwise? hrest ih =>
    rw [hrest] at ih
    show ¬ _
    rw [misshapenClauses_cons_iff]
    rintro (hclause | ⟨⟨_, _, helse⟩, -⟩ | hbad)
    · exact hclause ⟨_, _, _, rfl⟩
    · exact hquestion (List.cons.inj (Value.list.inj helse).2).1
    · exact ih hbad
  | case5 rest origin question answer hquestion e hrest ih =>
    rw [hrest] at ih
    exact ⟨misshapenClauses_cons_iff.mpr (Or.inr (Or.inr ih.1)),
      ih.2.mono (List.subset_cons_self _ _)⟩
  | case6 clause rest helse hclause =>
    refine ⟨misshapenClauses_cons_iff.mpr (Or.inl ?_),
      .shows clause List.mem_cons_self rfl fun _ => rfl⟩
    rintro ⟨origin, question, answer, heq⟩
    exact hclause origin question answer heq

/-- All values have a name as symbols just if all of them are symbols. -/
theorem isSome_mapM_symbolName? (vs : List Value) :
    (vs.mapM Value.symbolName?).isSome = true ↔ ∀ v ∈ vs, ∃ name, v = .symbol name := by
  induction vs with
  | nil => exact ⟨fun _ => List.forall_mem_nil _, fun _ => rfl⟩
  | cons v vs ih =>
    rw [List.forall_mem_cons, ← ih, List.mapM_cons]
    cases v with
    | symbol name =>
      cases vs.mapM Value.symbolName? with
      | none => exact ⟨nofun, fun h => h.2⟩
      | some names => exact ⟨fun _ => ⟨⟨name, rfl⟩, rfl⟩, fun _ => rfl⟩
    | _ => exact ⟨nofun, fun ⟨⟨_, heq⟩, _⟩ => nomatch heq⟩

/-- Parameters are accepted just if they are a list of symbols. -/
theorem isSome_formals? (v : Value) : (formals? v).isSome = true ↔ v.IsSymbolList := by
  cases v with
  | list origin vs =>
    rw [formals?, isSome_mapM_symbolName?]
    constructor
    · exact fun h => ⟨origin, vs, rfl, h⟩
    · rintro ⟨_, _, heq, h⟩
      obtain ⟨-, rfl⟩ := Value.list.inj heq
      exact h
  | _ => exact ⟨nofun, fun ⟨_, _, heq, _⟩ => nomatch heq⟩

/-- The operands of a special form are all checked. -/
theorem special?_checks (keyword : Keyword) (operands : List Value) :
    Checks (special? keyword operands) (keyword.Misshapen operands) operands := by
  fun_cases special? keyword operands with
  | case1 | case14 => exact not_not_intro rfl
  | case2 _ hcount | case15 _ hcount =>
    -- a quote or a negation takes one operand
    have hlength : operands.length ≠ 1 := fun hone =>
      have ⟨operand, heq⟩ := List.length_eq_one_iff.mp hone
      hcount operand heq
    exact ⟨hlength, .silent (Or.inl rfl) fun _ => rfl⟩
  | case3 params first others formals hformals =>
    -- the parameters of a lambda are symbols just if they are taken as formals
    have hsymbols : params.IsSymbolList := (isSome_formals? params).mp (by rw [hformals]; rfl)
    rintro (hcount | ⟨_, _, heq, hparams⟩)
    · simp only [List.length_cons] at hcount
      omega
    · obtain ⟨rfl, -⟩ := List.cons.inj heq
      exact hparams hsymbols
  | case4 params first others hformals =>
    refine ⟨Or.inr ⟨params, _, rfl, fun hsymbols => ?_⟩,
      .shows params List.mem_cons_self rfl fun _ => rfl⟩
    rw [← isSome_formals?, hformals] at hsymbols
    cases hsymbols
  | case5 _ hcount =>
    refine ⟨Or.inl (Nat.lt_of_not_le fun hle => ?_), .silent (Or.inl rfl) fun _ => rfl⟩
    match operands, hle with
    | params :: first :: others, _ => exact hcount params first others rfl
  | case6 _ clauses otherwise? hclauses =>
    -- the clauses are checked one by one
    have h := clauses?_checks operands
    rw [hclauses] at h
    exact h
  | case7 _ e hclauses =>
    have h := clauses?_checks operands
    rw [hclauses] at h
    exact h
  | case8 name expr hreserved =>
    -- the name of a primitive cannot be defined
    have hwrong : ∀ other, Value.symbol name = .symbol other →
        (Primitive.ofName? other).isSome = true := by
      intro other heq
      rwa [← Value.symbol.inj heq]
    exact ⟨Or.inr ⟨_, expr, rfl, hwrong⟩, .silent (Or.inr rfl) fun _ => rfl⟩
  | case9 name expr hfree =>
    rintro (hcount | ⟨_, _, heq, hreserved⟩)
    · exact hcount rfl
    · obtain ⟨rfl, -⟩ := List.cons.inj heq
      exact hfree (hreserved name rfl)
  | case10 v expr hname =>
    exact ⟨Or.inr ⟨v, expr, rfl, fun name heq => (hname name heq).elim⟩,
      .shows v List.mem_cons_self rfl fun _ => rfl⟩
  | case11 _ hsymbol hcount =>
    -- a definition takes a name and an expression
    have hlength : operands.length ≠ 2 := fun htwo =>
      have ⟨v, expr, heq⟩ := List.length_eq_two.mp htwo
      hcount v expr heq
    exact ⟨Or.inl hlength, .silent (Or.inl rfl) fun _ => rfl⟩
  | case12 | case13 => exact id
  | case16 => exact List.cons_ne_nil _ _
  | case17 => exact ⟨rfl, .silent (Or.inl rfl) fun _ => rfl⟩
  | case18 name => exact not_not_intro ⟨name, rfl⟩
  | case19 v hname =>
    -- what is required is named by a string
    have hwrong : ¬ ∃ name, [v] = [Value.str name] := fun ⟨name, heq⟩ =>
      hname name (List.cons.inj heq).1
    exact ⟨hwrong, .shows v List.mem_cons_self rfl fun _ => rfl⟩
  | case20 _ hname hcount =>
    exact ⟨fun ⟨name, heq⟩ => hname name heq, .silent (Or.inl rfl) fun _ => rfl⟩
  | case21 => exact not_not_intro rfl
  | case22 _ hnone => exact ⟨hnone, .silent (Or.inl rfl) fun _ => rfl⟩

end Form

/-! ## What the message of an error takes -/

/-- A value has no more layers than the one of all values that has most. -/
theorem Value.layers_le_mostLayers {v : Value} {vs : List Value} (h : v ∈ vs) :
    v.layers ≤ Value.mostLayers vs := by
  induction h with
  | head vs => exact Nat.le_max_left _ _
  | tail w _ ih => exact Nat.le_trans ih (Nat.le_max_right _ _)

/-- The integers of a value are among those of all values. -/
theorem Value.integers_subset {v : Value} {vs : List Value} (h : v ∈ vs) :
    v.integers ⊆ Value.allIntegers vs := by
  induction h with
  | head vs => exact List.subset_append_left _ _
  | tail w _ ih => exact List.Subset.trans ih (List.subset_append_right _ _)

/-- Showing a leaf, or beginning with what is in a list or a closure, takes no more than the
    margin. -/
theorem Value.detailRoom_le_margin (v : Value) : v.detailRoom ≤ Room.margin := by
  unfold detailRoom
  split <;> (repeat' split) <;> decide

mutual

/-- A value without numbers that are too long can be shown in detail, but for its nesting. -/
theorem Value.shows_detail {room : Nat} : (v : Value) →
    (∀ n ∈ v.integers, Numeral.isTooLong n = false) → Shows 2 (v.detailLimit? room) room v.layers
  | .int n => by
    intro hshort
    rw [Value.detailLimit?]
    exact Shows.int hshort (Value.detailRoom_le_margin _)
  | .list _ vs => by
    intro hshort
    rw [Value.detailLimit?, Value.layers]
    exact (Value.shows_details vs hshort).guarded (by decide) (by decide)
  | .dotted _ vs v => by
    intro hshort
    obtain ⟨hvs, hv⟩ := List.forall_mem_append.mp hshort
    -- the tail gets a little more room than the items, and needs no more than they do
    have hless : room - Room.detail ≤ room - Room.nested := Nat.sub_le_sub_left (by decide) room
    have htail := (Value.shows_detail v hv).mono hless (Nat.le_refl _)
    rw [Value.detailLimit?, Value.layers]
    exact ((Value.shows_details vs hvs).first htail).guarded (by decide) (by decide)
  | .closure _ body env => by
    intro hshort
    rw [Value.detailLimit?, Value.layers]
    have hbody : Shows 2 _ (room - Room.detail) _ := Value.shows_detail body hshort
    exact (hbody.mono (Nat.le_refl _) (Nat.le_max_left _ _)).guarded
      (Value.detailRoom_le_margin _) (by decide)
  | .bool _ | .str _ | .symbol _ | .primitive _ | .unspecified | .quit => by
    intro _
    simp only [Value.detailLimit?]
    exact Shows.leaf (Value.detailRoom_le_margin _)

/-- So can values one after the other. -/
theorem Value.shows_details {room : Nat} : (vs : List Value) →
    (∀ n ∈ Value.allIntegers vs, Numeral.isTooLong n = false) →
    Shows 2 (Value.detailLimits? room vs) room (Value.mostLayers vs)
  | [] => fun _ => Or.inl rfl
  | v :: vs => by
    intro hshort
    obtain ⟨hv, hvs⟩ := List.forall_mem_append.mp hshort
    rw [Value.detailLimits?, Value.mostLayers]
    exact (Value.shows_detail v hv).first (Value.shows_details vs hvs)

end

/-! ## Rejection -/

/-- What a malformed expression ends in, where there is so much room: an error about a shape or a
    number of operands, unless there is too little room for what the message has to show. -/
def Value.EndsIn (expr : Value) (room : Nat) (fault : Fault) : Prop :=
  (∃ e, fault = .error e ∧ (e.kind = .arity ∨ e.kind = .shape)) ∨
    fault = .tooDeep ∧ room < 2 * expr.layers

/-- The fault that raising the error ends in. -/
def Error.fault (e : Error) (room : Nat) : Fault :=
  match e.limit? room with
  | some limit => .ofLimit limit
  | none => .error e

/-- To raise an error ends in its fault and does nothing else. -/
theorem Run.raise_apply {α : Type} (room : Nat) (e : Error) (s : State) :
    (Run.raise room e : Run α) s = .error (e.fault room) s := by
  unfold Run.raise Error.fault
  cases e.limit? room <;> rfl

/-- The values shown are no deeper than the expression, and their integers are in it. -/
theorem Error.Blames.endsIn {e : Error} {vs : List Value} (h : e.Blames vs) {expr : Value}
    (hshort : ∀ n ∈ expr.integers, Numeral.isTooLong n = false)
    (hvs : ∀ v ∈ vs, v.layers ≤ expr.layers ∧ v.integers ⊆ expr.integers) (room : Nat) :
    expr.EndsIn room (e.fault room) := by
  unfold Error.fault
  rcases h.shown with hnone | ⟨v, hv, hlimit⟩
  · rw [hnone room]
    exact Or.inl ⟨e, rfl, h.kind⟩
  -- its integers are short, so only its layers can be too much for the room
  · obtain ⟨hlayers, hintegers⟩ := hvs v hv
    rw [hlimit room]
    have hshows : Shows 2 _ (room + Room.margin) _ :=
      v.shows_detail fun n hn => hshort n (hintegers hn)
    rcases hshows.with_margin with hnone | ⟨hnesting, hlt⟩
    · rw [hnone]
      exact Or.inl ⟨e, rfl, h.kind⟩
    · rw [hnesting]
      exact Or.inr ⟨rfl, by omega⟩

/-- The check of a malformed expression finds its error. -/
theorem Form.ofExpr?_malformed {expr : Value} (h : expr.Malformed)
    (hshort : ∀ n ∈ expr.integers, Numeral.isTooLong n = false) :
    ∃ e, Form.ofExpr? expr = .error e ∧ ∀ room, expr.EndsIn room (e.fault room) := by
  cases h with
  | empty origin =>
    have hblames : Error.emptyCall.Blames [] := .silent (Or.inr rfl) fun _ => rfl
    exact ⟨_, rfl, hblames.endsIn hshort (List.forall_mem_nil _)⟩
  | dotted origin vs v =>
    have hblames : (Error.dottedCall (.dotted origin vs v)).Blames [.dotted origin vs v] :=
      .shows _ List.mem_cons_self rfl fun _ => rfl
    exact ⟨_, rfl, hblames.endsIn hshort (List.forall_mem_singleton.mpr
      ⟨Nat.le_refl _, List.Subset.refl _⟩)⟩
  | @special origin keyword operands hwrong =>
    have hform : Form.ofExpr? (.list origin (.symbol keyword.name :: operands))
        = Form.special? keyword operands := by
      rw [Form.ofExpr?, Value.keyword?, Keyword.ofName?_name]
    -- the check cannot accept what is misshapen, so there is an error to blame an operand
    have hchecks := Form.special?_checks keyword operands
    rw [hform]
    cases hspecial : Form.special? keyword operands with
    | ok form =>
      rw [hspecial] at hchecks
      exact absurd hwrong hchecks
    | error e =>
      rw [hspecial] at hchecks
      refine ⟨e, rfl, hchecks.2.endsIn hshort fun v hv => ?_⟩
      have hmem : v ∈ Value.symbol keyword.name :: operands := List.mem_cons_of_mem _ hv
      exact ⟨Nat.le_succ_of_le (Value.layers_le_mostLayers hmem), Value.integers_subset hmem⟩

namespace Trace

variable (loader? : Option Loader) {expr : Value} {e : Error}

/-- A step on what is no form ends in the error, whatever would evaluate the parts. -/
theorem step_of_error (ev : Watcher) (hroom : ev.room ≠ 0) (h : Form.ofExpr? expr = .error e)
    (env : Env) (s : State) :
    step loader? ev expr env s = ([⟨expr, env, s⟩], .error (e.fault ev.room) s) := by
  have hraise : (liftM (Run.raise ev.room e : Run Value) : Traced Value) s
      = ([], .error (e.fault ev.room) s) := congrArg (([], ·)) (Run.raise_apply ev.room e s)
  have hfail : (Host.way loader? ev).fail e s = ([], .error (e.fault ev.room) s) := by
    show ((liftM (Run.raise ev.room e : Run Value) : Traced Value) >>= _) s = _
    rw [Noted.bind_apply, hraise]
  rw [step, Host.step, if_neg hroom, Noted.bind_apply, Way.eval, h]
  show ([_] ++ ((Host.way loader? ev).fail e s).1, ((Host.way loader? ev).fail e s).2) = _
  rw [hfail]
  rfl

/-- The evaluation of what is no form is this step alone. -/
theorem evaluate_of_error (steps room : Nat) (h : Form.ofExpr? expr = .error e) (env : Env)
    (s : State) : evaluate loader? (steps + 1) (room + 1) 0 expr env s
      = ([⟨expr, env, s⟩], .error (e.fault (room + 1)) s) := by
  let ev : Watcher := ⟨room + 1, fun below => evaluate loader? (steps + 1) room (below - 1)⟩
  have hroom : (ev.deeper 0).room ≠ 0 := Nat.succ_ne_zero room
  show (step loader? (ev.deeper 0) expr env >>= _) s = _
  rw [Noted.bind_apply, step_of_error loader? _ hroom h]
  rfl

end Trace

/-- Malformed expressions are rejected before they do anything.  There is an error about a shape or
    a number of operands, or, where the message has to show what is nested too deep for the room
    that there is, the fault that says so.  The state is the same as before, and no other
    expression has been evaluated: neither where the expression is evaluated for its value, nor
    where it is what is left of another one, whatever evaluates the parts. -/
theorem malformed_rejected (loader? : Option Loader) (steps room : Nat) {expr : Value}
    (hmalformed : expr.Malformed) (hshort : ∀ n ∈ expr.integers, Numeral.isTooLong n = false)
    (env : Env) (s : State) :
    ∃ fault, expr.EndsIn (room + 1) fault ∧
      Eval.evaluate loader? (steps + 1) (room + 1) 0 expr env s = .error fault s ∧
      Trace.evaluate loader? (steps + 1) (room + 1) 0 expr env s
        = ([⟨expr, env, s⟩], .error fault s) ∧
      ∀ ev : Watcher, ev.room = room + 1 →
        Trace.step loader? ev expr env s = ([⟨expr, env, s⟩], .error fault s) := by
  obtain ⟨e, hform, hends⟩ := Form.ofExpr?_malformed hmalformed hshort
  have htrace := Trace.evaluate_of_error loader? steps room hform env s
  refine ⟨e.fault (room + 1), hends (room + 1), ?_, htrace, fun ev hroom => ?_⟩
  · rw [← Trace.evaluate_run, Noted.run, htrace]
  · have hne : ev.room ≠ 0 := by
      rw [hroom]
      exact Nat.succ_ne_zero room
    rw [Trace.step_of_error loader? ev hne hform, hroom]

/-- `(cond ((display "a") #t) oops)` displays nothing. -/
theorem malformed_rejected_cond :
    ∃ e, (e.kind = .arity ∨ e.kind = .shape) ∧
      Eval.evaluate none 1 10 0 (.ofItems [.symbol "cond",
        .ofItems [.ofItems [.symbol "display", .str "a"], .bool true], .symbol "oops"]) .empty
        .initial = .error (.error e) .initial := by
  have hmalformed : (Value.ofItems [.symbol "cond",
      .ofItems [.ofItems [.symbol "display", .str "a"], .bool true], .symbol "oops"]).Malformed :=
    .special .unknown .cond ⟨[_], .symbol "oops", [], rfl,
      Or.inl fun ⟨_, _, _, heq⟩ => nomatch heq⟩
  obtain ⟨fault, hends, hrun, -⟩ :=
    malformed_rejected none 0 9 hmalformed (List.forall_mem_nil _) .empty .initial
  rcases hends with ⟨e, rfl, hkind⟩ | ⟨-, hlayers⟩
  · exact ⟨e, hkind, hrun⟩
  · exact absurd hlayers (by decide)

/-! ## A message that cannot be written -/

/-- A list of dotted lists in one another: `((((() . 1) . 1) . 1)`. -/
def Value.dottedNest : (depth : Nat) → Value
  | 0 => .ofItems []
  | depth + 1 => .dotted .unknown [Value.dottedNest depth] (.int 1)

/-- Each dotted list takes two times the room to be shown that it takes to be read. -/
theorem Value.detailLimit?_dottedNest {depth room : Nat} (hroom : room ≤ 2 * depth) :
    (Value.dottedNest depth).detailLimit? room = some .nesting := by
  induction depth generalizing room with
  | zero =>
    obtain rfl := Nat.le_zero.mp hroom
    rfl
  | succ depth ih =>
    have hdetail : Room.detail = 2 := rfl
    rw [Value.dottedNest, Value.detailLimit?, Limit.guarded]
    split
    · rfl
    · rw [Value.detailLimits?, ih (by omega)]

/-- The dotted lists are such as are read. -/
theorem Value.isRead_dottedNest (depth : Nat) :
    (Value.dottedNest depth).IsRead (depth + 1) ∧ (Value.dottedNest depth).DotFree := by
  have hdigits : (Numeral.digitChars 1).length ≤ Numeral.maxDigits := by decide
  induction depth with
  | zero => exact ⟨.list (List.forall_mem_nil _) nofun List.not_mem_nil, List.not_mem_nil, trivial⟩
  | succ depth ih =>
    have hone : (Value.int 1).IsRead (depth + 1) := ⟨hdigits, Nat.zero_le _, rfl, trivial⟩
    obtain ⟨hread, hfree⟩ := ih
    have hdot : Value.dot ∉ [Value.dottedNest depth] := by
      rw [List.mem_singleton]
      cases depth <;> nofun
    exact ⟨.dotted (List.cons_ne_nil _ _) (List.forall_mem_singleton.mpr hread) hdot hone rfl, hdot,
      ⟨hfree, trivial⟩, trivial⟩

/-- The only integer in these lists is a short one. -/
theorem Value.integers_dottedNest (depth : Nat) :
    ∀ n ∈ (Value.dottedNest depth).integers, Numeral.isTooLong n = false := by
  have hone : Numeral.isTooLong 1 = false := Numeral.isTooLong_eq_false (by decide)
  induction depth with
  | zero => exact List.forall_mem_nil _
  | succ depth ih =>
    refine List.forall_mem_append.mpr ⟨?_, List.forall_mem_singleton.mpr hone⟩
    exact List.forall_mem_append.mpr ⟨ih, List.forall_mem_nil _⟩

/-- A dotted list that is read, and is no call, but is nested too deep for the message that says
    so: this ends in the error about depth. -/
theorem malformed_too_deep :
    (Script.ofText Room.standard ((Value.dottedNest 6000).text true)).single
      = .ok (Value.dottedNest 6000) ∧
    (Value.dottedNest 6000).Malformed ∧
    (∀ n ∈ (Value.dottedNest 6000).integers, Numeral.isTooLong n = false) ∧
    Run.guardDepth (Eval.evaluate none 1 Room.standard 0 (Value.dottedNest 6000) .empty) .initial
      = .error (.error .tooDeep) .initial ∧
    Error.tooDeep.kind = .recursion := by
  have hstandard : Room.standard = 9999 + 1 := rfl
  obtain ⟨hread, hfree⟩ := Value.isRead_dottedNest 6000
  -- the message would show the nest in detail, which goes too deep
  have hlimit : (Error.dottedCall (Value.dottedNest 6000)).fault (9999 + 1) = .tooDeep := by
    have hnesting : (Error.dottedCall (Value.dottedNest 6000)).limit? (9999 + 1)
        = some .nesting := Value.detailLimit?_dottedNest (by decide)
    rw [Error.fault, hnesting]
    rfl
  have hrun : Eval.evaluate none 1 (9999 + 1) 0 (Value.dottedNest 6000) .empty .initial
      = .error .tooDeep .initial := by
    rw [← Trace.evaluate_run, Noted.run, Trace.evaluate_of_error none 0 9999 rfl, hlimit]
  have hfits : (Value.dottedNest 6000).Fits Room.standard :=
    Value.fits_of_height_le (Nat.le_trans hread.height_le (by decide))
  refine ⟨(hread.single_text hfits).1 hfree, .dotted _ _ _, Value.integers_dottedNest 6000, ?_,
    rfl⟩
  rw [hstandard, Run.guardDepth_apply, hrun]

end SmallScheme
