/-
  WELL-FORMED VALUES: what reading and evaluating make.

  Not every value that can be written down comes up in a run.  A dotted list that comes up has
  items, and a tail that is no list of either kind; a primitive is one of the catalog; a frame
  binds as many names as it has values; and the quit signal is in nothing at all.  Such values are
  well formed (`Value.WellFormed`), and a state is if its store binds nothing else.

  Along with it goes which faults are to be expected (`Fault.Expected`).  The others stand for what
  must not happen in a program: a primitive that is missing, an item that is not there, a frame
  that does not fit.  To be well formed is just what it takes to rule them out.

  1. The quit signal is no part of a well-formed value (`Value.quit_notMem_parts`).
  2. Letting values in keeps them well formed, and so are looked-up values and bound frames.
  3. The form of a well-formed expression has well-formed parts, and defines no primitive
     (`Form.ofExpr?_wellFormed`); what is wrong with any other is an expected error.
  4. The reader makes well-formed values only.  Its states are well formed one token after the
     other (`step_wellFormed`, `run_wellFormed`), hence all that a text holds is
     (`Script.ofTokens_wellFormed`).

  That runs keep to this is the matter of `SmallScheme.Proofs.Sound`.
-/
import SmallScheme.Proofs.Loading
import SmallScheme.Eval

namespace SmallScheme

/-! ## The notion -/

/-- Is the value a list, proper or dotted? -/
def Value.isListLike : Value → Bool
  | .list _ _ | .dotted _ _ _ => true
  | _ => false

mutual

/-- The value is one that can come up in a run, and so is everything in it. -/
def Value.WellFormed : Value → Prop
  | .bool _ | .int _ | .str _ | .symbol _ | .unspecified => True
  | .list _ vs => Value.AllWellFormed vs
  | .dotted _ vs v =>
    vs ≠ [] ∧ v.isListLike = false ∧ Value.AllWellFormed vs ∧ v.WellFormed
  | .primitive name => (Primitive.ofName? name).isSome
  | .closure _ body env => body.WellFormed ∧ env.WellFormed
  | .quit => False

/-- All of the values are well formed. -/
def Value.AllWellFormed : List Value → Prop
  | [] => True
  | v :: vs => v.WellFormed ∧ Value.AllWellFormed vs

/-- Every frame binds as many names as it has values, and these are well formed. -/
def Env.WellFormed : Env → Prop
  | .empty => True
  | .frame _ names values outer =>
    names.length = values.length ∧ Value.AllWellFormed values ∧ outer.WellFormed

end

/-- What the store binds is well formed, and none of the names is that of a primitive. -/
def State.WellFormed (s : State) : Prop :=
  ∀ name v, (name, v) ∈ s.store.entries → v.WellFormed ∧ Primitive.ofName? name = none

/-- The fault is one that a program can come to: an error, but not that a primitive is missing; a
    limit of the machine; a file that cannot be found or read; or a surrogate that was to be
    displayed. -/
def Fault.Expected : Fault → Prop
  | .error (.noPrimitive _) => False
  | .error _ => True
  | .digitsPrinted | .digitsRead _ | .tooDeep | .tooLong => True
  | .namelessPath _ | .unreadable _ _ | .nullInPath | .undecodable _ => True
  | .unencodable bad => Text.isSurrogate bad.code = true
  | .noItem | .unequalFrame => False
  | .notInteger _ | .unknownLevel _ | .hugeLimit | .noLibraryPath | .noLogLevel => False

/-- In terms of membership, to use what there is about lists. -/
theorem Value.allWellFormed_iff {vs : List Value} :
    Value.AllWellFormed vs ↔ ∀ v ∈ vs, v.WellFormed := by
  induction vs with
  | nil => exact ⟨fun _ _ h => (nomatch h), fun _ => trivial⟩
  | cons v vs ih => rw [Value.AllWellFormed, ih, List.forall_mem_cons]

/-- Two lists of well-formed values, joined. -/
theorem Value.allWellFormed_append {vs ws : List Value} (hvs : Value.AllWellFormed vs)
    (hws : Value.AllWellFormed ws) : Value.AllWellFormed (vs ++ ws) := by
  rw [Value.allWellFormed_iff] at hvs hws ⊢
  intro v hv
  rcases List.mem_append.mp hv with h | h
  · exact hvs v h
  · exact hws v h

/-- The quit signal is not well formed. -/
theorem Value.WellFormed.ne_quit {v : Value} (h : v.WellFormed) : v ≠ .quit := by
  rintro rfl
  exact h

/-! ## Nothing in it is the quit signal -/

mutual

/-- The value and all values in it: items, tails, bodies of closures, and what their frames bind. -/
def Value.parts : Value → List Value
  | .list origin vs => .list origin vs :: Value.allParts vs
  | .dotted origin vs v => .dotted origin vs v :: (Value.allParts vs ++ v.parts)
  | .closure formals body env => .closure formals body env :: (body.parts ++ env.parts)
  | v => [v]

/-- The values and all values in them. -/
def Value.allParts : List Value → List Value
  | [] => []
  | v :: vs => v.parts ++ Value.allParts vs

/-- The values in the frames of an environment, and all values in those. -/
def Env.parts : Env → List Value
  | .empty => []
  | .frame _ _ values outer => Value.allParts values ++ outer.parts

end

mutual

/-- Wherever one looks in a well-formed value, the quit signal is not there. -/
theorem Value.quit_notMem_parts : (v : Value) → v.WellFormed → .quit ∉ v.parts
  | .list origin vs => by
    intro h hq
    rw [Value.parts, List.mem_cons] at hq
    rcases hq with hq | hq
    · cases hq
    · exact Value.quit_notMem_allParts vs h hq
  | .dotted origin vs v => by
    rintro ⟨-, -, hvs, hv⟩ hq
    rw [Value.parts, List.mem_cons, List.mem_append] at hq
    rcases hq with hq | hq | hq
    · cases hq
    · exact Value.quit_notMem_allParts vs hvs hq
    · exact Value.quit_notMem_parts v hv hq
  | .closure formals body env => by
    rintro ⟨hbody, henv⟩ hq
    rw [Value.parts, List.mem_cons, List.mem_append] at hq
    rcases hq with hq | hq | hq
    · cases hq
    · exact Value.quit_notMem_parts body hbody hq
    · exact Env.quit_notMem_parts env henv hq
  -- the one case where the value itself would be the quit signal
  | .quit => fun h => h.elim
  | .bool _ | .int _ | .str _ | .symbol _ | .primitive _ | .unspecified => by
    intro _ hq
    cases List.mem_singleton.mp hq

/-- Nor is it in a list of them. -/
theorem Value.quit_notMem_allParts : (vs : List Value) → Value.AllWellFormed vs →
    .quit ∉ Value.allParts vs
  | [] => by
    intro _ hq
    cases hq
  | v :: vs => by
    rintro ⟨hv, hvs⟩ hq
    rw [Value.allParts, List.mem_append] at hq
    rcases hq with hq | hq
    · exact Value.quit_notMem_parts v hv hq
    · exact Value.quit_notMem_allParts vs hvs hq

/-- Nor in the frames of an environment. -/
theorem Env.quit_notMem_parts : (env : Env) → env.WellFormed → .quit ∉ env.parts
  | .empty => by
    intro _ hq
    cases hq
  | .frame _ _ values outer => by
    rintro ⟨-, hvalues, houter⟩ hq
    rw [Env.parts, List.mem_append] at hq
    rcases hq with hq | hq
    · exact Value.quit_notMem_allParts values hvalues hq
    · exact Env.quit_notMem_parts outer houter hq

end

/-! ## Letting values in -/

/-- Letting a value in does not make it a list. -/
theorem Value.isListLike_stamp (next : Nat) (v : Value) :
    (v.stamp next).1.isListLike = v.isListLike := by
  cases v <;> rfl

/-- Nor does it change how many items there are. -/
theorem Value.length_stampAll (next : Nat) (vs : List Value) :
    (Value.stampAll next vs).1.length = vs.length := by
  induction vs generalizing next with
  | nil => rfl
  | cons v vs ih => exact congrArg Nat.succ (ih _)

mutual

/-- A value that is let in stays well formed. -/
theorem Value.stamp_wellFormed (next : Nat) : (v : Value) → v.WellFormed →
    (v.stamp next).1.WellFormed
  | .list _ vs => fun h => Value.stampAll_wellFormed (next + 1) vs h
  | .dotted _ vs v => by
    -- a stamp keeps the number of items and the kind of the tail
    rintro ⟨hne, htail, hvs, hv⟩
    refine ⟨fun hnil => hne ?_, ?_, Value.stampAll_wellFormed (next + 1) vs hvs,
      Value.stamp_wellFormed _ v hv⟩
    · have hlength := congrArg List.length hnil
      rw [Value.length_stampAll] at hlength
      exact List.length_eq_zero_iff.mp hlength
    · rw [Value.isListLike_stamp]
      exact htail
  | .closure _ body env => fun h =>
    ⟨Value.stamp_wellFormed next body h.1, Env.stamp_wellFormed _ env h.2⟩
  | .bool _ | .int _ | .str _ | .symbol _ | .primitive _ | .unspecified | .quit => fun h => h

/-- So do the values of a list. -/
theorem Value.stampAll_wellFormed (next : Nat) : (vs : List Value) → Value.AllWellFormed vs →
    Value.AllWellFormed (Value.stampAll next vs).1
  | [] => fun h => h
  | v :: vs => fun h =>
    ⟨Value.stamp_wellFormed next v h.1, Value.stampAll_wellFormed _ vs h.2⟩

/-- And an environment: each frame keeps its names and the number of its values. -/
theorem Env.stamp_wellFormed (next : Nat) : (env : Env) → env.WellFormed →
    (env.stamp next).1.WellFormed
  | .empty => fun h => h
  | .frame _ names values outer => by
    rintro ⟨hlength, hvalues, houter⟩
    refine ⟨?_, Value.stampAll_wellFormed (next + 1) values hvalues,
      Env.stamp_wellFormed _ outer houter⟩
    rw [Value.length_stampAll]
    exact hlength

end

/-! ## Looking up and binding -/

/-- What a name is bound to in one frame. -/
theorem Env.find?_wellFormed {name : String} {v : Value} : (names : List String) →
    (values : List Value) → Value.AllWellFormed values → Env.find? name names values = some v →
    v.WellFormed
  | n :: names, w :: values => by
    rintro ⟨hw, hvalues⟩ hv
    rw [Env.find?] at hv
    split at hv
    · cases hv
      exact hw
    · exact Env.find?_wellFormed names values hvalues hv
  | [], _ => by
    intro _ hv
    cases hv
  | _ :: _, [] => by
    intro _ hv
    cases hv

/-- What a name is bound to in an environment, in whichever of its frames. -/
theorem Env.lookup?_wellFormed {name : String} {v : Value} (env : Env) (h : env.WellFormed)
    (hv : env.lookup? name = some v) : v.WellFormed := by
  induction env using Env.lookup?.induct name with
  | case1 => cases hv
  -- bound in this frame, or looked for in the frames around it
  | case2 origin names values outer w hw =>
    rw [Env.lookup?, hw] at hv
    cases hv
    exact Env.find?_wellFormed names values h.2.1 hw
  | case3 origin names values outer hnone ih =>
    rw [Env.lookup?, hnone] at hv
    exact ih h.2.2 hv

/-- Where there are as many values as names, the frame is made, and it is well formed. -/
theorem Env.bind?_wellFormed {env : Env} (h : env.WellFormed) (origin : Origin)
    {names : List String} {values : List Value} (hvalues : Value.AllWellFormed values)
    (hlength : names.length = values.length) :
    ∃ inner, env.bind? origin names values = some inner ∧ inner.WellFormed := by
  refine ⟨.frame origin names values env, ?_, hlength, hvalues, h⟩
  rw [Env.bind?, if_pos hlength]

/-- What is looked up is an entry of the store. -/
theorem Store.mem_of_get? {store : Store} {name : String} {v : Value}
    (h : store.get? name = some v) : (name, v) ∈ store.entries := by
  obtain ⟨entries⟩ := store
  replace h : entries.lookup name = some v := h
  induction entries with
  | nil => cases h
  | cons entry rest ih =>
    obtain ⟨n, w⟩ := entry
    rw [List.lookup_cons] at h
    split at h
    · next hn =>
      obtain rfl : name = n := by simpa using hn
      cases h
      exact List.mem_cons_self
    · exact List.mem_cons_of_mem _ (ih h)

/-- An entry after a definition is the one that was defined, or was there before. -/
theorem Store.mem_put {store : Store} {name n : String} {v w : Value}
    (h : (n, w) ∈ (store.put name v).entries) : (n = name ∧ w = v) ∨ (n, w) ∈ store.entries := by
  obtain ⟨entries⟩ := store
  replace h : (n, w) ∈ putEntry name v entries := h
  show _ ∨ (n, w) ∈ entries
  -- the entries before the one of that name stay, and it alone is replaced
  induction entries with
  | nil =>
    rw [putEntry, List.mem_singleton] at h
    cases h
    exact Or.inl ⟨rfl, rfl⟩
  | cons entry rest ih =>
    obtain ⟨m, u⟩ := entry
    rw [putEntry] at h
    split at h
    · next hm =>
      rcases List.mem_cons.mp h with h | h
      · cases h
        exact Or.inl ⟨hm, rfl⟩
      · exact Or.inr (List.mem_cons_of_mem _ h)
    · rcases List.mem_cons.mp h with h | h
      · cases h
        exact Or.inr List.mem_cons_self
      · exact (ih h).imp_right (List.mem_cons_of_mem _)

/-- A definition keeps the state well formed if it is of no primitive. -/
theorem State.WellFormed.define {s : State} (h : s.WellFormed) {name : String} {v : Value}
    (hname : Primitive.ofName? name = none) (hv : v.WellFormed) :
    State.WellFormed { s with store := s.store.put name v } := by
  intro n w hmem
  rcases Store.mem_put hmem with ⟨rfl, rfl⟩ | hmem
  · exact ⟨hv, hname⟩
  · exact h n w hmem

/-! ## Forms -/

/-- The parts of the form are well formed, and it defines no primitive. -/
def Form.WellFormed : Form → Prop
  | .constant v | .quote v => v.WellFormed
  | .identifier _ | .require _ | .quit => True
  | .lambda _ body => body.WellFormed
  | .cond clauses otherwise? =>
    (∀ clause ∈ clauses, clause.1.WellFormed ∧ clause.2.WellFormed) ∧
      ∀ answer, otherwise? = some answer → answer.WellFormed
  | .define name expr => Primitive.ofName? name = none ∧ expr.WellFormed
  | .and exprs | .or exprs => Value.AllWellFormed exprs
  | .not operand => operand.WellFormed
  | .begin first others => first.WellFormed ∧ Value.AllWellFormed others
  | .call head exprs => head.WellFormed ∧ Value.AllWellFormed exprs

/-- The clauses of a `cond` are made of its parts. -/
theorem Form.clauses?_wellFormed : (vs : List Value) → Value.AllWellFormed vs →
    ∀ clauses otherwise?, Form.clauses? vs = .ok (clauses, otherwise?) →
      (Form.cond clauses otherwise?).WellFormed
  | [] => by
    intro _ clauses otherwise? h
    cases h
    exact ⟨fun _ hmem => (nomatch hmem), fun _ h => (nomatch h)⟩
  | clause :: rest => by
    rintro ⟨hclause, hrest⟩ clauses otherwise? h
    unfold Form.clauses? at h
    split at h
    · split at h
      · cases h
        refine ⟨fun _ hmem => (nomatch hmem), fun answer h => ?_⟩
        cases h
        -- the answer of the else clause is the second item of the clause
        exact hclause.2.1
      · cases h
    · split at h
      · next hok =>
        cases h
        have ih := Form.clauses?_wellFormed rest hrest _ _ hok
        refine ⟨fun c hc => ?_, ih.2⟩
        rcases List.mem_cons.mp hc with rfl | hc
        · exact ⟨hclause.1, hclause.2.1⟩
        · exact ih.1 c hc
      · cases h
    · cases h

/-- So is a body: of one expression it is that expression, of several a `begin`. -/
theorem Form.body_wellFormed {first : Value} {others : List Value} (hfirst : first.WellFormed)
    (hothers : Value.AllWellFormed others) : (Form.body first others).WellFormed := by
  cases others with
  | nil => exact hfirst
  | cons next others => exact ⟨trivial, hfirst, hothers⟩

/-- What a special form is checked to be has well-formed parts. -/
theorem Form.special?_wellFormed {keyword : Keyword} {vs : List Value} {form : Form}
    (h : Value.AllWellFormed vs) (hform : Form.special? keyword vs = .ok form) :
    form.WellFormed := by
  unfold Form.special? at hform
  -- what a form holds are items of the list that it was made of, so only the forms that are built
  -- need a look
  split at hform
  case h_1 datum =>
    cases hform
    exact h.1
  case h_3 params first others =>
    split at hform
    · cases hform
      exact Form.body_wellFormed h.2.1 h.2.2
    · cases hform
  case h_5 clauses =>
    split at hform
    · next hok =>
      cases hform
      exact Form.clauses?_wellFormed _ h _ _ hok
    · cases hform
  case h_6 name expr =>
    split at hform
    · cases hform
    · next hname =>
      cases hform
      exact ⟨by simpa using hname, h.2.1⟩
  case h_9 | h_10 =>
    cases hform
    exact h
  case h_11 operand =>
    cases hform
    exact h.1
  case h_13 first others =>
    cases hform
    exact h
  case h_15 | h_18 =>
    cases hform
    trivial
  all_goals cases hform

/-- The form of a well-formed expression has well-formed parts. -/
theorem Form.ofExpr?_wellFormed {expr : Value} {form : Form} (h : expr.WellFormed)
    (hform : Form.ofExpr? expr = .ok form) : form.WellFormed := by
  unfold Form.ofExpr? at hform
  -- constants and names hold no lists; the forms of a list are those of its items
  split at hform
  case h_1 | h_2 | h_3 =>
    cases hform
    trivial
  case h_4 name =>
    cases hform
    split
    · next hname => exact hname
    · trivial
  case h_6 head operands =>
    split at hform
    · exact Form.special?_wellFormed h.2 hform
    · cases hform
      exact h
  all_goals cases hform

/-- A clause that is none is an error of the program. -/
theorem Form.clauses?_expected {vs : List Value} {e : Error} (h : Form.clauses? vs = .error e) :
    (Fault.error e).Expected := by
  induction vs generalizing e with
  | nil => cases h
  | cons clause rest ih =>
    unfold Form.clauses? at h
    split at h
    · split at h
      · cases h
      · cases h
        trivial
    · split at h
      · cases h
      -- the clause is in order, and a later one is to blame
      · next hrest =>
        cases h
        exact ih hrest
    · cases h
      trivial

/-- So is a special form with the wrong number or kind of operands. -/
theorem Form.special?_expected {keyword : Keyword} {vs : List Value} {e : Error}
    (h : Form.special? keyword vs = .error e) : (Fault.error e).Expected := by
  unfold Form.special? at h
  split at h
  case h_3 params first others =>
    split at h <;> cases h
    trivial
  case h_5 clauses =>
    split at h
    · cases h
    · next hclauses =>
      cases h
      exact Form.clauses?_expected hclauses
  case h_6 name expr =>
    split at h <;> cases h
    trivial
  -- the other forms are made at once, or the number of operands is wrong
  all_goals
    cases h
    try trivial

/-- What can be wrong with the shape of an expression is an error of the program. -/
theorem Form.ofExpr?_expected {expr : Value} {e : Error} (h : Form.ofExpr? expr = .error e) :
    (Fault.error e).Expected := by
  unfold Form.ofExpr? at h
  split at h
  case h_6 head operands =>
    split at h
    · exact Form.special?_expected h
    · cases h
  all_goals
    cases h
    try trivial

/-! ## Reading -/

namespace Reader

/-- The items that have been read are well formed. -/
def Context.WellFormed : Context → Prop
  | .quote => True
  | .list items => Value.AllWellFormed items
  | .tail items => items ≠ [] ∧ Value.AllWellFormed items

/-- All that has been read is well formed. -/
def State.WellFormed : State → Prop
  | .ready _ contexts => ∀ context ∈ contexts, context.WellFormed
  | .full _ items tail contexts =>
    (Context.tail items).WellFormed ∧ tail.WellFormed ∧
      ∀ context ∈ contexts, context.WellFormed

/-- What has been read is well formed, and what stops the reader is expected. -/
def Step.WellFormed : Step → Prop
  | .done v => v.WellFormed
  | .more s => s.WellFormed
  | .fail fault _ => fault.Expected
  | .tooDeep => True

/-- What has been read is well formed, and what stops the reader is expected. -/
def Outcome.WellFormed : Outcome → Prop
  | .done v _ => v.WellFormed
  | .fail fault _ => fault.Expected
  | .starved s => s.WellFormed

/-- A complete datum is put where it belongs.  Quotes around it are completed on the way out, which
    is what the induction is on. -/
theorem complete_wellFormed {v : Value} (hv : v.WellFormed) (room : Nat)
    {contexts : List Context} (h : ∀ context ∈ contexts, context.WellFormed) :
    (complete v room contexts).WellFormed := by
  induction contexts generalizing v room with
  | nil => exact hv
  | cons context outer ih =>
    obtain ⟨hcontext, houter⟩ := List.forall_mem_cons.mp h
    cases context with
    | quote =>
      have hquote : (Value.quoteOf v).WellFormed := ⟨trivial, hv, trivial⟩
      exact ih hquote _ houter
    | list items => exact List.forall_mem_cons.mpr ⟨⟨hv, hcontext⟩, houter⟩
    | tail items => exact ⟨hcontext, hv, houter⟩

end Reader

/-- Items are read in reverse. -/
theorem Value.reverse_wellFormed {vs : List Value} (h : Value.AllWellFormed vs) :
    Value.AllWellFormed vs.reverse := by
  rw [Value.allWellFormed_iff] at h ⊢
  intro v hv
  exact h v (List.mem_reverse.mp hv)

/-- Taking the tail apart leaves no list in the place of a tail. -/
theorem Value.ofTail_wellFormed {items : List Value} {tail : Value} (hne : items ≠ [])
    (hitems : Value.AllWellFormed items) (htail : tail.WellFormed) :
    (Value.ofTail items tail).WellFormed := by
  cases tail with
  -- `(a . (b c))` is `(a b c)`, and `(a . (b . c))` is `(a b . c)`
  | list _ vs => exact Value.allWellFormed_append hitems htail
  | dotted _ vs v =>
    obtain ⟨-, hlist, hvs, hv⟩ := htail
    refine ⟨fun hnil => hne ?_, hlist, Value.allWellFormed_append hitems hvs, hv⟩
    exact (List.append_eq_nil_iff.mp hnil).1
  | _ => exact ⟨hne, rfl, hitems, htail⟩

/-- An atom is a number, a symbol or a truth value. -/
theorem Value.ofAtom?_wellFormed {text : String} {v : Value} (h : Value.ofAtom? text = .ok v) :
    v.WellFormed := by
  unfold Value.ofAtom? at h
  split at h
  · cases h
    trivial
  · cases h
    trivial
  · split at h <;> cases h <;> trivial

/-- The only symbol token without a value is a numeral of too many digits. -/
theorem Value.ofAtom?_eq_error {text : String} {fault : Fault}
    (h : Value.ofAtom? text = .error fault) :
    ∃ count, Numeral.read text.toList = .tooLong count ∧ fault = .digitsRead count := by
  unfold Value.ofAtom? at h
  split at h
  · cases h
  · cases h
  · split at h
    · cases h
    · next count hread =>
      cases h
      exact ⟨count, hread, rfl⟩
    · cases h

namespace Reader

/-- A leaf keeps the reader well formed if its value is well formed, or its fault expected. -/
theorem leaf_wellFormed {result : Except Fault Value}
    (hvalue : ∀ v, result = .ok v → v.WellFormed)
    (hfault : ∀ fault, result = .error fault → fault.Expected) (needed room : Nat)
    {contexts : List Context} (h : ∀ context ∈ contexts, context.WellFormed) :
    (leaf needed result room contexts).WellFormed := by
  unfold leaf
  split
  · trivial
  · cases result with
    | ok v => exact complete_wellFormed (hvalue v rfl) room h
    | error fault => exact hfault fault rfl

/-- So does an atom, whatever its text is. -/
theorem atom_wellFormed (text : String) (room : Nat) {contexts : List Context}
    (h : ∀ context ∈ contexts, context.WellFormed) : (atom text room contexts).WellFormed := by
  refine leaf_wellFormed (fun v => Value.ofAtom?_wellFormed) (fun fault hfault => ?_) _ room h
  obtain ⟨count, -, rfl⟩ := Value.ofAtom?_eq_error hfault
  trivial

/-- A symbol token is an atom, or the dot before a tail. -/
theorem symbol_wellFormed (text : String) (room : Nat) {contexts : List Context}
    (h : ∀ context ∈ contexts, context.WellFormed) : (symbol text room contexts).WellFormed := by
  unfold symbol
  split
  · next items outer =>
    obtain ⟨hitems, houter⟩ := List.forall_mem_cons.mp h
    split
    · split
      · trivial
      -- a dot opens the tail only if there are items before it
      · next hempty =>
        refine List.forall_mem_cons.mpr ⟨⟨?_, hitems⟩, houter⟩
        rintro rfl
        exact hempty rfl
    · exact atom_wellFormed text room h
  · exact atom_wellFormed text room h

/-- An open list or quote has nothing in it yet. -/
theorem enter_wellFormed {context : Context} (hcontext : context.WellFormed) (room : Nat)
    {contexts : List Context} (h : ∀ context ∈ contexts, context.WellFormed) :
    (enter context room contexts).WellFormed := by
  cases room with
  | zero => trivial
  | succ room => exact List.forall_mem_cons.mpr ⟨hcontext, h⟩

/-- A closed list has the items that were read. -/
theorem close_wellFormed (room : Nat) {contexts : List Context}
    (h : ∀ context ∈ contexts, context.WellFormed) : (close room contexts).WellFormed := by
  unfold close
  split
  · next items outer =>
    obtain ⟨hitems, houter⟩ := List.forall_mem_cons.mp h
    have hlist : (Value.ofItems items.reverse).WellFormed := Value.reverse_wellFormed hitems
    exact complete_wellFormed hlist _ houter
  · trivial
  · trivial

/-- One token keeps the reader well formed. -/
theorem step_wellFormed {s : State} (h : s.WellFormed) (token : Token) :
    (s.step token).WellFormed := by
  cases s with
  | ready room contexts =>
    rw [State.step]
    split
    · exact symbol_wellFormed token.text room h
    · refine leaf_wellFormed (fun v hv => ?_) (fun fault hfault => ?_) _ room h
      · cases hv
        trivial
      · cases hfault
    · have hquote : Context.quote.WellFormed := trivial
      exact enter_wellFormed hquote room h
    · have hlist : (Context.list []).WellFormed := trivial
      exact enter_wellFormed hlist room h
    · exact close_wellFormed room h
    · trivial
  | full room items tail contexts =>
    -- after the tail, the list is made if it is closed here
    obtain ⟨⟨hne, hitems⟩, htail, hcontexts⟩ := h
    rw [State.step]
    split
    · refine complete_wellFormed ?_ _ hcontexts
      refine Value.ofTail_wellFormed ?_ (Value.reverse_wellFormed hitems) htail
      intro hnil
      exact hne (List.reverse_eq_nil_iff.mp hnil)
    · trivial

/-- So do all tokens. -/
theorem run_wellFormed {s : State} (h : s.WellFormed) (tokens : List Token) :
    (s.run tokens).WellFormed := by
  induction tokens generalizing s with
  | nil => exact h
  | cons token tokens ih =>
    -- whatever the step comes to is well formed, a fault too
    have hstep := step_wellFormed h token
    rw [State.run]
    split
    · next hs =>
      rw [hs] at hstep
      exact hstep
    · next hs =>
      rw [hs] at hstep
      exact ih hstep
    · next hs =>
      rw [hs] at hstep
      exact hstep
    · trivial

/-- A text that ends too early is an error of the program. -/
theorem atEnd_expected {s : State} {e : Error} (h : s.atEnd = some e) :
    (Fault.error e).Expected := by
  unfold State.atEnd at h
  split at h <;> cases h <;> trivial

end Reader

/-- The reader begins with nothing, so all it comes to is well formed. -/
theorem Tokens.run_wellFormed (room : Nat) (tokens : Tokens) :
    ((Reader.State.start room).run tokens.list).WellFormed := by
  refine Reader.run_wellFormed ?_ tokens.list
  intro context h
  cases h

/-- A datum that has been read is well formed. -/
theorem Tokens.datum_wellFormed {room : Nat} {tokens rest : Tokens} {v : Value}
    (h : tokens.datum room = (.ok (some v), rest)) : v.WellFormed := by
  have hrun := tokens.run_wellFormed room
  unfold Tokens.datum at h
  split at h
  · next hr =>
    cases h
    rw [hr] at hrun
    exact hrun
  · cases h
  · split at h
    · cases h
    · split at h <;> cases h

/-- A datum that cannot be read ends in an expected fault. -/
theorem Tokens.datum_expected {room : Nat} {tokens rest : Tokens} {fault : Fault}
    (h : tokens.datum room = (.error fault, rest)) : fault.Expected := by
  -- the tokens end the run, or else the end of the text is what is wrong
  have hrun := tokens.run_wellFormed room
  unfold Tokens.datum at h
  split at h
  · cases h
  · next hr =>
    cases h
    rw [hr] at hrun
    exact hrun
  · split at h
    · cases h
      trivial
    · split at h
      · next hend =>
        cases h
        exact Reader.atEnd_expected hend
      · cases h

/-- What a text holds is well formed, and what stops the reader is expected. -/
theorem Script.ofTokens_wellFormed (room : Nat) (tokens : Tokens) :
    Value.AllWellFormed (Script.ofTokens room tokens).forms ∧
    ∀ fault, (Script.ofTokens room tokens).fault? = some fault → fault.Expected := by
  rw [Script.ofTokens_eq]
  split
  · next v rest hd =>
    have hlt : rest.list.length < tokens.list.length := Tokens.length_lt_of_datum hd
    obtain ⟨hforms, hfault⟩ := Script.ofTokens_wellFormed room rest
    exact ⟨⟨Tokens.datum_wellFormed hd, hforms⟩, hfault⟩
  · exact ⟨trivial, fun _ h => (nomatch h)⟩
  · next fault rest hd =>
    refine ⟨trivial, fun _ h => ?_⟩
    cases h
    exact Tokens.datum_expected hd
termination_by tokens.list.length

end SmallScheme
