/-
  THE GRAMMAR of data.

  A datum is a symbol, a string, a quote and a datum, or a list of items in parentheses, with or
  without a dot and a tail.  `Datum` and `Items` are that grammar, with the value that each datum
  denotes, and with a bound on how deep lists and quotes are nested in it.  The grammar is about
  tokens only; it knows nothing of the reader.

  The reader follows it, as far as there is room.

  1. Tokens that are a datum are read as its value (`Datum.run`).  The proof goes along the
     derivation, and says what the reader does in any contexts, for items are read inside of
     their list.

  2. Conversely, the contexts that the reader is inside of stand for the tokens that it has taken
     (`Holds`).  Every step keeps this true, so what the reader completes is a datum
     (`State.Holds.run`).

  3. From both it follows that tokens begin with one datum at most (`Datum.unique`).  For two
     derivations there is a room in which both are read, and there the reader gives one answer.

  Of the room only two things matter here.  A datum that is nested no deeper than the room goes is
  read, since the margin is enough for its leaves; and a datum that is read is nested no deeper than
  the room and the margin go together.  In between it depends on the leaves, and a datum may be
  refused; but then it is refused as too deep.
-/
import SmallScheme.Proofs.Loading
import SmallScheme.Proofs.WellFormed

namespace SmallScheme

/-! ## The grammar -/

/-- The token that may announce a tail. -/
def Token.dot : Token := ⟨.symbol, "."⟩

/-- What items with a tail denote: the items and those of the tail, if the tail is a list or a
    dotted list, and a dotted list otherwise. -/
inductive Value.Joins (items : List Value) : Value → Value → Prop where
  | list {origin : Origin} {vs : List Value} :
    Joins items (.list origin vs) (.ofItems (items ++ vs))
  | dotted {origin : Origin} {vs : List Value} {v : Value} :
    Joins items (.dotted origin vs v) (.dotted .unknown (items ++ vs) v)
  | other {v : Value} (h : v.isListLike = false) : Joins items v (.dotted .unknown items v)

mutual

/-- The tokens are a datum that denotes the value, nested no deeper than `depth`. -/
inductive Datum : (depth : Nat) → List Token → Value → Prop where
  | symbol {depth : Nat} {text : String} {v : Value} (h : Value.ofAtom? text = .ok v) :
    Datum depth [⟨.symbol, text⟩] v
  | string {depth : Nat} {text : String} : Datum depth [⟨.string, text⟩] (.ofLiteral text)
  | quote {depth : Nat} {mark : String} {ts : List Token} {v : Value} (h : Datum depth ts v) :
    Datum (depth + 1) (⟨.quote, mark⟩ :: ts) (.quoteOf v)
  | list {depth : Nat} {mark mark' : String} {ts : List Token} {vs : List Value}
    (h : Items depth ts vs) :
    Datum (depth + 1) (⟨.opening, mark⟩ :: (ts ++ [⟨.closing, mark'⟩])) (.ofItems vs)
  | dotted {depth : Nat} {mark mark' : String} {ts us : List Token} {vs : List Value}
    {tail v : Value} (hne : vs ≠ []) (hitems : Items depth ts vs) (htail : Datum depth us tail)
    (hv : Value.Joins vs tail v) :
    Datum (depth + 1) (⟨.opening, mark⟩ :: (ts ++ Token.dot :: (us ++ [⟨.closing, mark'⟩]))) v

/-- The tokens are data, none of which begins with a dot. -/
inductive Items : (depth : Nat) → List Token → List Value → Prop where
  | nil {depth : Nat} : Items depth [] []
  | cons {depth : Nat} {ts us : List Token} {v : Value} {vs : List Value}
    (hdot : ts.head? ≠ some Token.dot) (h : Datum depth ts v) (hs : Items depth us vs) :
    Items depth (ts ++ us) (v :: vs)

end

/-- What the reader makes of items and a tail is what they denote. -/
theorem Value.joins_iff {items : List Value} {tail v : Value} :
    Value.Joins items tail v ↔ v = Value.ofTail items tail := by
  constructor
  · intro h
    cases h with
    | list => rfl
    | dotted => rfl
    | other h => cases tail <;> first | rfl | cases h
  · rintro rfl
    cases tail with
    | list => exact .list
    | dotted => exact .dotted
    | _ => exact .other rfl

mutual

/-- A datum may be nested deeper than it is. -/
theorem Datum.mono {depth depth' : Nat} {ts : List Token} {v : Value} (hle : depth ≤ depth') :
    Datum depth ts v → Datum depth' ts v
  | .symbol h => .symbol h
  | .string => .string
  | .quote h => by
    obtain ⟨inner, rfl⟩ := Nat.exists_eq_add_one.mpr (Nat.zero_lt_of_lt hle)
    exact .quote (h.mono (Nat.le_of_succ_le_succ hle))
  | .list h => by
    obtain ⟨inner, rfl⟩ := Nat.exists_eq_add_one.mpr (Nat.zero_lt_of_lt hle)
    exact .list (h.mono (Nat.le_of_succ_le_succ hle))
  | .dotted hne hitems htail hv => by
    obtain ⟨inner, rfl⟩ := Nat.exists_eq_add_one.mpr (Nat.zero_lt_of_lt hle)
    have hle := Nat.le_of_succ_le_succ hle
    exact .dotted hne (hitems.mono hle) (htail.mono hle) hv

/-- So may items. -/
theorem Items.mono {depth depth' : Nat} {ts : List Token} {vs : List Value}
    (hle : depth ≤ depth') : Items depth ts vs → Items depth' ts vs
  | .nil => .nil
  | .cons hdot h hs => .cons hdot (h.mono hle) (hs.mono hle)

end

/-- More items, after those that there are. -/
theorem Items.append {depth : Nat} {ts us : List Token} {vs ws : List Value} :
    Items depth ts vs → Items depth us ws → Items depth (ts ++ us) (vs ++ ws)
  | .nil, hmore => hmore
  | .cons hdot h hs, hmore => by
    rw [List.append_assoc, List.cons_append]
    exact .cons hdot h (hs.append hmore)

/-- One more item. -/
theorem Items.snoc {depth : Nat} {ts us : List Token} {vs : List Value} {v : Value}
    (hs : Items depth ts vs) (hdot : us.head? ≠ some Token.dot) (h : Datum depth us v) :
    Items depth (ts ++ us) (vs ++ [v]) := by
  have hone := Items.cons hdot h .nil
  rw [List.append_nil] at hone
  exact hs.append hone

/-! ## Tokens that are a datum are read -/

namespace Reader

/-- What a step comes to with the tokens that follow. -/
def Step.resume : Step → List Token → Outcome
  | .done v, rest => .done v rest
  | .more s, rest => s.run rest
  | .fail fault _, rest => .fail fault rest
  | .tooDeep, rest => .fail .tooDeep rest

/-- Completing a datum never fails: the list around it takes it as an item or as its tail. -/
theorem complete_goes_on (v : Value) (room : Nat) (contexts : List Context) :
    (∃ w, complete v room contexts = .done w) ∨ ∃ s, complete v room contexts = .more s := by
  induction contexts generalizing v room with
  | nil => exact .inl ⟨v, rfl⟩
  | cons context outer ih =>
    cases context with
    | quote => exact ih _ _
    | list items => exact .inr ⟨_, rfl⟩
    | tail items => exact .inr ⟨_, rfl⟩

/-- So a token that is refused has not completed a datum. -/
theorem complete_ne_fail (v : Value) (room : Nat) (contexts : List Context) (fault : Fault)
    (taken : Bool) : complete v room contexts ≠ .fail fault taken := by
  obtain ⟨w, h⟩ | ⟨s, h⟩ := complete_goes_on v room contexts <;> rw [h] <;> exact nofun

/-- Nor has one that there is no room after. -/
theorem complete_ne_tooDeep (v : Value) (room : Nat) (contexts : List Context) :
    complete v room contexts ≠ .tooDeep := by
  obtain ⟨w, h⟩ | ⟨s, h⟩ := complete_goes_on v room contexts <;> rw [h] <;> exact nofun

/-- A token that completes a datum. -/
theorem run_of_complete {s : State} {token : Token} {v : Value} {room : Nat}
    {contexts : List Context} (h : s.step token = complete v room contexts) (rest : List Token) :
    s.run (token :: rest) = (complete v room contexts).resume rest := by
  rw [State.run, h]
  obtain ⟨w, hc⟩ | ⟨t, hc⟩ := complete_goes_on v room contexts <;> rw [hc] <;> rfl

/-- A dot after items opens the tail. -/
theorem run_dot {items : List Value} (hne : items ≠ []) (room : Nat) (contexts : List Context)
    (rest : List Token) :
    (State.ready room (.list items :: contexts)).run (Token.dot :: rest)
      = (State.ready room (.tail items :: contexts)).run rest := by
  have hstep : (State.ready room (.list items :: contexts)).step Token.dot
      = .more (.ready room (.tail items :: contexts)) := by
    have hempty : items.isEmpty = false := List.isEmpty_eq_false_iff.mpr hne
    show symbol "." room (.list items :: contexts) = _
    rw [symbol, if_pos rfl, hempty, if_neg Bool.false_ne_true]
  rw [State.run, hstep]

/-- A leaf is a complete datum where there is room for it. -/
theorem leaf_of_room {needed room : Nat} (h : needed ≤ room) (v : Value)
    (contexts : List Context) : leaf needed (.ok v) room contexts = complete v room contexts := by
  rw [leaf, if_neg (Nat.not_lt.mpr h)]

/-- A leaf is refused for want of room, or for what is wrong with it. -/
theorem leaf_eq_fail {needed room : Nat} {result : Except Fault Value} {contexts : List Context}
    {fault : Fault} {taken : Bool} (h : leaf needed result room contexts = .fail fault taken) :
    room < needed ∧ fault = .tooDeep ∨ needed ≤ room ∧ result = .error fault := by
  unfold leaf at h
  split at h
  · next hlt =>
    cases h
    exact .inl ⟨hlt, rfl⟩
  · next hlt =>
    cases result with
    | ok v => exact absurd h (complete_ne_fail _ _ _ _ _)
    | error fault =>
      cases h
      exact .inr ⟨Nat.le_of_not_lt hlt, rfl⟩

/-- An atom is refused for want of room, or since it is a numeral of too many digits. -/
theorem atom_eq_fail {text : String} {room : Nat} {contexts : List Context} {fault : Fault}
    {taken : Bool} (h : atom text room contexts = .fail fault taken) :
    room < Room.atom ∧ fault = .tooDeep ∨
    ∃ count, Numeral.read text.toList = .tooLong count ∧ fault = .digitsRead count :=
  (leaf_eq_fail h).imp_right fun ⟨_, hvalue⟩ => Value.ofAtom?_eq_error hvalue

/-- A symbol token is refused as a dot without items before it, or as an atom. -/
theorem symbol_eq_fail {text : String} {room : Nat} {contexts : List Context} {fault : Fault}
    {taken : Bool} (h : symbol text room contexts = .fail fault taken) :
    (text = "." ∧ fault = .error .leadingDot) ∨ atom text room contexts = .fail fault taken := by
  unfold symbol at h
  split at h
  · split at h
    · next htext =>
      split at h
      · cases h
        exact .inl ⟨htext, rfl⟩
      · cases h
    · exact .inr h
  · exact .inr h

/-- A leaf never stops the lexer: its token has been drawn, and no other one has to follow. -/
theorem leaf_ne_tooDeep (needed : Nat) (result : Except Fault Value) (room : Nat)
    (contexts : List Context) : leaf needed result room contexts ≠ .tooDeep := by
  unfold leaf
  split
  · nofun
  · cases result with
    | ok v => exact complete_ne_tooDeep v room contexts
    | error fault => nofun

/-- Nor does any symbol token. -/
theorem symbol_ne_tooDeep (text : String) (room : Nat) (contexts : List Context) :
    symbol text room contexts ≠ .tooDeep := by
  unfold symbol
  split
  · split
    · split <;> nofun
    · exact leaf_ne_tooDeep _ _ _ _
  · exact leaf_ne_tooDeep _ _ _ _

/-- No token is ever refused because of a string that nothing closes: this only comes to light where
    the tokens end. -/
theorem State.step_ne_unterminated {s : State} {token : Token} {fault : Fault} {taken : Bool}
    (h : s.step token = .fail fault taken) (position : Nat) :
    fault ≠ .error (.unterminatedString position) := by
  -- no step gives this fault, whatever the token is: it belongs to the scanner
  rintro rfl
  cases s with
  | full room items tail contexts =>
    rw [State.step] at h
    split at h
    · exact complete_ne_fail _ _ _ _ _ h
    · cases h
  | ready room contexts =>
    rw [State.step] at h
    split at h
    · obtain ⟨-, hfault⟩ | hatom := symbol_eq_fail h
      · cases hfault
      · obtain ⟨-, hfault⟩ | ⟨_, -, hfault⟩ := atom_eq_fail hatom <;> cases hfault
    · obtain ⟨-, hfault⟩ | ⟨-, hok⟩ := leaf_eq_fail h
      · cases hfault
      · cases hok
    · cases room <;> cases h
    · cases room <;> cases h
    · unfold close at h
      split at h
      · exact complete_ne_fail _ _ _ _ _ h
      · cases h
      · cases h
    · cases h

/-- What begins with a dot may be a datum here: the reader is not directly inside a list. -/
def TakesDot (contexts : List Context) : Prop :=
  ∀ items outer, contexts ≠ .list items :: outer

/-- A symbol token is an atom, unless it is a dot directly inside a list. -/
theorem symbol_eq_atom {text : String} {contexts : List Context}
    (h : text = "." → TakesDot contexts) (room : Nat) :
    symbol text room contexts = atom text room contexts := by
  unfold symbol
  split
  · next items outer =>
    split
    · next hdot => exact absurd rfl (h hdot items outer)
    · rfl
  · rfl

end Reader

open Reader (Context State complete TakesDot)

mutual

/-- Tokens that are a datum are read as its value, where there is room for its nesting and, in the
    innermost list, for an atom. -/
theorem Datum.run {depth : Nat} {ts : List Token} {v : Value} :
    Datum depth ts v → ∀ (room : Nat) (contexts : List Context) (rest : List Token),
    depth + Room.atom ≤ room → (ts.head? = some Token.dot → TakesDot contexts) →
    (State.ready room contexts).run (ts ++ rest) = (complete v room contexts).resume rest
  | @Datum.symbol _ text v h => by
    intro room contexts rest hroom hdot
    have hatom : text = "." → TakesDot contexts := fun htext => hdot (by rw [htext]; rfl)
    apply Reader.run_of_complete
    show Reader.symbol text room contexts = _
    rw [Reader.symbol_eq_atom hatom, Reader.atom, h]
    exact Reader.leaf_of_room (Nat.le_of_add_left_le hroom) v contexts
  | .string => by
    intro room contexts rest hroom hdot
    apply Reader.run_of_complete
    have hliteral : Room.literal ≤ Room.atom := by decide
    exact Reader.leaf_of_room (Nat.le_trans hliteral (Nat.le_of_add_left_le hroom)) _ contexts
  | .quote h => by
    intro room contexts rest hroom hdot
    -- the quote takes up one of the room, and what is quoted is read in the others
    obtain ⟨room, rfl⟩ : ∃ inner, room = inner + 1 := ⟨room - 1, by omega⟩
    exact h.run room (.quote :: contexts) rest (by omega) fun _ _ _ => nofun
  | .list h => by
    intro room contexts rest hroom hdot
    obtain ⟨room, rfl⟩ : ∃ inner, room = inner + 1 := ⟨room - 1, by omega⟩
    have hitems := h.run room [] contexts
    rw [List.cons_append, List.append_assoc]
    show (State.ready room (.list [] :: contexts)).run _ = _
    rw [hitems _ (by omega), List.append_nil]
    apply Reader.run_of_complete
    show complete (.ofItems _) (room + 1) contexts = _
    rw [List.reverse_reverse]
  | @Datum.dotted inner _ _ ts us vs tail v hne h htail hv => by
    intro room contexts rest hroom hdot
    obtain ⟨room, rfl⟩ : ∃ inner, room = inner + 1 := ⟨room - 1, by omega⟩
    have hinner : inner + Room.atom ≤ room := by omega
    have hitems := h.run room [] contexts
    have hitem : vs.reverse ≠ [] := fun hnil => hne (List.reverse_eq_nil_iff.mp hnil)
    have htail := htail.run room (.tail vs.reverse :: contexts)
    rw [List.cons_append, List.append_assoc, List.cons_append, List.append_assoc]
    show (State.ready room (.list [] :: contexts)).run _ = _
    rw [hitems _ hinner, List.append_nil, Reader.run_dot hitem, htail _ hinner fun _ _ _ => nofun]
    -- the list is full now, and only the closing parenthesis may follow
    show (State.full room vs.reverse tail contexts).run _ = _
    apply Reader.run_of_complete
    show complete (.ofTail vs.reverse.reverse tail) (room + 1) contexts = _
    rw [List.reverse_reverse, Value.joins_iff.mp hv]

/-- Tokens that are items are read as items of the list that is open. -/
theorem Items.run {depth : Nat} {ts : List Token} {vs : List Value} :
    Items depth ts vs → ∀ (room : Nat) (items : List Value) (contexts : List Context)
    (rest : List Token), depth + Room.atom ≤ room →
    (State.ready room (.list items :: contexts)).run (ts ++ rest)
      = (State.ready room (.list (vs.reverse ++ items) :: contexts)).run rest
  | .nil => fun _ _ _ _ _ => rfl
  | @Items.cons _ ts us v vs hdot h hs => by
    intro room items contexts rest hroom
    have hfirst := h.run room (.list items :: contexts) (us ++ rest) hroom
      fun hhead => absurd hhead hdot
    have hothers := hs.run room (v :: items) contexts rest hroom
    rw [List.append_assoc, hfirst, List.reverse_cons, List.append_assoc]
    exact hothers

end

/-! ## What is read is a datum -/

namespace Reader

/-- The contexts stand for these tokens, which were taken where there was room for `base`
    contexts, of which `room` are left. -/
inductive Holds (base : Nat) : (room : Nat) → List Context → List Token → Prop where
  | nil : Holds base base [] []
  | quote {room : Nat} {contexts : List Context} {ts : List Token} {mark : String}
    (h : Holds base (room + 1) contexts ts) :
    Holds base room (.quote :: contexts) (ts ++ [⟨.quote, mark⟩])
  | list {room : Nat} {contexts : List Context} {ts us : List Token} {mark : String}
    {vs : List Value} (h : Holds base (room + 1) contexts ts) (hitems : Items room us vs) :
    Holds base room (.list vs.reverse :: contexts) (ts ++ ⟨.opening, mark⟩ :: us)
  | tail {room : Nat} {contexts : List Context} {ts us : List Token} {mark : String}
    {vs : List Value} (h : Holds base (room + 1) contexts ts) (hne : vs ≠ [])
    (hitems : Items room us vs) :
    Holds base room (.tail vs.reverse :: contexts) (ts ++ ⟨.opening, mark⟩ :: (us ++ [Token.dot]))

/-- The reader is where these tokens lead to. -/
inductive State.Holds (base : Nat) : State → List Token → Prop where
  | ready {room : Nat} {contexts : List Context} {ts : List Token}
    (h : Reader.Holds base room contexts ts) : Holds base (.ready room contexts) ts
  | full {room : Nat} {contexts : List Context} {ts us ws : List Token} {mark : String}
    {vs : List Value} {v : Value} (h : Reader.Holds base (room + 1) contexts ts) (hne : vs ≠ [])
    (hitems : Items room us vs) (htail : Datum room ws v) :
    Holds base (.full room vs.reverse v contexts)
      (ts ++ ⟨.opening, mark⟩ :: (us ++ Token.dot :: ws))

/-- What a step comes to after these tokens. -/
def Step.Holds (base : Nat) (ts : List Token) : Step → Prop
  | .done v => Datum base ts v
  | .more s => s.Holds base ts
  | .fail _ _ | .tooDeep => True

/-- What all of these tokens come to. -/
def Outcome.Holds (base : Nat) (tokens : List Token) : Outcome → Prop
  | .done v rest => ∃ taken, tokens = taken ++ rest ∧ Datum base taken v
  | .starved s => s.Holds base tokens
  | .fail _ _ => True

variable {base room : Nat} {contexts : List Context} {ts us : List Token} {v : Value}

/-- A datum that is complete goes with the tokens before it. -/
theorem Holds.complete (h : Holds base room contexts ts) (hv : Datum room us v)
    (hdot : us.head? = some Token.dot → TakesDot contexts) :
    (complete v room contexts).Holds base (ts ++ us) := by
  -- the induction is on the open contexts: a quote is completed as well, and its datum goes to the
  -- context outside
  induction h generalizing us v with
  | nil => exact hv
  | quote _ ih =>
    rw [List.append_assoc]
    exact ih hv.quote fun hhead => nomatch hhead
  | @list room contexts ts items mark vs h hitems _ =>
    -- a list does not take a bare dot as its item
    have hhead : us.head? ≠ some Token.dot := fun hhead => hdot hhead _ _ rfl
    have hholds : Holds base room (.list (vs ++ [v]).reverse :: contexts)
        (ts ++ ⟨.opening, mark⟩ :: (items ++ us)) := h.list (hitems.snoc hhead hv)
    rw [List.reverse_append] at hholds
    rw [List.append_assoc]
    exact .ready hholds
  | tail h hne hitems _ =>
    rw [List.append_assoc, List.cons_append, List.append_assoc]
    exact .full h hne hitems hv

/-- A datum that is a context for others begins. -/
theorem Holds.enter {context : Context}
    (h : ∀ inner, room = inner + 1 → Holds base inner (context :: contexts) ts) :
    (enter context room contexts).Holds base ts := by
  cases room with
  | zero => trivial
  | succ room => exact .ready (h room rfl)

/-- A token that is a datum on its own. -/
theorem Holds.leaf {needed : Nat} {result : Except Fault Value} {token : Token}
    (h : Holds base room contexts ts) (hv : ∀ v, result = .ok v → Datum room [token] v)
    (hdot : token = Token.dot → TakesDot contexts) :
    (leaf needed result room contexts).Holds base (ts ++ [token]) := by
  unfold Reader.leaf
  split
  · trivial
  · cases result with
    | ok v => exact h.complete (hv v rfl) fun hhead => hdot (Option.some.inj hhead)
    | error fault => trivial

/-- A symbol token that is an atom. -/
theorem Holds.atom {text : String} (h : Holds base room contexts ts)
    (hdot : text = "." → TakesDot contexts) :
    (atom text room contexts).Holds base (ts ++ [⟨.symbol, text⟩]) :=
  h.leaf (fun _ hv => .symbol hv) fun htoken => hdot (congrArg Token.text htoken)

/-- Directly inside a list a dot after items announces the tail. -/
theorem Holds.dot {items : List Value} {outer : List Context}
    (h : Holds base room (.list items :: outer) ts) (hne : items ≠ []) :
    Holds base room (.tail items :: outer) (ts ++ [Token.dot]) := by
  cases h with
  | list h hitems =>
    rw [List.append_assoc, List.cons_append]
    exact h.tail (fun hnil => hne (by rw [hnil]; rfl)) hitems

/-- A symbol token: it is a dot that announces a tail, or an atom. -/
theorem Holds.symbol {text : String} (h : Holds base room contexts ts) :
    (symbol text room contexts).Holds base (ts ++ [⟨.symbol, text⟩]) := by
  unfold Reader.symbol
  split
  · next items outer =>
    split
    · next htext =>
      subst htext
      split
      · trivial
      · next hempty =>
        exact .ready (h.dot (List.isEmpty_eq_false_iff.mp (eq_false_of_ne_true hempty)))
    · next htext => exact h.atom fun hdot => absurd hdot htext
  · next hlist => exact h.atom fun _ items outer hcontexts => hlist items outer hcontexts

/-- A closing parenthesis after items ends the list. -/
theorem Holds.close {mark : String} (h : Holds base room contexts ts) :
    (close room contexts).Holds base (ts ++ [⟨.closing, mark⟩]) := by
  cases h with
  | list h hitems =>
    rw [List.append_assoc, List.cons_append]
    show (Reader.complete (.ofItems _) _ _).Holds base _
    rw [List.reverse_reverse]
    exact h.complete (.list hitems) fun hhead => nomatch hhead
  | _ => trivial

/-- A token leads from where the tokens before it have led to. -/
theorem State.Holds.step {s : State} (h : s.Holds base ts) (token : Token) :
    (s.step token).Holds base (ts ++ [token]) := by
  obtain ⟨kind, text⟩ := token
  cases h with
  | ready h =>
    cases kind with
    | symbol => exact h.symbol
    | string =>
      have hdatum : ∀ depth v, Except.ok (.ofLiteral text) = (.ok v : Except Fault Value) →
          Datum depth [⟨.string, text⟩] v := by
        intro depth v hv
        cases hv
        exact .string
      exact h.leaf (hdatum _) fun htoken => nomatch congrArg Token.kind htoken
    | quote =>
      refine Reader.Holds.enter fun inner hroom => ?_
      subst hroom
      exact h.quote
    | opening =>
      refine Reader.Holds.enter fun inner hroom => ?_
      subst hroom
      exact h.list .nil
    | closing => exact h.close
    | other name => trivial
  | @full room contexts ts us ws mark vs tail h hne hitems htail =>
    cases kind with
    | closing =>
      -- the parenthesis closes the dotted list, whose items were collected from the last to the
      -- first
      have hv : Datum (room + 1)
          (⟨.opening, mark⟩ :: (us ++ Token.dot :: (ws ++ [⟨.closing, text⟩])))
          (.ofTail vs tail) := .dotted hne hitems htail (Value.joins_iff.mpr rfl)
      simp only [List.append_assoc, List.cons_append]
      show (Reader.complete (.ofTail vs.reverse.reverse tail) (room + 1) contexts).Holds base _
      rw [List.reverse_reverse]
      exact h.complete hv fun hhead => nomatch hhead
    | _ => trivial

/-- What tokens come to is what they stand for, with those before them. -/
theorem State.Holds.run {s : State} (h : s.Holds base ts) (tokens : List Token) :
    (s.run tokens).Holds base (ts ++ tokens) := by
  induction tokens generalizing s ts with
  | nil =>
    rw [List.append_nil]
    exact h
  | cons token tokens ih =>
    -- what is held so far and the token make up what is held next
    have hstep := h.step token
    rw [State.run, List.append_cons]
    cases hs : s.step token with
    | done v =>
      rw [hs] at hstep
      exact ⟨ts ++ [token], rfl, hstep⟩
    | more t =>
      rw [hs] at hstep
      exact ih hstep
    | fail fault taken => trivial
    | tooDeep => trivial

/-- What tokens come to where a datum is to begin. -/
theorem holds_run (room : Nat) (ts : List Token) :
    ((State.start room).run ts).Holds (room + Room.margin) ts :=
  State.Holds.run (.ready .nil) ts

end Reader

/-! ## The reader and the grammar -/

/-- A datum is read where there is room for it and an atom, be it with the help of the margin. -/
theorem Datum.read_within_margin {depth room : Nat} {taken : List Token} {v : Value}
    (h : Datum depth taken v) (hroom : depth + Room.atom ≤ room + Room.margin)
    (rest : List Token) (unclosed? : Option Nat) :
    Tokens.datum room ⟨taken ++ rest, unclosed?⟩ = (.ok (some v), ⟨rest, unclosed?⟩) := by
  have hrun := h.run (room + Room.margin) [] rest hroom fun _ _ _ => nofun
  rw [Tokens.datum, Reader.State.start, hrun]
  rfl

/-- So a datum is read that is nested no deeper than the room goes. -/
theorem Datum.read {depth room : Nat} {taken : List Token} {v : Value} (h : Datum depth taken v)
    (hroom : depth ≤ room) (rest : List Token) (unclosed? : Option Nat) :
    Tokens.datum room ⟨taken ++ rest, unclosed?⟩ = (.ok (some v), ⟨rest, unclosed?⟩) := by
  have hmargin : Room.atom ≤ Room.margin := by decide
  exact h.read_within_margin (Nat.add_le_add hroom hmargin) rest unclosed?

/-- What is read is a datum that there is room for. -/
theorem Tokens.datum_sound {room : Nat} {ts : List Token} {unclosed? : Option Nat} {v : Value}
    {rest : Tokens} (h : Tokens.datum room ⟨ts, unclosed?⟩ = (.ok (some v), rest)) :
    ∃ taken, ts = taken ++ rest.list ∧ rest.unclosed? = unclosed? ∧
      Datum (room + Room.margin) taken v := by
  have hholds := Reader.holds_run room ts
  unfold Tokens.datum at h
  split at h
  · next hrun =>
    cases h
    rw [hrun] at hholds
    obtain ⟨taken, hts, hdatum⟩ := hholds
    exact ⟨taken, hts, rfl, hdatum⟩
  · cases h
  · split at h
    · cases h
    · split at h <;> cases h

/-- Only where there is no token is there no datum and no fault either. -/
theorem Tokens.datum_eq_none_iff {room : Nat} {ts : List Token} {rest : Tokens} :
    Tokens.datum room ⟨ts, none⟩ = (.ok none, rest) ↔ ts = [] ∧ rest = ⟨[], none⟩ := by
  constructor
  · intro h
    have hholds := Reader.holds_run room ts
    unfold Tokens.datum at h
    split at h
    · cases h
    · cases h
    · next s hrun =>
      rw [hrun] at hholds
      dsimp only at h
      split at h
      · cases h
      · next hend =>
        cases h
        refine ⟨?_, rfl⟩
        -- a reader that may stop here is inside of nothing, so it has taken nothing
        cases hholds with
        | full => cases hend
        | ready hcontexts => cases hcontexts <;> first | rfl | cases hend
  · rintro ⟨rfl, rfl⟩
    rfl

mutual

/-- Nesting takes tokens, so a datum is no deeper than it is long. -/
theorem Datum.within_length {depth : Nat} {ts : List Token} {v : Value} :
    Datum depth ts v → Datum ts.length ts v
  | .symbol h => .symbol h
  | .string => .string
  | .quote h => h.within_length.quote
  | .list h => by
    refine .list (h.within_length.mono ?_)
    rw [List.length_append]
    omega
  | .dotted hne hitems htail hv => by
    refine .dotted hne (hitems.within_length.mono ?_) (htail.within_length.mono ?_) hv
    all_goals
      simp only [List.length_append, List.length_cons]
      omega

/-- The same of items. -/
theorem Items.within_length {depth : Nat} {ts : List Token} {vs : List Value} :
    Items depth ts vs → Items ts.length ts vs
  | .nil => .nil
  | .cons hdot h hs => by
    refine .cons hdot (h.within_length.mono ?_) (hs.within_length.mono ?_)
    all_goals
      rw [List.length_append]
      omega

end

/-- Tokens begin with one datum at most. -/
theorem Datum.unique {depth depth' : Nat} {taken taken' rest rest' : List Token} {v v' : Value}
    (h : Datum depth taken v) (h' : Datum depth' taken' v')
    (hts : taken ++ rest = taken' ++ rest') : taken = taken' ∧ rest = rest' ∧ v = v' := by
  have hread := h.read (Nat.le_max_left depth depth') rest none
  have hread' := h'.read (Nat.le_max_right depth depth') rest' none
  rw [hts, hread'] at hread
  cases hread
  exact ⟨List.append_cancel_right hts, rfl, rfl⟩

/-- A datum is read, or there is no room for it. -/
theorem Datum.read_or_tooDeep {depth : Nat} {taken : List Token} {v : Value}
    (h : Datum depth taken v) (room : Nat) (rest : List Token) :
    Tokens.datum room ⟨taken ++ rest, none⟩ = (.ok (some v), ⟨rest, none⟩) ∨
    ∃ left, Tokens.datum room ⟨taken ++ rest, none⟩ = (.error .tooDeep, left) := by
  by_cases hdeep : ∃ left, Tokens.datum room ⟨taken ++ rest, none⟩ = (.error .tooDeep, left)
  · exact .inr hdeep
  -- if it is not too deep, it is read as it is in more room
  · have hread := h.read (Nat.le_add_left depth room) rest none
    rw [Tokens.datum_widen depth room _ fun left hleft => hdeep ⟨left, hleft⟩] at hread
    exact .inl hread

/-- A datum that even the margin is too little for is refused as too deep. -/
theorem Datum.tooDeep {depth room : Nat} {taken : List Token} {v : Value}
    (h : Datum depth taken v) (hdeep : ¬ Datum (room + Room.margin) taken v)
    (rest : List Token) :
    ∃ left, Tokens.datum room ⟨taken ++ rest, none⟩ = (.error .tooDeep, left) := by
  obtain hread | hrefused := h.read_or_tooDeep room rest
  · obtain ⟨taken', hts, -, h'⟩ := Tokens.datum_sound hread
    rw [List.append_cancel_right hts] at hdeep
    exact absurd h' hdeep
  · exact hrefused

/-- The reader and the grammar agree on every list of tokens.  What is read is a datum that the
    tokens begin with, nested no deeper than the room and the margin go; and a datum that the tokens
    begin with is read if it is nested no deeper than the room goes, as it is if there is room for
    as many contexts as it has tokens.  Tokens begin with one datum at most.  In any room, a datum
    is either read or refused as too deep, and what is read stays so in more room.  There is no
    datum and no fault just where there is no token, and tokens that begin with no datum are at
    fault. -/
theorem reads_just_the_grammar (room : Nat) (ts : List Token) :
    (∀ v rest, Tokens.datum room ⟨ts, none⟩ = (.ok (some v), rest) →
      ∃ taken, ts = taken ++ rest.list ∧ rest.unclosed? = none ∧
        Datum (room + Room.margin) taken v) ∧
    (∀ depth depth' taken taken' rest rest' v v', ts = taken ++ rest → ts = taken' ++ rest' →
      Datum depth taken v → Datum depth' taken' v' → taken = taken' ∧ rest = rest' ∧ v = v') ∧
    (∀ depth taken rest v, ts = taken ++ rest → Datum depth taken v →
      (taken.length ≤ room → Datum room taken v) ∧
      (Datum room taken v → Tokens.datum room ⟨ts, none⟩ = (.ok (some v), ⟨rest, none⟩)) ∧
      (Tokens.datum room ⟨ts, none⟩ = (.ok (some v), ⟨rest, none⟩) ∨
        ∃ left, Tokens.datum room ⟨ts, none⟩ = (.error .tooDeep, left)) ∧
      (¬ Datum (room + Room.margin) taken v →
        ∃ left, Tokens.datum room ⟨ts, none⟩ = (.error .tooDeep, left))) ∧
    (∀ more v rest, Tokens.datum room ⟨ts, none⟩ = (.ok (some v), rest) →
      Tokens.datum (room + more) ⟨ts, none⟩ = (.ok (some v), rest)) ∧
    (∀ rest, Tokens.datum room ⟨ts, none⟩ = (.ok none, rest) ↔ ts = [] ∧ rest = ⟨[], none⟩) ∧
    (ts ≠ [] → (∀ depth taken rest v, ts = taken ++ rest → ¬ Datum depth taken v) →
      ∃ fault left, Tokens.datum room ⟨ts, none⟩ = (.error fault, left)) := by
  refine ⟨fun v rest h => Tokens.datum_sound h, ?_, ?_, ?_,
    fun rest => Tokens.datum_eq_none_iff, ?_⟩
  · intro depth depth' taken taken' rest rest' v v' hts hts' h h'
    exact h.unique h' (hts.symm.trans hts')
  · rintro depth taken rest v rfl h
    exact ⟨h.within_length.mono, fun hroom => hroom.read (Nat.le_refl room) rest none,
      h.read_or_tooDeep room rest, fun hdeep => h.tooDeep hdeep rest⟩
  · intro more v rest h
    rw [Tokens.datum_widen more room _ fun left hleft => by rw [h] at hleft; cases hleft]
    exact h
  · intro hne hnone
    -- what is neither a datum nor the end of the tokens can only be a fault
    generalize hread : Tokens.datum room ⟨ts, none⟩ = read
    obtain ⟨result, left⟩ := read
    cases result with
    | error fault => exact ⟨fault, left, rfl⟩
    | ok v? =>
      cases v? with
      | none => exact absurd (Tokens.datum_eq_none_iff.mp hread).1 hne
      | some v =>
        obtain ⟨taken, hts, -, hdatum⟩ := Tokens.datum_sound hread
        exact absurd hdatum (hnone _ taken left.list v hts)

/-! ## Data that is too deep -/

/-- So many lists, one inside the other. -/
def Token.nest (depth : Nat) : List Token :=
  List.replicate depth ⟨.opening, "("⟩ ++ List.replicate depth ⟨.closing, ")"⟩

/-- One more list around the others. -/
theorem Token.nest_succ (depth : Nat) :
    Token.nest (depth + 1) = ⟨.opening, "("⟩ :: (Token.nest depth ++ [⟨.closing, ")"⟩]) := by
  rw [Token.nest, Token.nest, List.replicate_succ, List.replicate_succ', List.cons_append,
    List.append_assoc]

/-- Lists may be nested in lists to any depth. -/
theorem Datum.nest (depth : Nat) : ∃ v, Datum (depth + 1) (Token.nest (depth + 1)) v := by
  induction depth with
  | zero => exact ⟨.ofItems [], .list .nil⟩
  | succ depth ih =>
    obtain ⟨v, h⟩ := ih
    have hhead : (Token.nest (depth + 1)).head? ≠ some Token.dot := by
      rw [Token.nest_succ]
      exact nofun
    have hitems := Items.cons hhead h .nil
    rw [List.append_nil] at hitems
    refine ⟨.ofItems [v], ?_⟩
    rw [Token.nest_succ]
    exact .list hitems

/-- Each parenthesis that is opened takes up one of the room, until there is none. -/
theorem Reader.run_openings (room : Nat) (contexts : List Context) (rest : List Token) :
    (State.ready room contexts).run (List.replicate (room + 1) ⟨.opening, "("⟩ ++ rest)
      = .fail .tooDeep rest := by
  induction room generalizing contexts with
  | zero => rfl
  | succ room ih =>
    rw [List.replicate_succ, List.cons_append]
    exact ih (.list [] :: contexts)

/-- More lists than even the margin is enough for may not be nested. -/
theorem Tokens.datum_nest (room : Nat) : ∃ left,
    Tokens.datum room ⟨Token.nest (room + Room.margin + 1), none⟩ = (.error .tooDeep, left) := by
  have hrun := Reader.run_openings (room + Room.margin) []
    (List.replicate (room + Room.margin + 1) ⟨.closing, ")"⟩)
  rw [Tokens.datum, Reader.State.start, Token.nest, hrun]
  exact ⟨_, rfl⟩

/-- Lists in lists, one more than there is room for with the margin, are a datum and yet refused. -/
theorem deep_datum_refused :
    (∃ v, Datum (Room.standard + Room.margin + 1)
      (Token.nest (Room.standard + Room.margin + 1)) v) ∧
    ∃ left, Tokens.datum Room.standard ⟨Token.nest (Room.standard + Room.margin + 1), none⟩
      = (.error .tooDeep, left) :=
  ⟨Datum.nest _, Tokens.datum_nest Room.standard⟩

end SmallScheme
