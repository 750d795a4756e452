/-
  PRINTING IS A NORMAL FORM.

  Whatever the reader accepts has a text, and the text is read as the same value again.  The
  reader's tokens are those of a text (`Tokens.isLexeme_ofText`), and so what it makes of them is
  legible, no deeper than the data was nested, and without origins (`Datum.isRead`): then the text
  leads back to it.

  Structure:
    1. Values that are read (`Value.IsRead`), with a closure lemma for each way in which the
       grammar makes a value of values.
    2. From the tokens of a text: by induction on the datum, one case for each rule of the grammar.
    3. Texts with a dot that was quoted, which are refused.
    4. Printing and reading, for all that is read; and what does not come back.

  There is one thing that does not come back.  Right after a quote mark the dot is a symbol, so
  `'.` is read as `(quote .)`; but in this text the dot stands directly inside a list, where it
  announces a tail.  It can only be the last item there, so nothing follows it, and the text is
  refused for that (`Value.run_refused`).

  Nor does what is nested too deep to be printed at all.  That is a matter of room, and the limit
  is said in terms of the depth to which the text was nested.
-/
import SmallScheme.Proofs.Pattern
import SmallScheme.Proofs.RoundTrip

namespace SmallScheme

open Reader (Context State)

/-! ## Values that are read -/

mutual

/-- Where the dot is an item of a list in the value, it is the last of several. -/
def Value.DotsLast : Value → Prop
  | .list _ vs => vs ≠ [.dot] ∧ .dot ∉ vs.dropLast ∧ Value.AllDotsLast vs
  | .dotted _ vs v => .dot ∉ vs ∧ Value.AllDotsLast vs ∧ v.DotsLast
  | _ => True

/-- In all of the values the dot is the last of several items, if it is one. -/
def Value.AllDotsLast : List Value → Prop
  | [] => True
  | v :: vs => v.DotsLast ∧ Value.AllDotsLast vs

end

/-- The value is such as is read where data is nested no deeper than `depth`. -/
structure Value.IsRead (depth : Nat) (v : Value) : Prop where
  legible : v.Legible
  height_le : v.height ≤ depth
  forget_eq : v.forget = v
  dotsLast : v.DotsLast

/-- All values are legible just if each of them is. -/
theorem Value.allLegible_iff {vs : List Value} : Value.AllLegible vs ↔ ∀ v ∈ vs, v.Legible := by
  induction vs with
  | nil => exact ⟨fun _ _ h => (nomatch h), fun _ => trivial⟩
  | cons v vs ih => rw [Value.AllLegible, ih, List.forall_mem_cons]

/-- The same of where their dots are. -/
theorem Value.allDotsLast_iff {vs : List Value} :
    Value.AllDotsLast vs ↔ ∀ v ∈ vs, v.DotsLast := by
  induction vs with
  | nil => exact ⟨fun _ _ h => (nomatch h), fun _ => trivial⟩
  | cons v vs ih => rw [Value.AllDotsLast, ih, List.forall_mem_cons]

/-- The height of several values is the greatest of their heights. -/
theorem Value.maxHeight_le_iff {vs : List Value} {depth : Nat} :
    Value.maxHeight vs ≤ depth ↔ ∀ v ∈ vs, v.height ≤ depth := by
  induction vs with
  | nil => exact ⟨fun _ _ h => (nomatch h), fun _ => Nat.zero_le depth⟩
  | cons v vs ih => rw [Value.maxHeight, Nat.max_le, ih, List.forall_mem_cons]

/-- No value loses an origin just if none of them has one to lose. -/
theorem Value.forgetAll_eq_iff {vs : List Value} :
    Value.forgetAll vs = vs ↔ ∀ v ∈ vs, v.forget = v := by
  induction vs with
  | nil => exact ⟨fun _ _ h => (nomatch h), fun _ => rfl⟩
  | cons v vs ih => rw [Value.forgetAll, List.cons.injEq, ih, List.forall_mem_cons]

namespace Value.IsRead

variable {depth : Nat} {v : Value} {vs : List Value}

/-- What is read is no deeper than any greater depth. -/
theorem mono {depth' : Nat} (h : v.IsRead depth) (hle : depth ≤ depth') : v.IsRead depth' :=
  ⟨h.legible, Nat.le_trans h.height_le hle, h.forget_eq, h.dotsLast⟩

/-- A list of values that are read. -/
theorem list (h : ∀ v ∈ vs, v.IsRead depth) (hone : vs ≠ [.dot]) (hlast : .dot ∉ vs.dropLast) :
    (Value.ofItems vs).IsRead (depth + 1) where
  legible := Value.allLegible_iff.mpr fun v hv => (h v hv).legible
  height_le := Nat.succ_le_succ (Value.maxHeight_le_iff.mpr fun v hv => (h v hv).height_le)
  forget_eq := by
    rw [Value.ofItems, Value.forget, Value.forgetAll_eq_iff.mpr fun v hv => (h v hv).forget_eq]
  dotsLast := ⟨hone, hlast, Value.allDotsLast_iff.mpr fun v hv => (h v hv).dotsLast⟩

/-- A dotted list of values that are read. -/
theorem dotted (hne : vs ≠ []) (h : ∀ v ∈ vs, v.IsRead depth) (hdot : .dot ∉ vs)
    (hv : v.IsRead depth) (hlist : v.isListLike = false) :
    (Value.dotted .unknown vs v).IsRead (depth + 1) where
  legible := ⟨hne, hlist, Value.allLegible_iff.mpr fun v hv => (h v hv).legible, hv.legible⟩
  height_le := by
    have hvs := Value.maxHeight_le_iff.mpr fun v hv => (h v hv).height_le
    exact Nat.succ_le_succ (Nat.max_le.mpr ⟨hvs, hv.height_le⟩)
  forget_eq := by
    rw [Value.forget, Value.forgetAll_eq_iff.mpr fun v hv => (h v hv).forget_eq, hv.forget_eq]
  dotsLast := ⟨hdot, Value.allDotsLast_iff.mpr fun v hv => (h v hv).dotsLast, hv.dotsLast⟩

/-- The items of a list that is read are read. -/
theorem of_items {origin : Origin} (h : (Value.list origin vs).IsRead depth) :
    (∀ v ∈ vs, v.IsRead depth) ∧ .dot ∉ vs.dropLast := by
  obtain ⟨hlegible, hheight, hforget, -, hlast, hdots⟩ := h
  have hheight := Value.maxHeight_le_iff.mp (Nat.le_of_succ_le hheight)
  have hforget := Value.forgetAll_eq_iff.mp (Value.list.inj hforget).2
  refine ⟨fun v hv => ⟨?_, hheight v hv, hforget v hv, ?_⟩, hlast⟩
  · exact Value.allLegible_iff.mp hlegible v hv
  · exact Value.allDotsLast_iff.mp hdots v hv

/-- So are the items and the tail of a dotted list. -/
theorem of_dotted {origin : Origin} (h : (Value.dotted origin vs v).IsRead depth) :
    (∀ v ∈ vs, v.IsRead depth) ∧ .dot ∉ vs ∧ v.IsRead depth ∧ v.isListLike = false := by
  obtain ⟨⟨-, hlist, hlegible, hv⟩, hheight, hforget, hdot, hdots, hdotv⟩ := h
  obtain ⟨hheight, hheightv⟩ := Nat.max_le.mp (Nat.le_of_succ_le hheight)
  have hheight := Value.maxHeight_le_iff.mp hheight
  obtain ⟨-, hforget, hforgetv⟩ := Value.dotted.inj hforget
  have hforget := Value.forgetAll_eq_iff.mp hforget
  refine ⟨fun v hv => ⟨?_, hheight v hv, hforget v hv, ?_⟩, hdot, ?_, hlist⟩
  · exact Value.allLegible_iff.mp hlegible v hv
  · exact Value.allDotsLast_iff.mp hdots v hv
  · exact ⟨hv, hheightv, hforgetv, hdotv⟩

/-- What is quoted may be the dot: then it is the last of two items. -/
theorem quoteOf (h : v.IsRead depth) : (Value.quoteOf v).IsRead (depth + 1) := by
  have hquote : (Value.symbol "quote").IsRead depth :=
    ⟨⟨by decide, List.all_eq_true.mp (by decide), by decide, by decide, by decide⟩,
      Nat.zero_le depth, rfl, trivial⟩
  have hlast : Value.dot ∉ [Value.symbol "quote", v].dropLast := by
    intro hmem
    rw [List.dropLast_cons_cons, List.dropLast_singleton, List.mem_singleton] at hmem
    exact absurd (Value.symbol.inj hmem) (by decide)
  have hone : [Value.symbol "quote", v] ≠ [.dot] := fun hone => nomatch (List.cons.inj hone).2
  exact list (List.forall_mem_cons.mpr ⟨hquote, List.forall_mem_singleton.mpr h⟩) hone hlast

/-- Items with a tail: those of a tail that is a list come after the others. -/
theorem ofTail {items : List Value} (hne : items ≠ []) (hitems : ∀ v ∈ items, v.IsRead depth)
    (hdot : .dot ∉ items) (hv : v.IsRead depth) : (Value.ofTail items v).IsRead (depth + 1) := by
  -- the tail is a list, a dotted list or an item of its own
  cases v with
  | list origin vs =>
    obtain ⟨hvs, hlast⟩ := hv.of_items
    refine list (List.forall_mem_append.mpr ⟨hitems, hvs⟩) (fun hone => hdot ?_) ?_
    -- one item in all is one of those before the tail, for there is one
    · rcases List.append_eq_singleton_iff.mp hone with ⟨hnil, -⟩ | ⟨hitem, -⟩
      · exact absurd hnil hne
      · rw [hitem]
        exact List.mem_singleton_self _
    · by_cases hnil : vs = []
      · rw [hnil, List.append_nil]
        exact fun hmem => hdot (List.dropLast_subset _ hmem)
      · rw [List.dropLast_append_of_ne_nil hnil, List.mem_append]
        exact not_or.mpr ⟨hdot, hlast⟩
  | dotted origin vs w =>
    obtain ⟨hvs, hdots, hw, hlist⟩ := hv.of_dotted
    have hne : items ++ vs ≠ [] := fun hnil => hne (List.append_eq_nil_iff.mp hnil).1
    have hdots : Value.dot ∉ items ++ vs := by
      rw [List.mem_append]
      exact not_or.mpr ⟨hdot, hdots⟩
    exact dotted hne (List.forall_mem_append.mpr ⟨hitems, hvs⟩) hdots hw hlist
  | _ => exact dotted hne hitems hdot hv rfl

end Value.IsRead

/-! ## From the tokens of a text -/

/-- A symbol token is read as a symbol of the same name. -/
theorem Value.eq_of_ofAtom? {text name : String} (h : Value.ofAtom? text = .ok (.symbol name)) :
    name = text := by
  unfold Value.ofAtom? at h
  split at h
  · cases h
  · cases h
  · split at h <;> cases h
    rfl

/-- What does not begin with the dot is not the dot. -/
theorem Datum.ne_dot {depth : Nat} {ts : List Token} {v : Value} (h : Datum depth ts v)
    (hhead : ts.head? ≠ some Token.dot) : v ≠ .dot := by
  rintro rfl
  generalize hv : Value.dot = v at h
  cases h with
  | symbol h =>
    rw [← hv] at h
    rw [← Value.eq_of_ofAtom? h] at hhead
    exact hhead rfl
  | string | quote | list => cases hv
  | @dotted _ _ _ _ _ vs tail _ _ _ _ hjoins =>
    rw [Value.joins_iff.mp hjoins] at hv
    cases tail <;> cases hv

/-- An atom that is read is a boolean, a number of not too many digits, or a symbol. -/
theorem Value.isRead_of_ofAtom? {text : String} {v : Value} (h : Value.ofAtom? text = .ok v)
    (ht : Token.IsLexeme ⟨.symbol, text⟩) (depth : Nat) : v.IsRead depth := by
  generalize htoken : Token.mk .symbol text = t at ht
  unfold Value.ofAtom? at h
  split at h
  · cases h
    exact ⟨trivial, Nat.zero_le depth, rfl, trivial⟩
  · cases h
    exact ⟨trivial, Nat.zero_le depth, rfl, trivial⟩
  · next htrue hfalse =>
    split at h
    · next n hread =>
      cases h
      exact ⟨Numeral.length_digitChars_of_read hread, Nat.zero_le depth, rfl, trivial⟩
    · cases h
    · next hread =>
      cases h
      cases ht with
      -- a text that is neither a truth value nor a number is a symbol, which is just what a legible
      -- symbol asks for
      | symbol hne hcs =>
        cases htoken
        refine ⟨⟨?_, ?_, htrue, hfalse, hread⟩, Nat.zero_le depth, rfl, trivial⟩
        · rwa [String.toList_ofList]
        · rwa [String.toList_ofList]
      | _ => cases htoken

/-- A string that is read has its escapes in order. -/
theorem Value.isRead_ofLiteral {text : String} (ht : Token.IsLexeme ⟨.string, text⟩)
    (depth : Nat) : (Value.ofLiteral text).IsRead depth := by
  generalize htoken : Token.mk .string text = t at ht
  cases ht with
  | @string inside hinside =>
    cases htoken
    have hvalue : Value.ofLiteral (String.ofList ('"' :: inside ++ ['"']))
        = .str (String.ofList inside) := by
      rw [Value.ofLiteral, String.toList_ofList]
      show Value.str (String.ofList (inside ++ ['"']).dropLast) = _
      rw [List.dropLast_concat]
    rw [hvalue]
    refine ⟨?_, Nat.zero_le depth, rfl, trivial⟩
    show Text.isEscaped (String.ofList inside).toList = true
    rwa [String.toList_ofList]
  | _ => cases htoken

mutual

/-- What the tokens of a text denote is such as is read. -/
theorem Datum.isRead {depth : Nat} {ts : List Token} {v : Value} :
    Datum depth ts v → (∀ t ∈ ts, t.IsLexeme) → v.IsRead depth
  | .symbol h => fun hts => Value.isRead_of_ofAtom? h (hts _ List.mem_cons_self) depth
  | .string => fun hts => Value.isRead_ofLiteral (hts _ List.mem_cons_self) depth
  | .quote h => fun hts => (h.isRead (List.forall_mem_cons.mp hts).2).quoteOf
  | .list h => by
    intro hts
    obtain ⟨-, hts⟩ := List.forall_mem_cons.mp hts
    obtain ⟨hdot, hvs⟩ := h.isRead (List.forall_mem_append.mp hts).1
    -- a bare dot can only be the last item, since the items of a list hold none of their own
    refine .list hvs (fun hone => hdot ?_) fun hmem => hdot (List.dropLast_subset _ hmem)
    rw [hone]
    exact List.mem_singleton_self _
  | .dotted hne hitems htail hv => by
    intro hts
    obtain ⟨-, hts⟩ := List.forall_mem_cons.mp hts
    obtain ⟨hts, hmore⟩ := List.forall_mem_append.mp hts
    obtain ⟨-, hus⟩ := List.forall_mem_cons.mp hmore
    obtain ⟨hdot, hvs⟩ := hitems.isRead hts
    rw [Value.joins_iff.mp hv]
    exact .ofTail hne hvs hdot (htail.isRead (List.forall_mem_append.mp hus).1)

/-- So are the items among them, and none is the dot. -/
theorem Items.isRead {depth : Nat} {ts : List Token} {vs : List Value} :
    Items depth ts vs → (∀ t ∈ ts, t.IsLexeme) → .dot ∉ vs ∧ ∀ v ∈ vs, v.IsRead depth
  | .nil => fun _ => ⟨List.not_mem_nil, List.forall_mem_nil _⟩
  | .cons hdot h hs => by
    intro hts
    obtain ⟨hts, hus⟩ := List.forall_mem_append.mp hts
    obtain ⟨hdots, hvs⟩ := hs.isRead hus
    refine ⟨fun hmem => ?_, List.forall_mem_cons.mpr ⟨h.isRead hts, hvs⟩⟩
    rcases List.mem_cons.mp hmem with heq | hmem
    · exact h.ne_dot hdot heq.symm
    · exact hdots hmem

end

/-- A text has a single form just if it has one form in all. -/
theorem Script.single_eq_ok_iff {script : Script} {v : Value} :
    script.single = .ok v ↔ script.all = .ok [v] := by
  unfold Script.single
  split
  · next w h => rw [h, Except.ok.injEq, Except.ok.injEq, List.singleton_inj]
  · next forms hone h =>
    refine ⟨fun hok => (nomatch hok), fun hok => ?_⟩
    rw [h] at hok
    exact absurd (Except.ok.inj hok) (hone v)
  · next fault h =>
    rw [h]
    exact ⟨fun hok => (nomatch hok), fun hok => (nomatch hok)⟩

/-- Tokens that are one datum are read as this datum. -/
theorem Script.single_of_datum {room : Nat} {tokens : Tokens} {v : Value}
    (h : tokens.datum room = (.ok (some v), ⟨[], none⟩)) :
    (Script.ofTokens room tokens).single = .ok v := by
  have hend : Script.ofTokens room ⟨[], none⟩ = ⟨[], none, ⟨[], none⟩⟩ := by
    rw [Script.ofTokens_eq]
    rfl
  rw [Script.ofTokens_eq, h]
  dsimp only
  rw [hend]
  rfl

/-- The only form of a text is such as is read in the room that there is, with the margin. -/
theorem Script.isRead_of_single {room : Nat} {source : String} {v : Value}
    (h : (Script.ofText room source).single = .ok v) : v.IsRead (room + Room.margin) := by
  have hforms := (Script.all_eq_ok_iff.mp (Script.single_eq_ok_iff.mp h)).2
  have hlexemes := Tokens.isLexeme_ofText source.toList
  rw [Script.ofText, Script.ofTokens_eq] at hforms
  generalize Tokens.ofText source.toList = tokens at hforms hlexemes
  obtain ⟨ts, unclosed?⟩ := tokens
  -- there is one form, so the first datum is there, and it is the form
  split at hforms
  · next w rest hdatum =>
    obtain ⟨taken, hts, -, hw⟩ := Tokens.datum_sound hdatum
    rw [← (List.cons.inj hforms).1]
    rw [hts] at hlexemes
    exact hw.isRead fun t ht => hlexemes t (List.mem_append_left _ ht)
  · cases hforms
  · cases hforms

/-! ## Texts with a dot that was quoted -/

/-- The dot is an item in none of the values just if it is an item in none of each. -/
theorem Value.allDotFree_iff {vs : List Value} : Value.AllDotFree vs ↔ ∀ v ∈ vs, v.DotFree := by
  induction vs with
  | nil => exact ⟨fun _ _ h => (nomatch h), fun _ => trivial⟩
  | cons v vs ih => rw [Value.AllDotFree, ih, List.forall_mem_cons]

/-- The tokens of values stand one after the other. -/
theorem Value.allTokens_append (vs ws : List Value) :
    Value.allTokens (vs ++ ws) = Value.allTokens vs ++ Value.allTokens ws := by
  induction vs with
  | nil => rfl
  | cons v vs ih => rw [List.cons_append, Value.allTokens, Value.allTokens, ih, List.append_assoc]

/-- After the other items, the dot at the end of a list announces a tail that is not there. -/
theorem Value.run_last_dot {vs : List Value} (hlegible : Value.AllLegible (vs ++ [.dot]))
    (hdots : Value.AllDotFree (vs ++ [.dot])) (hdot : .dot ∉ vs) (hne : vs ≠ []) {room : Nat}
    (hroom : Value.maxHeight (vs ++ [.dot]) + Room.atom ≤ room) (contexts : List Context)
    (mark : String) (rest : List Token) :
    (State.ready room (.list [] :: contexts)).run
        (Value.allTokens (vs ++ [.dot]) ++ ⟨.closing, mark⟩ :: rest)
      = .fail (.error .nothingAfterDot) (⟨.closing, mark⟩ :: rest) := by
  have hlegible := Value.allLegible_iff.mpr (List.forall_mem_append.mp
    (Value.allLegible_iff.mp hlegible)).1
  have hdots := Value.allDotFree_iff.mpr (List.forall_mem_append.mp
    (Value.allDotFree_iff.mp hdots)).1
  have hheight := Value.maxHeight_le_iff.mpr (List.forall_mem_append.mp
    (Value.maxHeight_le_iff.mp (Nat.le_refl (Value.maxHeight (vs ++ [.dot]))))).1
  have hroom := Nat.le_trans (Nat.add_le_add_right hheight Room.atom) hroom
  -- the items before the dot are read as they are, and leave the list open
  have hitems := Value.items_allTokens vs hlegible hdot hdots
  have htokens : Value.allTokens [.dot] = [Token.dot] := rfl
  have hitem : (Value.forgetAll vs).reverse ≠ [] := fun hnil =>
    hne (Value.forgetAll_eq_nil (List.reverse_eq_nil_iff.mp hnil))
  rw [Value.allTokens_append, htokens, List.append_assoc, hitems.run room [] contexts _ hroom,
    List.append_nil]
  show (State.ready room _).run (Token.dot :: _) = _
  -- the dot asks for a datum after it, and the closing parenthesis is none
  rw [Reader.run_dot hitem]
  rfl

mutual

/-- The tokens of a value with the dot as an item are refused: where the dot stands, something is
    missing after it. -/
theorem Value.run_refused : (v : Value) → v.Legible → v.DotsLast → ¬ v.DotFree →
    ∀ (room : Nat) (contexts : List Context) (rest : List Token),
      v.height + Room.atom ≤ room →
      ∃ left, (State.ready room contexts).run (v.tokens ++ rest)
        = .fail (.error .nothingAfterDot) left
  | .list origin vs => by
    rintro hvs ⟨hone, hlast, hdots⟩ hnot room contexts rest hroom
    rw [Value.height] at hroom
    obtain ⟨room, rfl⟩ : ∃ inner, room = inner + 1 := ⟨room - 1, by omega⟩
    have hinner : Value.maxHeight vs + Room.atom ≤ room := by omega
    rw [Value.tokens, List.cons_append, List.append_assoc]
    show ∃ left, (State.ready room (.list [] :: contexts)).run _ = _
    by_cases hfree : Value.AllDotFree vs
    -- the dot is an item of this list, so it is the last one, and it is not alone
    · have hmem : .dot ∈ vs := Classical.byContradiction fun hdot => hnot ⟨hdot, hfree⟩
      rcases List.eq_nil_or_concat vs with rfl | ⟨init, last, rfl⟩
      · cases hmem
      · rw [List.concat_eq_append] at *
        rw [List.dropLast_concat] at hlast
        obtain rfl : .dot = last := by
          rcases List.mem_append.mp hmem with hmem | hmem
          · exact absurd hmem hlast
          · exact List.mem_singleton.mp hmem
        have hne : init ≠ [] := fun hnil => hone (by rw [hnil]; rfl)
        exact ⟨_, Value.run_last_dot hvs hfree hlast hne hinner contexts ")" rest⟩
    · exact Value.run_items_refused vs hvs hdots hlast hfree room [] contexts _ hinner
  | .dotted origin vs v => by
    rintro ⟨hne, hlist, hvs, hv⟩ ⟨hdot, hdots, hdotv⟩ hnot room contexts rest hroom
    rw [Value.height] at hroom
    obtain ⟨room, rfl⟩ : ∃ inner, room = inner + 1 := ⟨room - 1, by omega⟩
    have hinner : Value.maxHeight vs + Room.atom ≤ room := by omega
    have htail : v.height + Room.atom ≤ room := by omega
    have hitem : (Value.forgetAll vs).reverse ≠ [] := fun hnil =>
      hne (Value.forgetAll_eq_nil (List.reverse_eq_nil_iff.mp hnil))
    rw [Value.tokens, List.cons_append, List.append_assoc]
    show ∃ left, (State.ready room (.list [] :: contexts)).run _ = _
    by_cases hfree : Value.AllDotFree vs
    -- the items are read, and it is the tail that is refused
    · have hnotv : ¬ v.DotFree := fun hfreev => hnot ⟨hdot, hfree, hfreev⟩
      have hitems := Value.items_allTokens vs hvs hdot hfree
      rw [hitems.run room [] contexts _ hinner, List.append_nil]
      show ∃ left, (State.ready room _).run (Token.dot :: (v.tokens ++ [_] ++ rest)) = _
      rw [Reader.run_dot hitem, List.append_assoc]
      exact Value.run_refused v hv hdotv hnotv room _ _ htail
    · have hlast : .dot ∉ vs.dropLast := fun hmem => hdot (List.dropLast_subset _ hmem)
      exact Value.run_items_refused vs hvs hdots hlast hfree room [] contexts _ hinner
  | .bool _ | .int _ | .str _ | .symbol _ | .primitive _ | .closure _ _ _ | .unspecified
  | .quit => fun _ _ hnot => absurd trivial hnot

/-- So are the items before a dot, if one of them is such a value. -/
theorem Value.run_items_refused : (vs : List Value) → Value.AllLegible vs →
    Value.AllDotsLast vs → .dot ∉ vs.dropLast → ¬ Value.AllDotFree vs →
    ∀ (room : Nat) (items : List Value) (contexts : List Context) (rest : List Token),
      Value.maxHeight vs + Room.atom ≤ room →
      ∃ left, (State.ready room (.list items :: contexts)).run (Value.allTokens vs ++ rest)
        = .fail (.error .nothingAfterDot) left
  | [] => fun _ _ _ hnot => absurd trivial hnot
  | v :: vs => by
    rintro ⟨hv, hvs⟩ ⟨hdotv, hdots⟩ hlast hnot room items contexts rest hroom
    rw [Value.maxHeight] at hroom
    have hroomv : v.height + Room.atom ≤ room := by omega
    have hroom : Value.maxHeight vs + Room.atom ≤ room := by omega
    rw [Value.allTokens, List.append_assoc]
    -- the first item with a dot in it is where the reading ends
    by_cases hfree : v.DotFree
    · have hnot : ¬ Value.AllDotFree vs := fun hfrees => hnot ⟨hfree, hfrees⟩
      have hne : vs ≠ [] := fun hnil => hnot (by rw [hnil]; trivial)
      rw [List.dropLast_cons_of_ne_nil hne, List.mem_cons, not_or] at hlast
      have hhead := Value.head?_tokens_ne_dot v hv (Ne.symm hlast.1)
      have hfirst := (Value.datum_tokens v hv hfree).run room (.list items :: contexts)
        (Value.allTokens vs ++ rest) hroomv fun hdot => absurd hdot hhead
      rw [hfirst]
      exact Value.run_items_refused vs hvs hdots hlast.2 hnot room _ contexts rest hroom
    · exact Value.run_refused v hv hdotv hfree room _ _ hroomv

end

/-! ## Printing and reading -/

/-- The text of what is read is read as it again, where it fits, or else refused where the dot is
    an item. -/
theorem Value.IsRead.single_text {depth room : Nat} {v : Value} (h : v.IsRead depth)
    (hroom : v.Fits room) :
    (v.DotFree → (Script.ofText room (v.text true)).single = .ok v) ∧
    (¬ v.DotFree → (Script.ofText room (v.text true)).single
      = .error (.error .nothingAfterDot)) := by
  have hlegible : Value.AllLegible [v] := ⟨h.legible, trivial⟩
  have htext : Value.texts true [v] = v.text true := rfl
  have hall : Value.allTokens [v] = v.tokens ++ [] := rfl
  have htokens := Value.tokens_texts hlegible
  rw [htext, hall] at htokens
  rw [Script.ofText, htokens]
  -- the text of a value is read as its tokens, so it remains to see what these are read as
  refine ⟨fun hfree => ?_, fun hdot => ?_⟩
  · have hdatum := (Value.datum_tokens v h.legible hfree).read_within_margin hroom [] none
    rw [h.forget_eq] at hdatum
    exact Script.single_of_datum hdatum
  · obtain ⟨left, hrun⟩ := Value.run_refused v h.legible h.dotsLast hdot
      (room + Room.margin) [] [] hroom
    have hdatum : Tokens.datum room ⟨v.tokens ++ [], none⟩
        = (.error (.error .nothingAfterDot), ⟨left, none⟩) := by
      rw [Tokens.datum, Reader.State.start, hrun]
    rw [Script.ofTokens_eq, hdatum]
    rfl

/-- A text is read in some room as it is in more, or else refused as too deep. -/
theorem Script.single_opens {room room' : Nat} (h : room ≤ room') (source : String) :
    (ofText room source).single = (ofText room' source).single ∨
      (ofText room source).single = .error .tooDeep := by
  rcases ofTokens_opens h (Tokens.ofText source.toList) with hsame | ⟨hdeep, -⟩
  · rw [ofText, ofText, hsame]
    exact .inl rfl
  · refine .inr ?_
    rw [single, ofText, all_eq_error_iff.mpr hdeep]

/-- Printing is a normal form of what the reader accepts.  It has a text wherever there is room
    for its nesting, and nothing else stops it from being printed.  The text, wherever it was
    printed, is read in the room of the source as the same value, down to the last part, just if
    the dot is an item of none of its lists.  Otherwise the text is refused for want of something
    after that dot.  Only where the value is nested deeper than the room goes, so that the source
    was read in the margin, may the text be refused as too deep instead: a symbol takes more of
    the margin than the quote mark that it stands for. -/
theorem accepted_is_printed_and_read_back (room : Nat) (source : String) (v : Value)
    (h : (Script.ofText room source).single = .ok v) :
    (∀ width, 3 * v.height ≤ width → v.print width true = .ok (v.text true)) ∧
    (∀ width limit, v.print width true = .error limit → limit = .nesting) ∧
    ∀ width text, v.print width true = .ok text →
      (v.DotFree → (Script.ofText room text).single = .ok v ∨
        (Script.ofText room text).single = .error .tooDeep ∧ room < v.height) ∧
      (¬ v.DotFree → (Script.ofText room text).single = .error (.error .nothingAfterDot) ∨
        (Script.ofText room text).single = .error .tooDeep ∧ room < v.height) := by
  have hread := Script.isRead_of_single h
  have hprint := hread.legible.print
  refine ⟨fun width hwidth => ?_, fun width limit hlimit => ?_, fun width text htext => ?_⟩
  · exact (hprint width).resolve_right fun ⟨_, hlt⟩ => Nat.not_le_of_lt hlt hwidth
  · rcases hprint width with hok | ⟨hnesting, -⟩
    · rw [hok] at hlimit
      cases hlimit
    · rw [hnesting] at hlimit
      exact (Except.error.inj hlimit).symm
  · obtain rfl := (Value.print_eq_ok_iff.mp htext).2
    by_cases hheight : v.height ≤ room
    · obtain ⟨hfree, hdot⟩ := hread.single_text (Value.fits_of_height_le hheight)
      exact ⟨fun h => .inl (hfree h), fun h => .inl (hdot h)⟩
    -- otherwise it is read as it is where it fits, or too deep
    · have hmore : room ≤ v.height := Nat.le_of_not_le hheight
      obtain ⟨hfree, hdot⟩ := hread.single_text (Value.fits_of_height_le (Nat.le_refl v.height))
      rcases Script.single_opens hmore (v.text true) with hsame | hdeep
      · rw [hsame]
        exact ⟨fun h => .inl (hfree h), fun h => .inl (hdot h)⟩
      · exact ⟨fun _ => .inr ⟨hdeep, Nat.lt_of_not_le hheight⟩,
          fun _ => .inr ⟨hdeep, Nat.lt_of_not_le hheight⟩⟩

/-- A quoted list whose tail is a list, with a number in digits of another script. -/
theorem accepted_is_printed_and_read_back_quoted :
    (Script.ofText 3 "'(a . (-٣))").single
        = .ok (.quoteOf (.ofItems [.symbol "a", .int (-3)])) ∧
    (Value.quoteOf (.ofItems [.symbol "a", .int (-3)])).print 6 true = .ok "(quote (a -3))" ∧
    (Script.ofText 3 "(quote (a -3))").single
        = .ok (.quoteOf (.ofItems [.symbol "a", .int (-3)])) := by
  have hdatum : Tokens.datum 3 (Tokens.ofText "'(a . (-٣))".toList)
      = (.ok (some (.quoteOf (.ofItems [.symbol "a", .int (-3)]))), ⟨[], none⟩) := rfl
  have haccepted : (Script.ofText 3 "'(a . (-٣))").single
      = .ok (.quoteOf (.ofItems [.symbol "a", .int (-3)])) := Script.single_of_datum hdatum
  -- there is no bare dot in it, and its height is within the room, so neither exception applies
  have hfree : (Value.quoteOf (.ofItems [.symbol "a", .int (-3)])).DotFree := by
    simp [Value.quoteOf, Value.ofItems, Value.DotFree, Value.AllDotFree, Value.dot]
  obtain ⟨hprinted, -, hback⟩ := accepted_is_printed_and_read_back 3 _ _ haccepted
  have hprint : (Value.quoteOf (.ofItems [.symbol "a", .int (-3)])).print 6 true
      = .ok "(quote (a -3))" := hprinted 6 (by decide)
  have hshallow : ¬ 3 < (Value.quoteOf (.ofItems [.symbol "a", .int (-3)])).height := by decide
  refine ⟨haccepted, hprint, ((hback 6 _ hprint).1 hfree).resolve_right fun hdeep => ?_⟩
  exact hshallow hdeep.2

/-! ## What does not come back -/

/-- A nest of lists is read where there is room for its depth. -/
theorem Value.isRead_nest (depth : Nat) :
    (Value.nest depth).IsRead (depth + 1) ∧ (Value.nest depth).DotFree := by
  have hne : ∀ depth, Value.nest depth ≠ .dot := by
    intro depth
    cases depth <;> nofun
  induction depth with
  | zero => exact ⟨.list (List.forall_mem_nil _) nofun List.not_mem_nil, List.not_mem_nil, trivial⟩
  | succ depth ih =>
    obtain ⟨hread, hfree⟩ := ih
    have hdot : Value.dot ∉ [Value.nest depth] := by
      rw [List.mem_singleton]
      exact (hne depth).symm
    refine ⟨.list (List.forall_mem_singleton.mpr hread) ?_ List.not_mem_nil, hdot, hfree, trivial⟩
    exact fun hone => hne depth (List.cons.inj hone).1

/-- `'.` is accepted, but its text `(quote .)` is not.  And 4001 lists that are nested are read
    but cannot be printed, in the room that there is. -/
theorem quoted_dot_not_read_back :
    (Script.ofText Room.standard "'.").single = .ok (.quoteOf .dot) ∧
    (Value.quoteOf .dot).print Room.standard true = .ok "(quote .)" ∧
    (Script.ofText Room.standard "(quote .)").single = .error (.error .nothingAfterDot) ∧
    Error.nothingAfterDot.kind = .malformed ∧
    (Script.ofText Room.standard ((Value.nest 4000).text true)).single = .ok (Value.nest 4000) ∧
    (Value.nest 4000).print Room.standard true = .error .nesting := by
  have hdatum : Tokens.datum Room.standard (Tokens.ofText "'.".toList)
      = (.ok (some (.quoteOf .dot)), ⟨[], none⟩) := rfl
  have hrefused : Tokens.datum Room.standard (Tokens.ofText "(quote .)".toList)
      = (.error (.error .nothingAfterDot), ⟨[⟨.closing, ")"⟩], none⟩) := rfl
  -- the nest is shallow enough to be read, though not to be printed
  obtain ⟨hread, hfree⟩ := Value.isRead_nest 4000
  have hfits : (Value.nest 4000).Fits Room.standard :=
    Value.fits_of_height_le (Nat.le_trans hread.height_le (by decide))
  refine ⟨Script.single_of_datum hdatum, rfl, ?_, rfl, (hread.single_text hfits).1 hfree, ?_⟩
  · rw [Script.ofText, Script.ofTokens_eq, hrefused]
    rfl
  · exact Value.print_nest (by decide)

end SmallScheme
