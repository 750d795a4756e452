/-
  PAIRS in two shapes.

  A pair is something in front of something else, and there are two shapes for it.  A proper list
  is its items, and a dotted list is its items and a tail.  So `cons` has three cases, and `cdr`
  goes from one shape to the other: a dotted list with one item leaves its tail.

  Both shapes are items before an ending: `()` for a proper list, the tail for a dotted one, and
  any other value is an ending without items.  Seen in this way `cons` puts an item in front,
  `car` is the first item, and `cdr` is all the rest.  Items and ending tell what a value is, but
  only if dotted lists have items, and tails that are no lists (`oneTree_of_items`); and `cons`
  and `cdr` keep it so.

  Structure:
    1. Items and endings, and what the three functions on pairs do with them.
    2. The primitives, which check their argument and make origins besides; the laws of pairs.

  Values are compared as trees here (`Value.OneTree`), without the origins of their lists: what
  `cons` makes is a new list, and so is what `cdr` leaves.
-/
import SmallScheme.Proofs.Sound
import SmallScheme.Proofs.Tree

namespace SmallScheme

/-! ## Items and endings -/

namespace Value

/-- The items of a list of either kind.  Any other value has none. -/
def items : Value → List Value
  | .list _ vs => vs
  | .dotted _ vs _ => vs
  | _ => []

/-- What comes after the items. -/
def ending : Value → Value
  | .list _ _ => .ofItems []
  | .dotted _ _ v => v
  | v => v

/-- If the value is a dotted list, it has items, and a tail that is no list of either kind. -/
def Normal : Value → Prop
  | .dotted _ vs v => vs ≠ [] ∧ v.isListLike = false
  | _ => True

variable {v w : Value}

/-- What is no list is an ending, and nothing else. -/
theorem of_not_listLike (h : v.isListLike = false) :
    v.Normal ∧ v.items = [] ∧ v.ending = v := by
  cases v with
  | list _ _ | dotted _ _ _ => cases h
  | _ => exact ⟨trivial, rfl, rfl⟩

/-- Pairs are the values with items. -/
theorem Normal.isPair_eq (h : v.Normal) : v.isPair = !v.items.isEmpty := by
  cases v with
  | list _ vs => cases vs <;> rfl
  | dotted _ vs _ =>
    cases vs with
    | nil => exact absurd rfl h.1
    | cons _ _ => rfl
  | _ => rfl

/-- An ending has no items and is its own ending. -/
theorem Normal.of_ending (h : v.Normal) :
    v.ending.Normal ∧ v.ending.items = [] ∧ v.ending.ending = v.ending := by
  cases v with
  | list _ _ => exact ⟨trivial, rfl, rfl⟩
  | dotted _ _ tail => exact of_not_listLike h.2
  | _ => exact ⟨trivial, rfl, rfl⟩

/-- The empty list is the ending of a proper list, and of nothing else. -/
theorem Normal.isNull_ending (h : v.Normal) :
    Primitive.isNullValue v.ending = true ↔ ∃ origin vs, v = .list origin vs := by
  cases v with
  | list origin vs => exact ⟨fun _ => ⟨origin, vs, rfl⟩, fun _ => rfl⟩
  | dotted _ _ tail =>
    -- a normal dotted list does not end in a list, the empty one included
    have htail : Primitive.isNullValue tail = false := by
      cases tail with
      | list _ _ => cases h.2
      | _ => rfl
    constructor
    · intro hnull
      rw [ending, htail] at hnull
      cases hnull
    · rintro ⟨_, _, heq⟩
      cases heq
  | _ =>
    constructor
    · intro hnull
      cases hnull
    · rintro ⟨_, _, heq⟩
      cases heq

/-- Items in front of the end of a proper list make a proper list. -/
theorem foldr_consValue_nil (vs : List Value) :
    vs.foldr (Primitive.consValue .unknown) (.ofItems []) = .ofItems vs := by
  induction vs with
  | nil => rfl
  | cons v vs ih =>
    rw [List.foldr_cons, ih]
    rfl

/-- Items in front of what is no list make a dotted list. -/
theorem foldr_consValue_tail (h : v.isListLike = false) {vs : List Value} (hvs : vs ≠ []) :
    vs.foldr (Primitive.consValue .unknown) v = .dotted .unknown vs v := by
  induction vs with
  | nil => exact absurd rfl hvs
  | cons w ws ih =>
    rw [List.foldr_cons]
    cases ws with
    | nil =>
      cases v with
      | list _ _ | dotted _ _ _ => cases h
      | _ => rfl
    | cons u us =>
      rw [ih (List.cons_ne_nil u us)]
      rfl

/-- A value is what its items make in front of its ending. -/
theorem Normal.oneTree_foldr (h : v.Normal) :
    v.OneTree (v.items.foldr (Primitive.consValue .unknown) v.ending) := by
  cases v with
  | list _ vs =>
    rw [items, ending, foldr_consValue_nil]
    rfl
  | dotted _ vs tail =>
    rw [items, ending, foldr_consValue_tail h.2 h.1]
    rfl
  | _ => rfl

/-- So the items and the ending say what it is. -/
theorem oneTree_of_items (hv : v.Normal) (hw : w.Normal) (hitems : v.items = w.items)
    (hending : v.ending = w.ending) : v.OneTree w := by
  have htree : v.tree = _ := hv.oneTree_foldr
  rw [hitems, hending] at htree
  exact htree.trans hw.oneTree_foldr.symm

end Value

/-! ## The primitives -/

namespace Primitive

variable {v w p : Value} {vs : List Value}

/-- `cons` puts an item in front. -/
theorem consValue_items (origin : Origin) (v : Value) (hw : w.Normal) :
    (consValue origin v w).Normal ∧ (consValue origin v w).items = v :: w.items ∧
      (consValue origin v w).ending = w.ending := by
  cases w with
  | list _ _ => exact ⟨trivial, rfl, rfl⟩
  | dotted _ ws _ => exact ⟨⟨List.cons_ne_nil v ws, hw.2⟩, rfl, rfl⟩
  | _ => exact ⟨⟨List.cons_ne_nil v [], rfl⟩, rfl, rfl⟩

/-- `car` is the first item. -/
theorem first_items (h : p.items = v :: vs) : first p = .ok v := by
  cases p with
  | list _ _ | dotted _ _ _ =>
    obtain rfl := h
    rfl
  | _ => cases h

/-- `cdr` is all but the first item. -/
theorem others_items (origin : Origin) (hp : p.Normal) (h : p.items = v :: vs) :
    ∃ d, others origin p = .ok d ∧ d.Normal ∧ d.items = vs ∧ d.ending = p.ending := by
  cases p with
  | list _ _ =>
    obtain rfl := h
    exact ⟨.list origin vs, rfl, trivial, rfl, rfl⟩
  | dotted _ _ tail =>
    obtain rfl := h
    cases vs with
    -- the tail is left, which is no list
    | nil => exact ⟨tail, rfl, Value.of_not_listLike hp.2⟩
    | cons u us =>
      exact ⟨.dotted origin (u :: us) tail, rfl, ⟨List.cons_ne_nil u us, hp.2⟩, rfl, rfl⟩
  | _ => cases h

variable {room : Nat} {s : State}

/-- `cons` never fails. -/
theorem call_cons (v w : Value) : call cons.name room [v, w] s
    = .ok (consValue (.made s.made) v w) { s with made := s.made + 1 } := rfl

/-- `car` gives the first item. -/
theorem call_car (h : first p = .ok v) : call car.name room [p] s = .ok v s := by
  show settle room (first p) s = _
  rw [h]
  rfl

/-- `cdr` makes a list of the others. -/
theorem call_cdr (h : others (.made s.made) p = .ok v) :
    call cdr.name room [p] s = .ok v { s with made := s.made + 1 } := by
  show settle room (others (.made s.made) p) _ = _
  rw [h]
  rfl

/-- `null?` holds of the empty list alone. -/
theorem call_isNull_iff :
    call isNull.name room [v] s = .ok (.bool true) s ↔ isNullValue v = true := by
  show EStateM.Result.ok (Value.bool (isNullValue v)) s = _ ↔ _
  rw [EStateM.Result.ok.injEq, Value.bool.injEq]
  exact and_iff_left rfl

/-- It tells no two trees apart that are the same. -/
theorem isNullValue_congr (h : v.OneTree w) : isNullValue v = isNullValue w := by
  have htree : ∀ u : Value, isNullValue u.tree = isNullValue u := by
    intro u
    cases u with
    | list _ vs => cases vs <;> rfl
    | _ => rfl
  rw [← htree v, h, htree w]

/-- `cdr`, so many times over. -/
def cdrs (room : Nat) : (times : Nat) → Value → Run Value
  | 0, v => pure v
  | times + 1, v => do
    let rest ← call cdr.name room [v]
    cdrs room times rest

/-- Each `cdr` takes one of the items, and the ending stays. -/
theorem cdrs_items (room : Nat) {times : Nat} (hv : v.Normal) (htimes : times ≤ v.items.length)
    (s : State) : ∃ d, cdrs room times v s = .ok d { s with made := s.made + times } ∧
      d.Normal ∧ d.items = v.items.drop times ∧ d.ending = v.ending := by
  induction times generalizing v s with
  | zero => exact ⟨v, rfl, hv, rfl, rfl⟩
  | succ times ih =>
    -- there is an item left as long as there is a cdr to take
    cases hitems : v.items with
    | nil =>
      rw [hitems] at htimes
      cases htimes
    | cons u us =>
      obtain ⟨rest, hrest, hnormal, hus, hending⟩ := others_items (.made s.made) hv hitems
      rw [hitems, ← hus] at htimes
      obtain ⟨d, hd, hdnormal, hditems, hdending⟩ :=
        ih hnormal (Nat.le_of_succ_le_succ htimes) { s with made := s.made + 1 }
      refine ⟨d, ?_, hdnormal, ?_, hdending.trans hending⟩
      · rw [cdrs, Run.bind_apply, call_cdr hrest]
        dsimp only
        rw [hd, Nat.add_assoc, Nat.add_comm 1 times]
      · rw [hditems, hus]
        rfl

end Primitive

/-- The laws of pairs.  In front of a value in normal form `cons` makes a pair in normal form, from
    which `car` and `cdr` get back what it was made of.  Of every such pair, `car` and `cdr` get
    what makes it again.  And as many times as a value has items `cdr` can be taken, always of a
    pair; what is left then is no pair but the ending of the value, which is `()` just for a
    proper list. -/
theorem pair_laws (room : Nat) :
    (∀ (a b : Value) (s : State), b.Normal → ∃ p,
      Primitive.call "cons" room [a, b] s = .ok p { s with made := s.made + 1 } ∧
      p.isPair = true ∧ p.Normal ∧ (a.WellFormed → b.WellFormed → p.WellFormed) ∧
      ∀ t, Primitive.call "car" room [p] t = .ok a t ∧
        ∃ d, Primitive.call "cdr" room [p] t = .ok d { t with made := t.made + 1 } ∧
          d.OneTree b) ∧
    (∀ p : Value, p.Normal → p.isPair = true → ∀ s, ∃ a d,
      Primitive.call "car" room [p] s = .ok a s ∧
      Primitive.call "cdr" room [p] s = .ok d { s with made := s.made + 1 } ∧
      ∀ t, ∃ q, Primitive.call "cons" room [a, d] t = .ok q { t with made := t.made + 1 } ∧
        q.OneTree p) ∧
    (∀ (v : Value) (s : State), v.Normal →
      (∀ times, times < v.items.length → ∃ p,
        Primitive.cdrs room times v s = .ok p { s with made := s.made + times } ∧
        p.isPair = true) ∧
      ∃ d, Primitive.cdrs room v.items.length v s
          = .ok d { s with made := s.made + v.items.length } ∧
        d.isPair = false ∧ d.OneTree v.ending ∧
        ∀ t, (Primitive.call "null?" room [d] t = .ok (.bool true) t ↔
          ∃ origin vs, v = .list origin vs)) := by
  refine ⟨fun a b s hb => ?_, fun p hp hpair s => ?_, fun v s hv => ⟨fun times htimes => ?_, ?_⟩⟩
  -- two normal values are one tree just if their items and endings are
  · obtain ⟨hnormal, hitems, hending⟩ := Primitive.consValue_items (.made s.made) a hb
    refine ⟨_, Primitive.call_cons a b, ?_, hnormal, Primitive.consValue_wellFormed _, fun t => ?_⟩
    · rw [hnormal.isPair_eq, hitems]
      rfl
    · obtain ⟨d, hd, hdnormal, hditems, hdending⟩ :=
        Primitive.others_items (.made t.made) hnormal hitems
      exact ⟨Primitive.call_car (Primitive.first_items hitems), d, Primitive.call_cdr hd,
        Value.oneTree_of_items hdnormal hb hditems (hdending.trans hending)⟩
  · rw [hp.isPair_eq] at hpair
    cases hitems : p.items with
    | nil =>
      rw [hitems] at hpair
      cases hpair
    | cons a vs =>
      obtain ⟨d, hd, hdnormal, hditems, hdending⟩ :=
        Primitive.others_items (.made s.made) hp hitems
      refine ⟨a, d, Primitive.call_car (Primitive.first_items hitems), Primitive.call_cdr hd,
        fun t => ⟨_, Primitive.call_cons a d, ?_⟩⟩
      obtain ⟨hqnormal, hqitems, hqending⟩ := Primitive.consValue_items (.made t.made) a hdnormal
      refine Value.oneTree_of_items hqnormal hp ?_ (hqending.trans hdending)
      rw [hqitems, hditems, hitems]
  · obtain ⟨p, hp, hnormal, hitems, -⟩ :=
      Primitive.cdrs_items room hv (Nat.le_of_lt htimes) s
    refine ⟨p, hp, ?_⟩
    -- before the last cdr some items are left
    have hleft : v.items.drop times ≠ [] := fun hnil =>
      absurd (List.drop_eq_nil_iff.mp hnil) (Nat.not_le_of_lt htimes)
    rw [hnormal.isPair_eq, hitems, List.isEmpty_eq_false_iff.mpr hleft]
    rfl
  · obtain ⟨d, hd, hnormal, hitems, hending⟩ :=
      Primitive.cdrs_items room hv (Nat.le_refl _) s
    -- after it there are none, and only the ending remains
    rw [List.drop_length] at hitems
    obtain ⟨hend, henditems, hendending⟩ := hv.of_ending
    have htree : d.OneTree v.ending := Value.oneTree_of_items hnormal hend
      (hitems.trans henditems.symm) (hending.trans hendending.symm)
    refine ⟨d, hd, ?_, htree, fun t => ?_⟩
    · rw [hnormal.isPair_eq, hitems]
      rfl
    · have hnull := hv.isNull_ending
      rw [← Primitive.isNullValue_congr htree] at hnull
      exact Primitive.call_isNull_iff.trans hnull

/-- `(1 . (2 . 3))` is `(1 2 . 3)`; two times its `cdr` is taken, and `3` is left. -/
theorem pair_laws_dotted :
    (Value.dotted .unknown [.int 2] (.int 3)).Normal ∧
    (∃ p, Primitive.call "cons" 0 [.int 1, .dotted .unknown [.int 2] (.int 3)] .initial
      = .ok p { State.initial with made := 1 } ∧
      Primitive.call "car" 0 [p] .initial = .ok (.int 1) .initial) ∧
    ∃ d, Primitive.cdrs 0 2 (.dotted .unknown [.int 1, .int 2] (.int 3)) .initial
      = .ok d { State.initial with made := 2 } ∧ d.OneTree (.int 3) := by
  have hnormal : (Value.dotted .unknown [.int 2] (.int 3)).Normal :=
    ⟨List.cons_ne_nil _ _, rfl⟩
  obtain ⟨hcons, -, hcdrs⟩ := pair_laws 0
  refine ⟨hnormal, ?_, ?_⟩
  · obtain ⟨p, hp, -, -, -, hparts⟩ := hcons (.int 1) _ .initial hnormal
    exact ⟨p, hp, (hparts .initial).1⟩
  · obtain ⟨-, d, hd, -, hending, -⟩ :=
      hcdrs (.dotted .unknown [.int 1, .int 2] (.int 3)) .initial ⟨List.cons_ne_nil _ _, rfl⟩
    exact ⟨d, hd, hending⟩

end SmallScheme
