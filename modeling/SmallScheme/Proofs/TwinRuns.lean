/-
  TWIN RUNS: a program cannot tell where a list comes from.

  Every list and every frame that a run makes gets a number (`Origin`), and comparing asks for the
  number first: one and the same list is equal to itself at once, however deep it is.  So it might
  matter to a program in which order things were made before, for instance in which order modules
  were loaded.  This module shows that it does not.

  1. **States** (`State.Twins p`).  The stores of two states bind the same names, in whatever
     order, to values that are twins by the pairing `p`: the same but for the numbers, where `p`
     says which number here goes with which number there.  The pairing is faithful, and it knows
     nothing that has not been made yet (`Pairing.Fits`).

  2. **Runs** (`Run.Twins rel p x x'`).  From twin states, `x` and `x'` end in the same way, with
     the same output, in twin states again.  On the way the runs make lists and frames: what one
     makes when the other does goes together from then on, so the pairing grows
     (`Pairing.grow`).  It stays faithful, because nothing that is new was in it before; that is
     `Pairing.Fits.grow`, and it is all that the whole argument rests on.

  3. **The program's parts**, from the bottom up: the primitives, one step of the evaluator for
     each kind of form (`formStep_twins`), the whole evaluator by induction on the room
     (`evaluate_twins`), the loader, the interpreter, and the dialogue.

  4. **One use after the other** (`Running.serveInTurn_twins`): whatever an interpreter is used for
     in twin states, the answers are alike.  Taken with one state twice it says that no number is
     ever in a store that has not been given out (`Running.serveInTurn_numbered`).

  What is on record may differ.  No program looks there.
-/
import SmallScheme.Proofs.Halted
import SmallScheme.Proofs.Twins

namespace SmallScheme

/-! ## States -/

/-- The pairing is faithful, and knows no list or frame that has not been made. -/
structure Pairing.Fits (p : Pairing) (made made' : Nat) : Prop where
  faithful : p.Faithful
  unknown : p .unknown .unknown
  left : ∀ {m : Nat} {o' : Origin}, p (.made m) o' → m < made
  right : ∀ {o : Origin} {n : Nat}, p o (.made n) → n < made'

/-- In addition, so many numbers from `m` on go together with those from `n` on. -/
def Pairing.grow (p : Pairing) (m n count : Nat) : Pairing :=
  fun o o' => p o o' ∨ ∃ k < count, o = .made (m + k) ∧ o' = .made (n + k)

/-- What went together before still does. -/
theorem Pairing.le_grow (p : Pairing) (m n count : Nat) : p ≤ p.grow m n count :=
  fun _ _ h => Or.inl h

/-- The new rows are the ones `Value.twins_stamp` asks for. -/
theorem Pairing.grow_rows (p : Pairing) (m n count : Nat) : (p.grow m n count).Rows m n count :=
  fun k hk => Or.inr ⟨k, hk, rfl, rfl⟩

/-- What is not made yet is not known yet. -/
theorem Pairing.Fits.isOne_new {p : Pairing} {made made' : Nat} (h : p.Fits made made')
    {o o' : Origin} (ho : p o o') {m n : Nat} (hm : made ≤ m) (hn : made' ≤ n) :
    o.isOne (.made m) = false ∧ o'.isOne (.made n) = false := by
  -- A new number is too large to be in the pairing already, on either side.
  constructor
  · cases o with
    | unknown => rfl
    | made i =>
      have hi := h.left ho
      exact beq_eq_false_iff_ne.mpr (by omega)
  · cases o' with
    | unknown => rfl
    | made j =>
      have hj := h.right ho
      exact beq_eq_false_iff_ne.mpr (by omega)

/-- Whether two origins are one and the same does not depend on which is asked first. -/
theorem Origin.isOne_comm (o o' : Origin) : o.isOne o' = o'.isOne o := by
  cases o with
  | unknown => cases o' <;> rfl
  | made m =>
    cases o' with
    | unknown => rfl
    | made n => exact Bool.beq_comm

/-- What is made in both goes together. -/
theorem Pairing.Fits.grow {p : Pairing} {m n : Nat} (h : p.Fits m n) (count : Nat) :
    (p.grow m n count).Fits (m + count) (n + count) where
  faithful := by
    rintro o₁ o₁' o₂ o₂' (h₁ | ⟨k, hk, rfl, rfl⟩) (h₂ | ⟨l, hl, rfl, rfl⟩)
    -- Two old pairs, an old and a new one, or two new ones.  In the mixed cases neither side is one
    -- and the same, since the new numbers were not known before.
    · exact h.faithful _ _ _ _ h₁ h₂
    · obtain ⟨hleft, hright⟩ := h.isOne_new h₁ (Nat.le_add_right m l) (Nat.le_add_right n l)
      rw [hleft, hright]
    · obtain ⟨hleft, hright⟩ := h.isOne_new h₂ (Nat.le_add_right m k) (Nat.le_add_right n k)
      rw [Origin.isOne_comm, hleft, Origin.isOne_comm, hright]
    · show (m + k == m + l) = (n + k == n + l)
      rw [Bool.eq_iff_iff, beq_iff_eq, beq_iff_eq]
      omega
  unknown := Or.inl h.unknown
  left := by
    rintro i o' (hi | ⟨k, hk, hi, -⟩)
    · have := h.left hi
      omega
    · cases hi
      omega
  right := by
    rintro o j (hj | ⟨k, hk, -, hj⟩)
    · have := h.right hj
      omega
    · cases hj
      omega

/-- The stores bind the same names to twins, the same has been displayed, and the same files are
    being loaded. -/
structure State.Twins (p : Pairing) (s s' : State) : Prop where
  store : ∀ name, Option.Rel (Value.Twins p) (s.store.get? name) (s'.store.get? name)
  out : s.out = s'.out
  loading : s.loading = s'.loading
  fits : p.Fits s.made s'.made

/-- One name gets twins, the others keep theirs. -/
theorem Store.put_twins {p : Pairing} {store store' : Store}
    (h : ∀ name, Option.Rel (Value.Twins p) (store.get? name) (store'.get? name)) (name : String)
    {v v' : Value} (hv : v.Twins p v') (other : String) :
    Option.Rel (Value.Twins p) ((store.put name v).get? other)
      ((store'.put name v').get? other) := by
  by_cases heq : other = name
  · rw [heq, get?_put_self, get?_put_self]
    exact .some hv
  · rw [get?_put_of_ne store v heq, get?_put_of_ne store' v' heq]
    exact h other

/-- What is bound to twins stays so when more goes together. -/
theorem Option.Rel.mono_twins {p q : Pairing} (hpq : p ≤ q) {v? v?' : Option Value}
    (h : Option.Rel (Value.Twins p) v? v?') : Option.Rel (Value.Twins q) v? v?' := by
  cases h with
  | some hv => exact .some (hv.mono hpq)
  | none => exact .none

/-- More has been made in both, to go together. -/
theorem State.Twins.grow {p : Pairing} {s s' : State} (h : s.Twins p s') (count : Nat) :
    State.Twins (p.grow s.made s'.made count) { s with made := s.made + count }
      { s' with made := s'.made + count } where
  store name := Option.Rel.mono_twins (p.le_grow _ _ _) (h.store name)
  out := h.out
  loading := h.loading
  fits := h.fits.grow count

/-- All lists and frames in the store have been made. -/
def State.Numbered (s : State) : Prop :=
  ∀ name v, s.store.get? name = some v → ∀ n, .made n ∈ v.origins → n < s.made

/-- In twin states everything in the store has been made: the pairing knows nothing else. -/
theorem State.Twins.numbered {p : Pairing} {s s' : State} (h : s.Twins p s') : s.Numbered := by
  intro name v hv n hn
  have hstored := h.store name
  rw [hv] at hstored
  generalize s'.store.get? name = v?' at hstored
  cases hstored with
  | some htwins =>
    obtain ⟨o', ho⟩ := htwins.origins _ hn
    exact h.fits.left ho

/-- What has been made goes together with itself. -/
def Pairing.known (made : Nat) : Pairing := fun o o' => o = o' ∧ ∀ n, o = .made n → n < made

/-- Going together with itself is faithful. -/
theorem Pairing.known_fits (made : Nat) : (known made).Fits made made where
  faithful := by
    rintro o₁ _ o₂ _ ⟨rfl, -⟩ ⟨rfl, -⟩
    rfl
  unknown := ⟨rfl, by simp⟩
  left h := h.2 _ rfl
  right h := h.2 _ h.1

/-- A value that has been made is its own twin. -/
theorem Value.twins_known {v : Value} {made : Nat} (h : ∀ n, .made n ∈ v.origins → n < made) :
    v.Twins (.known made) v := by
  refine v.twins_self fun o ho => ⟨rfl, ?_⟩
  rintro n rfl
  exact h n ho

/-- A state with nothing but made things in its store is its own twin. -/
theorem State.Numbered.twins {s : State} (h : s.Numbered) : s.Twins (.known s.made) s where
  store name := by
    cases hv : s.store.get? name with
    | none => exact .none
    | some v => exact .some (Value.twins_known (h name v hv))
  out := rfl
  loading := rfl
  fits := Pairing.known_fits s.made

/-! ## Runs -/

/-- Both runs have ended in the same way, with what goes together, or in faults that are alike. -/
inductive ResultTwins {α β : Type} (rel : α → β → Prop) (p : Pairing) :
    EStateM.Result Fault State α → EStateM.Result Fault State β → Prop where
  | ok {a : α} {b : β} {t t' : State} :
    rel a b → t.Twins p t' → ResultTwins rel p (.ok a t) (.ok b t')
  | error {fault fault' : Fault} {t t' : State} :
    fault.Alike fault' → t.Twins p t' → ResultTwins rel p (.error fault t) (.error fault' t')

/-- From twin states, the runs end in the same way, in twin states, with values that go together
    as `rel` says.  What goes together in the end may be more. -/
def Run.Twins {α β : Type} (rel : Pairing → α → β → Prop) (p : Pairing) (x : Run α)
    (x' : Run β) : Prop :=
  ∀ s s', s.Twins p s' → ∃ q, p ≤ q ∧ ResultTwins (rel q) q (x s) (x' s')

/-- One and the same value. -/
def Same {α : Type} (_ : Pairing) (a b : α) : Prop := a = b

namespace Run.Twins

variable {α β γ δ : Type} {p : Pairing}
variable {rel : Pairing → α → β → Prop} {rel' : Pairing → γ → δ → Prop}

/-- Giving back values that go together. -/
theorem pure {a : α} {b : β} (h : rel p a b) :
    Run.Twins rel p (Pure.pure a : Run α) (Pure.pure b : Run β) :=
  fun _ _ hs => ⟨p, le_refl p, .ok h hs⟩

/-- Ending in faults that are alike. -/
theorem throw {fault fault' : Fault} (h : fault.Alike fault') :
    Run.Twins rel p (MonadExcept.throw fault : Run α) (MonadExcept.throw fault' : Run β) :=
  fun _ _ hs => ⟨p, le_refl p, .error h hs⟩

/-- One run after the other.  The second starts with what goes together after the first, which is
    why `hk` is about every pairing `q` above `p`. -/
theorem bind {x : Run α} {x' : Run β} {k : α → Run γ} {k' : β → Run δ}
    (hx : Run.Twins rel p x x')
    (hk : ∀ q a b, p ≤ q → rel q a b → Run.Twins rel' q (k a) (k' b)) :
    Run.Twins rel' p (x >>= k) (x' >>= k') := by
  intro s s' hs
  obtain ⟨q, hpq, hr⟩ := hx s s' hs
  rw [bind_apply, bind_apply]
  generalize x s = r, x' s' = r' at hr
  cases hr with
  | ok hab ht =>
    obtain ⟨q', hqq', hr⟩ := hk q _ _ hpq hab _ _ ht
    exact ⟨q', le_trans hpq hqq', hr⟩
  | error hfault ht => exact ⟨q, hpq, .error hfault ht⟩

/-- What comes next does not look at the value. -/
theorem next {x : Run α} {x' : Run β} {k : Run γ} {k' : Run δ} (hx : Run.Twins rel p x x')
    (hk : ∀ q, p ≤ q → Run.Twins rel' q k k') :
    Run.Twins rel' p (x >>= fun _ => k) (x' >>= fun _ => k') :=
  .bind hx fun q _ _ hpq _ => hk q hpq

/-- The value is one and the same in both, as a text or a path is. -/
theorem bind_same {x x' : Run α} {k : α → Run γ} {k' : α → Run δ}
    (hx : Run.Twins Same p x x')
    (hk : ∀ q a, p ≤ q → Run.Twins rel' q (k a) (k' a)) :
    Run.Twins rel' p (x >>= k) (x' >>= k') := by
  refine .bind hx fun q a b hpq hab => ?_
  rw [← show a = b from hab]
  exact hk q a hpq

/-- The values may be turned into others that go together. -/
theorem map {x : Run α} {x' : Run β} {f : α → γ} {f' : β → δ}
    (hx : Run.Twins rel p x x') (hf : ∀ q a b, rel q a b → rel' q (f a) (f' b)) :
    Run.Twins rel' p (f <$> x) (f' <$> x') := by
  rw [map_eq_pure_bind, map_eq_pure_bind]
  exact .bind hx fun q a b _ hab => .pure (hf q a b hab)

/-- Whatever the states, their pairing fits: so this may be assumed. -/
theorem of_fits {x : Run α} {x' : Run β}
    (h : ∀ {made made' : Nat}, p.Fits made made' → Run.Twins rel p x x') :
    Run.Twins rel p x x' :=
  fun s s' hs => h hs.fits s s' hs

/-- Raising errors that are alike.  Both are reported or both meet the limit, as the texts of the
    values in them are the same. -/
theorem raise {room : Nat} {e e' : Error} (h : e.Alike e') :
    Run.Twins rel p (Run.raise room e : Run α) (Run.raise room e' : Run β) := by
  have hlimit : e.limit? room = e'.limit? room := by
    rw [← Error.limit?_tree, h, Error.limit?_tree]
  rw [Run.raise, Run.raise, hlimit]
  cases e'.limit? room with
  | some limit => exact throw (.outside _)
  | none => exact throw (.error h)

/-- One text, or one limit that was met while it was written. -/
theorem printed (text : Except Limit String) :
    Run.Twins Same p (Run.printed text) (Run.printed text) := by
  cases text with
  | ok text => exact pure rfl
  | error limit => exact throw (.outside _)

/-- Both make one more list or frame, and the two go together from now on. -/
theorem fresh : Run.Twins id p Run.fresh Run.fresh := by
  intro s s' hs
  refine ⟨p.grow s.made s'.made 1, p.le_grow _ _ _, .ok ?_ (hs.grow 1)⟩
  exact p.grow_rows _ _ 1 0 Nat.one_pos

/-- One value let in by both. -/
theorem letIn (v : Value) : Run.Twins Value.Twins p (Run.letIn v) (Run.letIn v) := by
  intro s s' hs
  have hgrown := hs.grow v.stamps
  rw [← Value.stamp_snd, ← Value.stamp_snd] at hgrown
  refine ⟨p.grow s.made s'.made v.stamps, p.le_grow _ _ _, .ok ?_ hgrown⟩
  exact Value.twins_stamp v (p.grow_rows _ _ _)

/-- Both display one text. -/
theorem display (text : String) : Run.Twins Same p (Run.display text) (Run.display text) :=
  fun _ _ hs => ⟨p, le_refl p, .ok rfl { hs with out := congrArg (· ++ text) hs.out }⟩

/-- Both display the code points, or both fail at the same surrogates. -/
theorem displayCodes (codes : List Nat) :
    Run.Twins Same p (Run.displayCodes codes) (Run.displayCodes codes) := by
  unfold Run.displayCodes
  split
  · exact display _
  · exact throw (.outside _)

/-- What is put on record does not matter. -/
theorem record (event event' : Event) : Run.Twins Same p (Run.record event) (Run.record event') :=
  fun _ _ hs => ⟨p, le_refl p, .ok rfl { hs with }⟩

/-- Both bind one name, to twins. -/
theorem define (name : String) {v v' : Value} (hv : v.Twins p v') :
    Run.Twins Same p (Run.define name v) (Run.define name v') := by
  intro s s' hs
  rw [define_apply, define_apply]
  exact ⟨p, le_refl p, .ok rfl { hs with store := Store.put_twins hs.store name hv }⟩

/-- Both look a name up, first in their frames and then in the store; or neither finds it. -/
theorem lookup (room : Nat) (name : String) {env env' : Env} (henv : env.Twins p env') :
    Run.Twins Value.Twins p (Eval.lookup room name env) (Eval.lookup room name env') := by
  intro s s' hs
  rw [Eval.lookup_apply, Eval.lookup_apply]
  have hbound := henv.lookup? name
  generalize env.lookup? name = v?, env'.lookup? name = v?' at hbound
  cases hbound with
  | some hv => exact ⟨p, le_refl p, .ok hv hs⟩
  | none =>
    have hstored := hs.store name
    generalize s.store.get? name = v?, s'.store.get? name = v?' at hstored
    cases hstored with
    | some hv => exact ⟨p, le_refl p, .ok hv hs⟩
    | none => exact raise rfl s s' hs

/-- Both are kept from running too deep.  Only `tooDeep` is turned into an error. -/
theorem guardDepth {x : Run α} {x' : Run β} (hx : Run.Twins rel p x x') :
    Run.Twins rel p (Run.guardDepth x) (Run.guardDepth x') := by
  intro s s' hs
  obtain ⟨q, hpq, hr⟩ := hx s s' hs
  refine ⟨q, hpq, ?_⟩
  rw [guardDepth_apply, guardDepth_apply]
  generalize x s = r, x' s' = r' at hr
  cases hr with
  | ok hab ht => exact .ok hab ht
  | @error fault _ _ _ hfault ht =>
    cases hfault with
    | error he => exact .error (.error he) ht
    | outside =>
      cases fault with
      | tooDeep => exact .error (.outside _) ht
      | _ => exact .error (.outside _) ht

/-- Both load a file.  While they do it is among those that are being loaded, and not afterwards,
    whichever way the runs end. -/
theorem whileLoading (path : Path) {x : Run α} {x' : Run β} (hx : Run.Twins rel p x x') :
    Run.Twins rel p (Run.whileLoading path x) (Run.whileLoading path x') := by
  intro s s' hs
  obtain ⟨q, hpq, hr⟩ := hx { s with loading := path :: s.loading }
    { s' with loading := path :: s'.loading }
    { hs with loading := congrArg (path :: ·) hs.loading }
  refine ⟨q, hpq, ?_⟩
  unfold Run.whileLoading
  generalize x _ = r, x' _ = r' at hr
  cases hr with
  | ok hab ht => exact .ok hab { ht with loading := congrArg (List.erase · path) ht.loading }
  | error hfault ht =>
    exact .error hfault { ht with loading := congrArg (List.erase · path) ht.loading }

end Run.Twins

/-! ## Primitives -/

namespace Primitive

variable {p : Pairing} {args args' : List Value}

/-- Both are values that are twins, or faults that are alike. -/
abbrev OutcomeTwins (p : Pairing) : Except Fault Value → Except Fault Value → Prop :=
  ExceptRel Fault.Alike (Value.Twins p)

/-- An outcome is settled: a value is given back, an error raised, and every other fault thrown. -/
theorem settle_twins (room : Nat) {result result' : Except Fault Value}
    (h : OutcomeTwins p result result') :
    Run.Twins Value.Twins p (settle room result) (settle room result') := by
  cases h with
  | ok hv => exact .pure hv
  | @error fault _ hfault =>
    cases hfault with
    | error he => exact .raise he
    | outside =>
      cases fault with
      | error e => exact .raise rfl
      | _ => exact .throw (.outside _)

/-- The number of arguments is the same, and so is the complaint about it. -/
theorem wrongCount_twins (op : Primitive) (room expected : Nat) (h : Value.AllTwins p args args') :
    Run.Twins Value.Twins p (wrongCount op room expected args)
      (wrongCount op room expected args') := by
  rw [wrongCount, wrongCount, h.length_eq]
  exact .raise rfl

/-- A primitive of one argument. -/
theorem unary_twins (op : Primitive) (room : Nat) {result result' : Value → Except Fault Value}
    (hresult : ∀ v v', v.Twins p v' → OutcomeTwins p (result v) (result' v'))
    (h : Value.AllTwins p args args') :
    Run.Twins Value.Twins p (unary op room args result) (unary op room args' result') := by
  -- Any other number of arguments than one is complained about on both sides.
  have hcount := wrongCount_twins op room 1 h
  cases h with
  | nil => exact hcount
  | cons hv hvs =>
    cases hvs with
    | nil => exact settle_twins room (hresult _ _ hv)
    | cons _ _ => exact hcount

/-- A question about one value that has the same answer for twins. -/
theorem question_twins (op : Primitive) (room : Nat) {question : Value → Bool}
    (hquestion : ∀ v v', v.Twins p v' → question v = question v')
    (h : Value.AllTwins p args args') :
    Run.Twins Value.Twins p (unary op room args fun v => .ok (.bool (question v)))
      (unary op room args' fun v => .ok (.bool (question v))) := by
  refine unary_twins op room (fun v v' hv => ?_) h
  rw [hquestion v v' hv]
  exact .ok (.bool _)

/-- A primitive of two arguments. -/
theorem binary_twins (op : Primitive) (room : Nat)
    {result result' : Value → Value → Except Fault Value}
    (hresult : ∀ v v' w w', v.Twins p v' → w.Twins p w' →
      OutcomeTwins p (result v w) (result' v' w'))
    (h : Value.AllTwins p args args') :
    Run.Twins Value.Twins p (binary op room args result) (binary op room args' result') := by
  have hcount := wrongCount_twins op room 2 h
  cases h with
  | nil => exact hcount
  | cons hv hvs =>
    cases hvs with
    | nil => exact hcount
    | cons hw hvs =>
      cases hvs with
      | nil => exact settle_twins room (hresult _ _ _ _ hv hw)
      | cons _ _ => exact hcount

/-- A pair made of twins, with origins that go together. -/
theorem consValue_twins {o o' : Origin} (ho : p o o') {v v' w w' : Value} (hv : v.Twins p v')
    (hw : w.Twins p w') : (consValue o v w).Twins p (consValue o' v' w') := by
  have hitem := Value.AllTwins.cons hv .nil
  -- Consing onto a list or a dotted list gives one list; onto anything else, a dotted pair.
  cases hw with
  | list _ hvs => exact .list ho (.cons hv hvs)
  | dotted _ hvs hlast => exact .dotted ho (.cons hv hvs) hlast
  | bool b => exact .dotted ho hitem (.bool b)
  | int n => exact .dotted ho hitem (.int n)
  | str text => exact .dotted ho hitem (.str text)
  | symbol name => exact .dotted ho hitem (.symbol name)
  | primitive name => exact .dotted ho hitem (.primitive name)
  | closure formals hbody henv => exact .dotted ho hitem (.closure formals hbody henv)
  | unspecified => exact .dotted ho hitem .unspecified
  | quit => exact .dotted ho hitem .quit

/-- The complaint names the values, which have the same tree. -/
theorem blame_pair (name : String) {v v' : Value} (h : v.Twins p v') :
    OutcomeTwins p (.error (.error (.notPair name v))) (.error (.error (.notPair name v'))) :=
  .error (.error (congrArg (Error.notPair name) h.tree_eq))

/-- As `blame_pair`, for what is not a number. -/
theorem blame_number (name : String) {v v' : Value} (h : v.Twins p v') :
    OutcomeTwins p (.error (.error (.notNumber name v))) (.error (.error (.notNumber name v'))) :=
  .error (.error (congrArg (Error.notNumber name) h.tree_eq))

/-- The first items of twins are twins. -/
theorem first_twins {v v' : Value} (h : v.Twins p v') : OutcomeTwins p (first v) (first v') := by
  have hbad := blame_pair car.name h
  cases h with
  | list _ hvs =>
    cases hvs with
    | nil => exact hbad
    | cons hv _ => exact .ok hv
  | dotted _ hvs _ =>
    cases hvs with
    | nil => exact .error (.outside .noItem)
    | cons hv _ => exact .ok hv
  | _ => exact hbad

/-- So are the others, in a new list on both sides. -/
theorem others_twins {o o' : Origin} (ho : p o o') {v v' : Value} (h : v.Twins p v') :
    OutcomeTwins p (others o v) (others o' v') := by
  have hbad := blame_pair cdr.name h
  cases h with
  | list _ hvs =>
    cases hvs with
    | nil => exact hbad
    | cons _ hvs => exact .ok (.list ho hvs)
  | dotted _ hvs hv =>
    cases hvs with
    | nil => exact .ok hv
    | cons _ hvs =>
      cases hvs with
      | nil => exact .ok hv
      | cons hw hvs => exact .ok (.dotted ho (.cons hw hvs) hv)
  | _ => exact hbad

/-- Arithmetic on one number is about a number that twins share. -/
theorem onNumber_twins (op : Primitive) {result : Int → Value}
    (hresult : ∀ n, (result n).Twins p (result n)) {v v' : Value} (h : v.Twins p v') :
    OutcomeTwins p (onNumber op result v) (onNumber op result v') := by
  have hbad := blame_number op.name h
  cases h with
  | int n => exact .ok (hresult n)
  | _ => exact hbad

/-- As `onNumber_twins`, for two numbers: the first that is none is the one complained about. -/
theorem onNumberPair_twins (op : Primitive) {result : Int → Int → Value}
    (hresult : ∀ m n, (result m n).Twins p (result m n)) {v v' w w' : Value} (hv : v.Twins p v')
    (hw : w.Twins p w') :
    OutcomeTwins p (onNumberPair op result v w) (onNumberPair op result v' w') := by
  have hfirst := blame_number op.name hv
  have hsecond := blame_number op.name hw
  cases hv with
  | int m =>
    cases hw with
    | int n => exact .ok (hresult m n)
    | _ => exact hsecond
  | _ => exact hfirst

/-- The numbers among twins are the same numbers, and the first that is none has the same tree. -/
theorem numbers_twins (name : String) {vs vs' : List Value} (h : Value.AllTwins p vs vs') :
    ExceptRel Error.Alike Eq (numbers name vs) (numbers name vs') := by
  induction vs generalizing vs' with
  | nil =>
    cases h
    exact .ok rfl
  | cons v rest ih =>
    cases h with
    | @cons _ v' _ rest' hv hvs =>
      have ih := ih hvs
      -- a message shows a value by its tree, and twins have one tree
      have htree := hv.tree_eq
      cases hv with
      | int n =>
        rw [numbers, numbers]
        generalize numbers name rest = found, numbers name rest' = found' at ih
        cases ih with
        | ok hns => exact .ok (congrArg (n :: ·) hns)
        | error he => exact .error he
      | _ => exact .error (congrArg (Error.notNumber name) htree)

/-- Arithmetic on a list of numbers. -/
theorem onNumbers_twins (op : Primitive) {result : List Int → Value}
    (hresult : ∀ ns, (result ns).Twins p (result ns)) (h : Value.AllTwins p args args') :
    OutcomeTwins p (onNumbers op result args) (onNumbers op result args') := by
  have hnumbers := numbers_twins op.name h
  rw [onNumbers, onNumbers]
  generalize numbers op.name args = found, numbers op.name args' = found' at hnumbers
  cases hnumbers with
  | ok hns =>
    subst hns
    exact .ok (hresult _)
  | error he => exact .error (.error he)

/-- Comparing needs the pairing to be faithful: only then does one and the same list on one side
    come with one and the same list on the other. -/
theorem equality_twins (hp : p.Faithful) (room : Nat) {v v' w w' : Value} (hv : v.Twins p v')
    (hw : w.Twins p w') : OutcomeTwins p (equality room v w) (equality room v' w') := by
  rw [equality, equality, hv.equal?_eq hp hw]
  cases v'.equal? (room + Room.margin) w' with
  | some verdict => exact .ok (.bool verdict)
  | none => exact .error (.outside .tooDeep)

/-- Printing does not show numbers. -/
theorem print_twins (room : Nat) (readable : Bool) {v v' : Value} (h : v.Twins p v') :
    v.print room readable = v'.print room readable := by
  rw [← Value.print_tree, h.tree_eq, Value.print_tree]

/-- Nor does the raw text. -/
theorem rawText_twins (room : Nat) {vs vs' : List Value} (h : Value.AllTwins p vs vs') :
    Run.Twins Same p (rawText room vs) (rawText room vs') := by
  induction vs generalizing p vs' with
  | nil =>
    cases h
    exact .pure rfl
  | cons v vs ih =>
    obtain _ | ⟨hv, hvs⟩ := h
    rw [rawText, rawText, print_twins room false hv]
    refine .bind_same (.printed _) fun q text hpq => ?_
    exact .bind_same (ih (hvs.mono hpq)) fun _ rest _ => .pure rfl

/-- A primitive gives twins for twins. -/
theorem apply_twins (op : Primitive) (room : Nat) (h : Value.AllTwins p args args') :
    Run.Twins Value.Twins p (op.apply room args) (op.apply room args') := by
  cases op with
  -- `cons` and `cdr` take a number before they look at their arguments, so the pairing has already
  -- grown when those are compared.
  | cons =>
    exact .bind .fresh fun q o o' hpq ho => binary_twins cons room
      (fun v v' w w' hv hw => .ok (consValue_twins ho hv hw)) (h.mono hpq)
  | car => exact unary_twins car room (fun v v' hv => first_twins hv) h
  | cdr =>
    exact .bind .fresh fun q o o' hpq ho => unary_twins cdr room
      (fun v v' hv => others_twins ho hv) (h.mono hpq)
  | isNull =>
    refine question_twins isNull room (fun v v' hv => ?_) h
    cases hv with
    | list _ hvs => cases hvs <;> rfl
    | _ => rfl
  | isEqual =>
    exact .of_fits fun hfits => binary_twins isEqual room
      (fun v v' w w' hv hw => equality_twins hfits.faithful room hv hw) h
  | isAtom =>
    refine question_twins isAtom room (fun v v' hv => ?_) h
    cases hv <;> rfl
  | isZero =>
    refine question_twins isZero room (fun v v' hv => ?_) h
    cases hv <;> rfl
  | add1 => exact unary_twins add1 room (fun v v' hv => onNumber_twins add1 (fun n => .int _) hv) h
  | sub1 => exact unary_twins sub1 room (fun v v' hv => onNumber_twins sub1 (fun n => .int _) hv) h
  | isNumber =>
    refine question_twins isNumber room (fun v v' hv => ?_) h
    cases hv <;> rfl
  | greater =>
    exact binary_twins greater room
      (fun v v' w w' hv hw => onNumberPair_twins greater (fun m n => .bool _) hv hw) h
  | less =>
    exact binary_twins less room
      (fun v v' w w' hv hw => onNumberPair_twins less (fun m n => .bool _) hv hw) h
  | add => exact settle_twins room (onNumbers_twins add (fun ns => .int _) h)
  | multiply => exact settle_twins room (onNumbers_twins multiply (fun ns => .int _) h)
  | subtract =>
    have hnumbers := settle_twins room
      (onNumbers_twins subtract (fun ns => .int (alternating ns)) h)
    cases h with
    | nil =>
      show Run.Twins _ p (Run.raise room (.noArguments subtract.name)) _
      exact .raise rfl
    | cons _ _ => exact hnumbers
  | display =>
    refine .bind_same (rawText_twins room h) fun _ text _ => ?_
    exact .next (.displayCodes _) fun _ _ => .pure .unspecified

/-- The primitives are found by their name, which twins share. -/
theorem call_twins (name : String) (room : Nat) (h : Value.AllTwins p args args') :
    Run.Twins Value.Twins p (call name room args) (call name room args') := by
  rw [call, call]
  split
  · exact apply_twins _ room h
  · exact .raise rfl

end Primitive

/-! ## Evaluating -/

/-- The replies are of the same kind, with twins. -/
inductive Reply.Twins (p : Pairing) : Reply → Reply → Prop where
  | done {v v' : Value} : v.Twins p v' → Reply.Twins p (.done v) (.done v')
  | part {expr expr' : Value} : expr.Twins p expr' → Reply.Twins p (.part expr) (.part expr')
  | body {expr expr' : Value} {env env' : Env} :
    expr.Twins p expr' → env.Twins p env' → Reply.Twins p (.body expr env) (.body expr' env')

/-- Whatever goes together, the evaluator cannot tell twins from each other. -/
def Evaluator.Blind (ev : Evaluator) : Prop :=
  ∀ {p : Pairing} {expr expr' : Value} {env env' : Env} (below : Nat), expr.Twins p expr' →
    env.Twins p env' → Run.Twins Value.Twins p (ev.run below expr env) (ev.run below expr' env')

namespace Eval

variable {p : Pairing} {ev : Evaluator} {env env' : Env}

/-- What comes next is not done if there is `quit`. -/
theorem unlessQuit_twins {m m' : Run Value} {k k' : Value → Run Reply}
    (hm : Run.Twins Value.Twins p m m')
    (hk : ∀ q v v', p ≤ q → v.Twins q v' → Run.Twins Reply.Twins q (k v) (k' v')) :
    Run.Twins Reply.Twins p (unlessQuit m k) (unlessQuit m' k') := by
  refine .bind hm fun q v v' hpq hv => ?_
  have hnext := hk q v v' hpq hv
  cases hv with
  | quit => exact .pure (.done .quit)
  | _ => exact hnext

/-- How operands go on once one of them has its value. -/
theorem operand_twins {p : Pairing} {v v' : Value} (hv : v.Twins p v')
    {rest rest' : Run (Option (List Value))}
    (hrest : Run.Twins (fun q => Option.Rel (Value.AllTwins q)) p rest rest') :
    Run.Twins (fun q => Option.Rel (Value.AllTwins q)) p
      (rest >>= fun
        | some vs => pure (some (v :: vs))
        | none => pure none)
      (rest' >>= fun
        | some vs => pure (some (v' :: vs))
        | none => pure none) := by
  refine .bind hrest fun q vs? vs?' hpq hvs => ?_
  cases hvs with
  | some hvs => exact .pure (.some (.cons (hv.mono hpq) hvs))
  | none => exact .pure .none

variable (hev : ev.Blind)
include hev

/-- Operands from the left, until one of them quits. -/
theorem operands_twins {exprs exprs' : List Value} (henv : env.Twins p env')
    (h : Value.AllTwins p exprs exprs') :
    Run.Twins (fun q => Option.Rel (Value.AllTwins q)) p (operands ev env exprs)
      (operands ev env' exprs') := by
  induction exprs generalizing p exprs' with
  | nil =>
    cases h
    exact .pure (.some .nil)
  | cons expr exprs ih =>
    obtain _ | ⟨hexpr, hexprs⟩ := h
    refine .bind (hev Room.operand hexpr henv) fun q v v' hpq hv => ?_
    have hall := operand_twins hv (ih (henv.mono hpq) (hexprs.mono hpq))
    cases hv with
    | quit => exact .pure .none
    | _ => exact hall

/-- The parts of an `and`, up to the first that is false. -/
theorem conjunction_twins {exprs exprs' : List Value} (henv : env.Twins p env')
    (h : Value.AllTwins p exprs exprs') :
    Run.Twins Reply.Twins p (conjunction ev env exprs) (conjunction ev env' exprs') := by
  induction exprs generalizing p exprs' with
  | nil =>
    cases h
    exact .pure (.done (.bool true))
  | cons expr exprs ih =>
    obtain _ | ⟨hexpr, hexprs⟩ := h
    -- what the first expression does may only pair more objects, and the others stay twins
    have hothers := fun (q : Pairing) (hpq : p ≤ q) => ih (henv.mono hpq) (hexprs.mono hpq)
    cases hexprs with
    | nil => exact .pure (.part hexpr)
    | cons _ _ =>
      refine .bind (hev Room.part hexpr henv) fun q v v' hpq hv => ?_
      cases hv with
      | quit => exact .pure (.done .quit)
      | bool b =>
        cases b with
        | false => exact .pure (.done (.bool false))
        | true => exact hothers q hpq
      | _ => exact hothers q hpq

/-- The parts of an `or`, up to the first that is not false. -/
theorem disjunction_twins {exprs exprs' : List Value} (henv : env.Twins p env')
    (h : Value.AllTwins p exprs exprs') :
    Run.Twins Reply.Twins p (disjunction ev env exprs) (disjunction ev env' exprs') := by
  induction exprs generalizing p exprs' with
  | nil =>
    cases h
    exact .pure (.done (.bool false))
  | cons expr exprs ih =>
    obtain _ | ⟨hexpr, hexprs⟩ := h
    have hothers := fun (q : Pairing) (hpq : p ≤ q) => ih (henv.mono hpq) (hexprs.mono hpq)
    cases hexprs with
    | nil => exact .pure (.part hexpr)
    | cons _ _ =>
      refine .bind (hev Room.part hexpr henv) fun q v v' hpq hv => ?_
      -- whatever is not false ends the disjunction
      have hdone : Run.Twins Reply.Twins q (pure (.done v)) (pure (.done v')) := .pure (.done hv)
      cases hv with
      | bool b =>
        cases b with
        | false => exact hothers q hpq
        | true => exact hdone
      | _ => exact hdone

/-- The clauses of a `cond`, up to the first question that is not false. -/
theorem choice_twins {clauses clauses' : List (Value × Value)} {answer? answer?' : Option Value}
    (henv : env.Twins p env') (hanswer : Option.Rel (Value.Twins p) answer? answer?')
    (h : List.Forall₂ (ClauseTwins p) clauses clauses') :
    Run.Twins Reply.Twins p (choice ev env answer? clauses) (choice ev env' answer?' clauses') := by
  induction clauses generalizing p clauses' with
  | nil =>
    cases h
    cases hanswer with
    | some hanswer => exact .pure (.part hanswer)
    | none =>
      show Run.Twins _ p (Run.raise ev.room .noTrueQuestion) _
      exact .raise rfl
  | cons clause clauses ih =>
    obtain _ | ⟨⟨hquestion, hpart⟩, hclauses⟩ := h
    refine .bind (hev Room.part hquestion henv) fun q v v' hpq hv => ?_
    have hothers := ih (henv.mono hpq) (Option.Rel.mono_twins hpq hanswer)
      (hclauses.imp fun _ _ hclause => ⟨hclause.1.mono hpq, hclause.2.mono hpq⟩)
    -- Whatever the question comes to, both choose this clause or both go on to the next.
    have hchosen := Run.Twins.pure (.part (hpart.mono hpq) : Reply.Twins q _ _)
    cases hv with
    | quit => exact .pure (.done .quit)
    | bool b =>
      cases b with
      | false => exact hothers
      | true => exact hchosen
    | _ => exact hchosen

/-- All but the last expression of a body, for what they do. -/
theorem sequence_twins {first first' : Value} {others others' : List Value}
    (henv : env.Twins p env') (hfirst : first.Twins p first')
    (h : Value.AllTwins p others others') :
    Run.Twins Reply.Twins p (sequence ev env first others) (sequence ev env' first' others') := by
  induction others generalizing p first first' others' with
  | nil =>
    cases h
    exact .pure (.part hfirst)
  | cons next others ih =>
    obtain _ | ⟨hnext, hothers⟩ := h
    refine .bind (hev Room.part hfirst henv) fun q v v' hpq hv => ?_
    have hrest := ih (henv.mono hpq) (hnext.mono hpq) (hothers.mono hpq)
    cases hv with
    | quit => exact .pure (.done .quit)
    | _ => exact hrest

omit hev in
/-- A closure binds its formals in a new frame, which goes together with the one on the other
    side. -/
theorem call_twins (room : Nat) {f f' : Value} {args args' : List Value} (hf : f.Twins p f')
    (hargs : Value.AllTwins p args args') :
    Run.Twins Reply.Twins p (call room f args) (call room f' args') := by
  have htree := hf.tree_eq
  have hbad : Run.Twins Reply.Twins p (Run.raise room (.notFunction f))
      (Run.raise room (.notFunction f')) := .raise (congrArg Error.notFunction htree)
  cases hf with
  | closure formals hbody henv =>
    rw [call, call, hargs.length_eq]
    split
    · next hcount =>
      refine .bind .fresh fun q o o' hpq ho => ?_
      rw [Env.bind?, Env.bind?, hargs.length_eq, if_pos hcount.symm, if_pos hcount.symm]
      exact .pure (Reply.Twins.body (hbody.mono hpq)
        (.frame formals ho (hargs.mono hpq) (henv.mono hpq)))
    · exact .raise (congrArg (Error.closureArity · formals.length args'.length) htree)
  | primitive name =>
    exact .bind (Primitive.call_twins name _ hargs) fun _ _ _ _ hv => .pure (.done hv)
  | _ => exact hbad

end Eval

/-! ## Loading -/

namespace Loader

variable {p : Pairing} (loader : Loader)

/-- Whether a file is there does not depend on the state. -/
theorem checkFile_twins (path : Path) :
    Run.Twins Same p (loader.checkFile path) (loader.checkFile path) := by
  unfold checkFile
  split
  · exact .pure rfl
  · exact .throw (.outside _)

/-- Searching only adds to the record. -/
theorem search_twins (name : String) (path : Path) (roots : List Path) :
    Run.Twins Same p (loader.search name path roots) (loader.search name path roots) := by
  induction roots generalizing p with
  | nil => exact .pure rfl
  | cons root roots ih =>
    refine .next (.record _ _) fun _ _ => ?_
    refine .bind_same (loader.checkFile_twins _) fun _ answer _ => ?_
    split
    · exact .pure rfl
    · exact ih

/-- So a name is resolved to the same file in both. -/
theorem resolve_twins (name : String) :
    Run.Twins Same p (loader.resolve name) (loader.resolve name) := by
  unfold resolve
  split
  · exact .throw (.outside _)
  · split
    · refine .bind_same (loader.checkFile_twins _) fun _ answer _ => ?_
      split <;> exact .pure rfl
    · exact loader.search_twins name _ _

variable {ev : Evaluator} (hev : ev.Blind)
include hev

omit loader in
/-- The forms of a file: each is let in on both sides, with new numbers that go together. -/
theorem runForms_twins (forms : List Value) :
    Run.Twins Same p (runForms ev forms) (runForms ev forms) := by
  induction forms generalizing p with
  | nil => exact .pure rfl
  | cons form forms ih =>
    refine .bind (.letIn form) fun q expr expr' _ hexpr => ?_
    refine .bind (hev Room.moduleForm hexpr .empty) fun q' v v' _ hv => ?_
    cases hv with
    | quit => exact .pure rfl
    | _ => exact ih

omit loader in
/-- The forms, and then the fault that the text ends in, if it does. -/
theorem runScript_twins (script : Script) :
    Run.Twins Value.Twins p (runScript ev script) (runScript ev script) := by
  refine .bind_same (runForms_twins hev script.forms) fun _ quits _ => ?_
  split
  · exact .pure .quit
  · split
    · exact .throw (.outside _)
    · exact .pure .unspecified

/-- Loading a file.  The same files are being loaded in both, so both refuse it or both open it. -/
theorem loadPath_twins (path : Path) :
    Run.Twins Value.Twins p (loader.loadPath ev path) (loader.loadPath ev path) := by
  rw [loadPath_eq]
  split
  · exact .throw (.outside _)
  · intro s s' hs
    -- Both are loading the same files, so they ask the same question about this one.
    have hcontains : s.loading.contains (loader.absolute path)
        = s'.loading.contains (loader.absolute path) := congrArg (List.contains · _) hs.loading
    rw [openFile_apply, openFile_apply, hcontains]
    split
    · exact Run.Twins.raise rfl s s' hs
    · refine Run.Twins.whileLoading _ ?_ _ _ { hs with }
      unfold readFile
      split
      · exact .throw (.outside _)
      · exact runScript_twins hev _

/-- Loading by name. -/
theorem load_twins (name : String) :
    Run.Twins Value.Twins p (loader.load ev name) (loader.load ev name) := by
  refine .bind_same (loader.resolve_twins name) fun _ path? _ => ?_
  cases path? with
  | some path => exact loader.loadPath_twins hev path
  | none => exact .raise rfl

end Loader

/-! ## Forms -/

namespace Eval

variable {p : Pairing} {loader? : Option Loader} {ev : Evaluator} {env env' : Env}

/-- `require`, with a loader or without one. -/
theorem require_twins (hev : ev.Blind) (name : String) :
    Run.Twins Value.Twins p (require loader? ev name) (require loader? ev name) := by
  cases loader? with
  | some loader => exact loader.load_twins hev name
  | none =>
    show Run.Twins _ p (Run.raise ev.room (.noLoader name)) _
    exact .raise rfl

/-- One step with twins, for each kind of form. -/
theorem formStep_twins (hev : ev.Blind) (henv : env.Twins p env') {form form' : Form}
    (h : form.Twins p form') :
    Run.Twins Reply.Twins p (formStep loader? ev env form) (formStep loader? ev env' form') := by
  cases h with
  | constant hv => exact .pure (.done hv)
  | identifier name => exact .bind (.lookup _ name henv) fun _ _ _ _ hv => .pure (.done hv)
  | quote hv => exact .pure (.done hv)
  | lambda formals hbody => exact .pure (.done (.closure formals hbody henv))
  | cond hclauses hanswer => exact choice_twins hev henv hanswer hclauses
  | define name hexpr =>
    refine unlessQuit_twins (hev Room.part hexpr .empty) fun q v v' _ hv => ?_
    refine .next (.define name hv) fun _ _ => ?_
    exact .next (.record _ _) fun _ _ => .pure (.done (.symbol name))
  | and hexprs => exact conjunction_twins hev henv hexprs
  | or hexprs => exact disjunction_twins hev henv hexprs
  | not hexpr =>
    refine unlessQuit_twins (hev Room.part hexpr henv) fun q v v' _ hv => ?_
    -- whether a value is false does not depend on the objects in it
    have hfalse : isFalse v = isFalse v' := by
      cases hv <;> rfl
    rw [hfalse]
    exact .pure (.done (.bool _))
  | begin hfirst hothers => exact sequence_twins hev henv hfirst hothers
  | require name =>
    exact unlessQuit_twins (require_twins hev name) fun _ _ _ _ _ => .pure (.done .unspecified)
  | quit => exact .pure (.done .quit)
  | call hhead hexprs =>
    refine unlessQuit_twins (hev Room.operator hhead henv) fun q f f' hpq hf => ?_
    -- the operator comes first and its value stays a twin while the operands are evaluated
    have hargs := operands_twins hev (henv.mono hpq) (hexprs.mono hpq)
    refine .bind hargs fun q' args? args?' hqq' h => ?_
    cases h with
    | some hargs => exact call_twins _ (hf.mono hqq') hargs
    | none => exact .pure (.done .quit)

/-- One step: the expression is checked, and then it is done as what it was found to be. -/
theorem step_twins (hev : ev.Blind) {expr expr' : Value} (hexpr : expr.Twins p expr')
    (henv : env.Twins p env') :
    Run.Twins Reply.Twins p (step loader? ev expr env) (step loader? ev expr' env') := by
  unfold step
  split
  · exact .throw (.outside _)
  -- A body of several expressions becomes a `begin` of unknown origin, so unknown origins have to
  -- go together.
  · refine .of_fits fun hfits => ?_
    have hform := Form.ofExpr?_twins hfits.unknown hexpr
    generalize Form.ofExpr? expr = checked, Form.ofExpr? expr' = checked' at hform
    cases hform with
    | error he => exact .raise he
    | ok hform => exact formStep_twins hev henv hform

/-- From step to step, until there is a value. -/
theorem follow_twins {next : Nat → Value → Env → Run Reply}
    (hnext : ∀ {q : Pairing} {expr expr' : Value} {env env' : Env} (used : Nat),
      expr.Twins q expr' → env.Twins q env' →
        Run.Twins Reply.Twins q (next used expr env) (next used expr' env'))
    (steps used : Nat) (body? : Option Nat) {expr expr' : Value} (hexpr : expr.Twins p expr')
    (henv : env.Twins p env') :
    Run.Twins Value.Twins p (follow next steps used body? expr env)
      (follow next steps used body? expr' env') := by
  induction steps generalizing p used body? expr expr' env env' with
  | zero => exact .throw (.outside _)
  | succ steps ih =>
    refine .bind (hnext used hexpr henv) fun q reply reply' hpq hreply => ?_
    -- a part goes on in the same frame, a body in the frame that the call made
    cases hreply with
    | done hv => exact .pure hv
    | part hpart => exact ih _ _ hpart (henv.mono hpq)
    | body hbody hinner =>
      cases body? with
      | some inner => exact ih _ _ hbody hinner
      | none => exact ih _ _ hbody hinner

/-- The evaluator cannot tell twins from each other, in whatever room. -/
theorem evaluate_twins (loader? : Option Loader) (steps room below : Nat) {expr expr' : Value}
    (hexpr : expr.Twins p expr') (henv : env.Twins p env') :
    Run.Twins Value.Twins p (evaluate loader? steps room below expr env)
      (evaluate loader? steps room below expr' env') := by
  induction room generalizing p below expr expr' env env' with
  | zero => exact .throw (.outside _)
  | succ room ih =>
    cases below with
    | succ below => exact ih below hexpr henv
    | zero =>
      have hev (used : Nat) : ((stepping loader? steps room).deeper used).Blind :=
        fun below hexpr henv => ih _ hexpr henv
      exact follow_twins (fun used hexpr henv => step_twins (hev used) hexpr henv) steps 0 none
        hexpr henv

/-- So is the evaluator that a primitive or a module is given. -/
theorem within_blind (loader? : Option Loader) (steps room : Nat) :
    (within loader? steps room).Blind :=
  fun below hexpr henv => evaluate_twins loader? steps room below hexpr henv

end Eval

/-! ## Interpreters -/

namespace Interpreter

variable {p : Pairing} (i : Interpreter)

/-- And the one that an interpreter works with. -/
theorem evaluator_blind : i.evaluator.Blind := Eval.within_blind _ _ _

/-- The forms of a text, one after the other. -/
theorem evalForms_twins {last last' : Value} (hlast : last.Twins p last') (forms : List Value) :
    Run.Twins Value.Twins p (i.evalForms last forms) (i.evalForms last' forms) := by
  induction forms generalizing p last last' with
  | nil => exact .pure hlast
  | cons form forms ih =>
    refine .bind (.letIn form) fun q expr expr' _ hexpr => ?_
    refine .bind (.guardDepth (i.evaluator_blind 0 hexpr .empty)) fun q' v v' _ hv => ?_
    have hothers := ih hv
    cases hv with
    | quit => exact .pure .quit
    | _ => exact hothers

/-- Evaluating a text. -/
theorem eval_twins (source : String) :
    Run.Twins Value.Twins p (i.eval source) (i.eval source) := by
  unfold eval
  split
  · exact .pure .quit
  · refine .bind (i.evalForms_twins .unspecified _) fun q v v' _ hv => ?_
    have hlast := hv
    cases hv with
    | quit => exact .pure .quit
    | _ =>
      dsimp only
      split
      · exact .throw (.outside _)
      · exact .pure hlast

/-- Loading a file from outside. -/
theorem loadFile_twins (path : Path) :
    Run.Twins Value.Twins p (i.loadFile path) (i.loadFile path) := by
  unfold loadFile
  split
  · exact .pure .quit
  · exact .guardDepth (i.loader.loadPath_twins i.evaluator_blind path)

/-- Loading the prelude. -/
theorem loadPrelude_twins (names : List String) :
    Run.Twins Same p (i.loadPrelude names) (i.loadPrelude names) := by
  induction names generalizing p with
  | nil => exact .pure rfl
  | cons name names ih =>
    refine .bind (.guardDepth (i.loader.load_twins i.evaluator_blind name)) fun _ v v' _ hv => ?_
    cases hv with
    | quit => exact .pure rfl
    | _ => exact ih

/-- Starting an interpreter: what it is, halted or not, is the same in both. -/
theorem start_twins (loader : Loader) (room : Nat) (prelude : List String) :
    Run.Twins Same p (start loader room prelude) (start loader room prelude) :=
  .bind_same (loadPrelude_twins _ prelude) fun _ _ _ => .pure rfl

end Interpreter

/-! ## Dialogues -/

namespace Repl

variable {p : Pairing} (i : Interpreter)

/-- What may fail is tried. -/
theorem attempt_twins {α : Type} {rel : Pairing → α → α → Prop} {x x' : Run α}
    (hx : Run.Twins rel p x x') :
    Run.Twins (fun q => ExceptRel Fault.Alike (rel q)) p (attempt x) (attempt x') := by
  intro s s' hs
  obtain ⟨q, hpq, hr⟩ := hx s s' hs
  refine ⟨q, hpq, ?_⟩
  unfold attempt
  generalize x s = r, x' s' = r' at hr
  cases hr with
  | ok hab ht => exact .ok (.ok hab) ht
  | error hfault ht => exact .ok (.error hfault) ht

/-- The report of an error is its message. -/
theorem report_twins {e e' : Error} (h : e.Alike e') : Run.Twins Same p (report e) (report e') := by
  rw [report, report, ← e.message_tree, h, e'.message_tree]
  exact .next (.record _ _) fun _ _ => .display _

/-- Prompting, or not. -/
theorem invite_twins (prompting : Bool) (text : String) :
    Run.Twins Same p (invite prompting text) (invite prompting text) := by
  unfold invite
  split
  · exact .display text
  · exact .pure rfl

/-- The forms of one request of a dialogue: each value is printed, unless there is nothing to
    print. -/
theorem evalForms_twins (forms : List Value) :
    Run.Twins Same p (evalForms i forms) (evalForms i forms) := by
  induction forms generalizing p with
  | nil => exact .pure rfl
  | cons form forms ih =>
    refine .bind (.letIn form) fun q expr expr' _ hexpr => ?_
    refine .bind (attempt_twins (i.evaluator_blind 0 hexpr .empty))
      fun q' outcome outcome' hqq' houtcome => ?_
    cases houtcome with
    | @ok v v' hv =>
      -- Twins print alike, so what follows is one and the same on both sides.
      have hshown : Run.Twins Same q'
          (Run.printed (v.print i.room true) >>= fun text => do
            Run.display (text ++ "\n")
            evalForms i forms)
          (Run.printed (v'.print i.room true) >>= fun text => do
            Run.display (text ++ "\n")
            evalForms i forms) := by
        rw [Primitive.print_twins i.room true hv]
        exact .bind_same (.printed _) fun _ text _ => .next (.display _) fun _ _ => ih
      cases hv with
      | quit => exact .pure rfl
      | unspecified => exact ih
      | _ => exact hshown
    | @error fault _ hfault =>
      cases hfault with
      | error he => exact .next (report_twins he) fun _ _ => .pure rfl
      | outside =>
        cases fault with
        | error e => exact .next (report_twins rfl) fun _ _ => .pure rfl
        | tooDeep =>
          dsimp only
          rw [Primitive.print_twins i.room true hexpr]
          refine .next (.printed _) fun _ _ => .next (.record _ _) fun _ _ => ?_
          exact .next (.display _) fun _ _ => .pure rfl
        | _ => exact .throw (.outside _)

/-- One more line: it is not enough yet, it is wrong, or it is evaluated. -/
theorem feed_twins (prompting : Bool) (pending line : String) :
    Run.Twins Same p (feed i prompting pending line) (feed i prompting pending line) := by
  unfold feed
  dsimp only
  split
  · split
    · exact .next (invite_twins prompting _) fun _ _ => .pure rfl
    · refine .next (report_twins rfl) fun _ _ => ?_
      exact .next (invite_twins prompting _) fun _ _ => .pure rfl
  · exact .throw (.outside _)
  · refine .bind_same (evalForms_twins i _) fun _ quits _ => ?_
    split
    · exact .pure rfl
    · exact .next (invite_twins prompting _) fun _ _ => .pure rfl

/-- All lines, and then the end of the input. -/
theorem feedAll_twins (prompting : Bool) (pending : String) (lines : List String) :
    Run.Twins Same p (feedAll i prompting pending lines) (feedAll i prompting pending lines) := by
  induction lines generalizing p pending with
  | nil =>
    rw [feedAll, finish]
    split
    · exact .record _ _
    · exact .pure rfl
  | cons line lines ih =>
    refine .bind_same (feed_twins i prompting pending line) fun _ rest _ => ?_
    cases rest with
    | some pending => exact ih pending
    | none => exact .pure rfl

/-- A whole dialogue. -/
theorem run_twins (prompting : Bool) (input : String) :
    Run.Twins Same p (run i prompting input) (run i prompting input) := by
  unfold run
  split
  · exact .pure rfl
  · exact .next (invite_twins prompting _) fun _ _ => feedAll_twins i prompting _ _

end Repl

/-! ## One use after the other -/

namespace Interpreter

variable {p : Pairing} {s s' : State}

/-- Both answers are values that are twins, or both are the same status. -/
inductive Answer.Twins (p : Pairing) : Answer → Answer → Prop where
  | value {v v' : Value} : v.Twins p v' → Answer.Twins p (.value v) (.value v')
  | status (code : Nat) : Answer.Twins p (.status code) (.status code)

/-- Both answers are values that are equal, or both are the same status. -/
inductive Answer.Alike : Answer → Answer → Prop where
  | value {v v' : Value} : v.Equal v' → Answer.Alike (.value v) (.value v')
  | status (code : Nat) : Answer.Alike (.status code) (.status code)

/-- Both outcomes are answers that are alike, or faults that are. -/
abbrev OutcomeAlike : Except Fault Answer → Except Fault Answer → Prop :=
  ExceptRel Fault.Alike Answer.Alike

/-- The same for answers. -/
theorem Answer.Twins.alike {a a' : Answer} (h : a.Twins p a') : a.Alike a' := by
  cases h with
  | value hv => exact .value (Value.equal_iff_tree.mpr hv.tree_eq)
  | status code => exact .status code

/-- Each use of an interpreter is one of the runs above. -/
theorem Use.run_twins (use : Use) (i : Interpreter) :
    Run.Twins Answer.Twins p (use.run i) (use.run i) := by
  cases use with
  | dialogue prompting input =>
    exact (Repl.run_twins i prompting input).map fun _ _ _ _ => .status 0
  | request asked =>
    -- A request ends in a value, a dialogue in a status.
    have hasked : Run.Twins Value.Twins p (asked.run i) (asked.run i) := by
      cases asked with
      | eval source => exact i.eval_twins source
      | load path => exact i.loadFile_twins path
    exact hasked.map fun _ _ _ hv => .value hv

/-- An interpreter that is used for the same in twin states gives answers that are alike, and the
    states are twins again. -/
theorem Running.serve_twins (h : s.Twins p s') (i : Interpreter) (use : Use) :
    OutcomeAlike (Running.serve ⟨i, s⟩ use).1 (Running.serve ⟨i, s'⟩ use).1 ∧
    ∃ q t t', (Running.serve ⟨i, s⟩ use).2 = ⟨i, t⟩ ∧
      (Running.serve ⟨i, s'⟩ use).2 = ⟨i, t'⟩ ∧ t.Twins q t' := by
  obtain ⟨q, -, hr⟩ := use.run_twins i s s' h
  rw [serve, serve]
  dsimp only
  generalize use.run i s = r, use.run i s' = r' at hr
  cases hr with
  | ok ha ht => exact ⟨.ok ha.alike, q, _, _, rfl, rfl, ht⟩
  | error hfault ht => exact ⟨.error hfault, q, _, _, rfl, rfl, ht⟩

/-- So it is with one use after the other. -/
theorem Running.serveInTurn_twins (h : s.Twins p s') (i : Interpreter) (uses : List Use) :
    List.Forall₂ OutcomeAlike (serveInTurn Running.serve ⟨i, s⟩ uses).1
      (serveInTurn Running.serve ⟨i, s'⟩ uses).1 ∧
    ∃ q, (serveInTurn Running.serve ⟨i, s⟩ uses).2.state.Twins q
      (serveInTurn Running.serve ⟨i, s'⟩ uses).2.state := by
  induction uses generalizing p s s' with
  | nil => exact ⟨.nil, p, h⟩
  | cons use uses ih =>
    obtain ⟨halike, q, t, t', ht, ht', htwins⟩ := Running.serve_twins h i use
    obtain ⟨hrest, hend⟩ := ih htwins
    rw [serveInTurn_cons, serveInTurn_cons, ht, ht']
    exact ⟨.cons halike hrest, hend⟩

/-- All states that an interpreter comes to are numbered, whatever it is used for. -/
theorem Running.serveInTurn_numbered (h : s.Numbered) (i : Interpreter) (uses : List Use) :
    (serveInTurn Running.serve ⟨i, s⟩ uses).2.state.Numbered := by
  obtain ⟨-, q, htwins⟩ := Running.serveInTurn_twins h.twins i uses
  exact htwins.numbered

/-- Starting leaves nothing in the store but what has been made. -/
theorem start_numbered (h : s.Numbered) (loader : Loader) (room : Nat) (prelude : List String) :
    ((start loader room prelude).stateAfter s).Numbered := by
  obtain ⟨q, -, hr⟩ := start_twins loader room prelude s s h.twins
  rw [Run.stateAfter]
  generalize start loader room prelude s = r at hr
  cases hr with
  | ok _ ht => exact ht.numbered
  | error _ ht => exact ht.numbered

end Interpreter

end SmallScheme
