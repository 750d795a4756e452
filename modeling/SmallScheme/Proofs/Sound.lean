/-
  SOUND RUNS keep a state well formed.

  A sound run (`Run.Sound good`), begun in a well-formed state, ends in one: with a good value, or
  in a fault that a program can come to.  Sound runs compose (`Sound.bind`), so it is enough to go
  through the operations that programs are made of:

  1. the operations on the state, of which only a definition changes the store;
  2. the primitives (`Primitive.apply_sound`), by way of the outcomes they settle
     (`SoundResult`): well-formed arguments make a well-formed value;
  3. looking up a name, and looking for a module's file.

  So of all faults there are, a frame that does not fit, a missing item and a missing primitive are
  none that a program can come to.  Evaluation is built from these in
  `SmallScheme.Proofs.SoundTrace`, where its moments are kept in view as well.
-/
import SmallScheme.Proofs.WellFormed

namespace SmallScheme

/-! ## Sound runs -/

namespace Run

variable {α β : Type}

/-- From a well-formed state the run comes to a well-formed one; a value that it gives is as
    `good` says, and a fault that it ends in is expected. -/
def Sound (good : α → Prop) (x : Run α) : Prop :=
  ∀ s, s.WellFormed → match x s with
    | .ok a t => good a ∧ t.WellFormed
    | .error fault t => fault.Expected ∧ t.WellFormed

/-- A good value, and nothing done. -/
theorem Sound.pure {good : α → Prop} {a : α} (h : good a) : Sound good (pure a) :=
  fun _ hs => ⟨h, hs⟩

/-- An expected fault, and nothing done. -/
theorem Sound.throw {good : α → Prop} {fault : Fault} (h : fault.Expected) :
    Sound good (throw fault) :=
  fun _ hs => ⟨h, hs⟩

/-- One sound run after another. -/
theorem Sound.bind {good : α → Prop} {good' : β → Prop} {x : Run α} {k : α → Run β}
    (hx : Sound good x) (hk : ∀ a, good a → Sound good' (k a)) : Sound good' (x >>= k) := by
  intro s hs
  have h := hx s hs
  rw [bind_apply]
  cases hxs : x s with
  | ok a t =>
    rw [hxs] at h
    exact hk a h.1 t h.2
  | error fault t =>
    rw [hxs] at h
    exact h

/-- A run that leaves the store as it is, and gives a good value. -/
theorem Sound.of_store {good : α → Prop} {x : Run α}
    (h : ∀ s, ∃ a t, x s = .ok a t ∧ good a ∧ t.store = s.store) : Sound good x := by
  intro s hs
  obtain ⟨a, t, hx, ha, hstore⟩ := h s
  rw [hx]
  refine ⟨ha, ?_⟩
  show ∀ name v, (name, v) ∈ t.store.entries → _
  rw [hstore]
  exact hs

/-- Looking at the state. -/
theorem get_sound : Sound State.WellFormed get := fun _ hs => ⟨hs, hs⟩

/-- A new origin leaves the store alone. -/
theorem fresh_sound : Sound (fun _ => True) fresh :=
  Sound.of_store fun _ => ⟨_, _, rfl, trivial, rfl⟩

/-- So does an event that is put on record. -/
theorem record_sound (event : Event) : Sound (fun _ => True) (record event) :=
  Sound.of_store fun _ => ⟨_, _, rfl, trivial, rfl⟩

/-- And what is displayed. -/
theorem display_sound (text : String) : Sound (fun _ => True) (display text) :=
  Sound.of_store fun _ => ⟨_, _, rfl, trivial, rfl⟩

/-- Displaying code points fails at a surrogate only. -/
theorem displayCodes_sound (codes : List Nat) : Sound (fun _ => True) (displayCodes codes) := by
  unfold displayCodes
  split
  · exact display_sound _
  · next hbad => exact Sound.throw (Text.isSurrogate_of_ofCodes hbad).1

/-- A value that is let in is well formed. -/
theorem letIn_sound {v : Value} (h : v.WellFormed) : Sound Value.WellFormed (letIn v) :=
  Sound.of_store fun s => ⟨_, _, rfl, Value.stamp_wellFormed s.made v h, rfl⟩

/-- An error that is raised is expected, and so is each limit that its message may meet. -/
theorem raise_sound {good : α → Prop} (room : Nat) {e : Error} (h : (Fault.error e).Expected) :
    Sound good (raise room e) := by
  unfold raise
  split
  · next limit _ => cases limit <;> exact Sound.throw trivial
  · exact Sound.throw h

/-- Printing gives a text, or meets a limit. -/
theorem printed_sound (text : Except Limit String) : Sound (fun _ => True) (printed text) := by
  cases text with
  | ok text => exact Sound.pure trivial
  | error limit => cases limit <;> exact Sound.throw trivial

/-- A definition, unless it is of a primitive. -/
theorem define_sound {name : String} {v : Value} (hname : Primitive.ofName? name = none)
    (hv : v.WellFormed) : Sound (fun _ => True) (define name v) := by
  have hput : Sound (fun _ => True)
      (modify fun s => { s with store := s.store.put name v } : Run Unit) :=
    fun s hs => ⟨trivial, hs.define hname hv⟩
  refine get_sound.bind fun s _ => ?_
  split
  · exact (record_sound _).bind fun _ _ => hput
  · exact hput

end Run

/-! ## Primitives -/

namespace Primitive

open Run (Sound)

/-- The result is well formed, or the fault is expected. -/
def SoundResult : Except Fault Value → Prop
  | .ok v => v.WellFormed
  | .error fault => fault.Expected

/-- Settling an outcome ends a run with it. -/
theorem settle_sound (room : Nat) {result : Except Fault Value} (h : SoundResult result) :
    Sound Value.WellFormed (settle room result) := by
  unfold settle
  split
  · exact Sound.pure h
  · exact Run.raise_sound room h
  · exact Sound.throw h

/-- A primitive of one argument, if it makes well-formed values of well-formed ones. -/
theorem unary_sound (p : Primitive) (room : Nat) {args : List Value}
    (hargs : Value.AllWellFormed args) {result : Value → Except Fault Value}
    (h : ∀ v, v.WellFormed → SoundResult (result v)) :
    Sound Value.WellFormed (unary p room args result) := by
  unfold unary
  split
  · exact settle_sound room (h _ hargs.1)
  · exact Run.raise_sound room trivial

/-- A primitive of two arguments. -/
theorem binary_sound (p : Primitive) (room : Nat) {args : List Value}
    (hargs : Value.AllWellFormed args) {result : Value → Value → Except Fault Value}
    (h : ∀ v w, v.WellFormed → w.WellFormed → SoundResult (result v w)) :
    Sound Value.WellFormed (binary p room args result) := by
  unfold binary
  split
  · exact settle_sound room (h _ _ hargs.1 hargs.2.1)
  · exact Run.raise_sound room trivial

/-- A value in front of a well-formed one: what is dotted keeps a tail that is no list. -/
theorem consValue_wellFormed (origin : Origin) {v w : Value} (hv : v.WellFormed)
    (hw : w.WellFormed) : (consValue origin v w).WellFormed := by
  cases w with
  -- in front of a list it is one more item, and in front of anything else the items before a tail
  | list _ vs => exact ⟨hv, hw⟩
  | dotted _ vs tail => exact ⟨List.cons_ne_nil v vs, hw.2.1, ⟨hv, hw.2.2.1⟩, hw.2.2.2⟩
  | quit => exact hw.elim
  | _ => exact ⟨List.cons_ne_nil v [], rfl, ⟨hv, trivial⟩, hw⟩

/-- The first item is there: only a dotted list without items would have none. -/
theorem first_sound {v : Value} (h : v.WellFormed) : SoundResult (first v) := by
  unfold first
  split
  · exact h.1
  · exact h.2.2.1.1
  · exact absurd rfl h.1
  · trivial

/-- Without its first item a dotted list still has others, or is its tail. -/
theorem others_sound (origin : Origin) {v : Value} (h : v.WellFormed) :
    SoundResult (others origin v) := by
  unfold others
  split
  · exact h.2
  · exact ⟨List.cons_ne_nil _ _, h.2.1, h.2.2.1.2, h.2.2.2⟩
  · exact h.2.2.2
  · trivial

/-- Arithmetic on one number, or an error. -/
theorem onNumber_sound (p : Primitive) {result : Int → Value} (h : ∀ n, (result n).WellFormed)
    (v : Value) : SoundResult (onNumber p result v) := by
  unfold onNumber
  split
  · exact h _
  · trivial

/-- Arithmetic on two numbers, or an error about the first that is none. -/
theorem onNumberPair_sound (p : Primitive) {result : Int → Int → Value}
    (h : ∀ m n, (result m n).WellFormed) (v w : Value) :
    SoundResult (onNumberPair p result v w) := by
  unfold onNumberPair
  split
  · exact h _ _
  · trivial
  · trivial

/-- That something is no number is an error of the program. -/
theorem numbers_expected {name : String} {args : List Value} {e : Error}
    (h : numbers name args = .error e) : (Fault.error e).Expected := by
  induction args generalizing e with
  | nil => cases h
  | cons v vs ih =>
    cases v with
    | int n =>
      rw [numbers] at h
      split at h
      · cases h
      · next hrest =>
        cases h
        exact ih hrest
    | _ =>
      cases h
      trivial

/-- Arithmetic on a list of numbers. -/
theorem onNumbers_sound (p : Primitive) {result : List Int → Value}
    (h : ∀ ns, (result ns).WellFormed) (args : List Value) :
    SoundResult (onNumbers p result args) := by
  unfold onNumbers
  split
  · exact h _
  · next he => exact numbers_expected he

/-- Comparing comes to a truth value, or runs too deep. -/
theorem equality_sound (room : Nat) (v w : Value) : SoundResult (equality room v w) := by
  unfold equality
  split <;> trivial

/-- The raw text of values: each of them prints or meets a limit. -/
theorem rawText_sound (room : Nat) (vs : List Value) :
    Sound (fun _ => True) (rawText room vs) := by
  induction vs with
  | nil => exact Sound.pure trivial
  | cons v vs ih =>
    refine (Run.printed_sound _).bind fun text _ => ?_
    exact ih.bind fun rest _ => Sound.pure trivial

/-- A primitive makes a well-formed value of well-formed arguments, or ends in an expected fault. -/
theorem apply_sound (p : Primitive) (room : Nat) {args : List Value}
    (h : Value.AllWellFormed args) : Sound Value.WellFormed (p.apply room args) := by
  cases p with
  | cons =>
    refine Run.fresh_sound.bind fun origin _ => binary_sound _ room h fun v w hv hw => ?_
    exact consValue_wellFormed origin hv hw
  | car => exact unary_sound _ room h fun v hv => first_sound hv
  | cdr => exact Run.fresh_sound.bind fun origin _ => unary_sound _ room h fun v hv =>
      others_sound origin hv
  | isNull | isAtom | isZero | isNumber => exact unary_sound _ room h fun v _ => trivial
  | isEqual => exact binary_sound _ room h fun v w _ _ => equality_sound room v w
  | add1 | sub1 => exact unary_sound _ room h fun v _ => onNumber_sound _ (fun _ => by trivial) v
  | greater | less =>
    exact binary_sound _ room h fun v w _ _ => onNumberPair_sound _ (fun _ _ => by trivial) v w
  | add | multiply => exact settle_sound room (onNumbers_sound _ (fun _ => by trivial) args)
  | subtract =>
    cases args with
    | nil =>
      have hnone : (Fault.error (.noArguments subtract.name)).Expected := trivial
      exact Run.raise_sound room hnone
    | cons v vs => exact settle_sound room (onNumbers_sound _ (fun _ => by trivial) (v :: vs))
  | display =>
    refine (rawText_sound room args).bind fun text _ => ?_
    exact (Run.displayCodes_sound _).bind fun _ _ => Sound.pure trivial

/-- A primitive of the catalog is found. -/
theorem call_sound {name : String} (hname : (ofName? name).isSome) (room : Nat)
    {args : List Value} (h : Value.AllWellFormed args) :
    Sound Value.WellFormed (call name room args) := by
  unfold call
  split
  · exact apply_sound _ room h
  -- a well-formed primitive is in the catalog
  · next hnone =>
    rw [hnone] at hname
    cases hname

end Primitive

/-- What a name stands for is well formed, in a frame as in the store. -/
theorem Eval.lookup_sound (room : Nat) (name : String) {env : Env} (h : env.WellFormed) :
    Run.Sound Value.WellFormed (Eval.lookup room name env) := by
  unfold Eval.lookup
  split
  · next hv => exact Run.Sound.pure (Env.lookup?_wellFormed env h hv)
  · refine Run.get_sound.bind fun s hs => ?_
    split
    · next hv => exact Run.Sound.pure (hs _ _ (Store.mem_of_get? hv)).1
    · exact Run.raise_sound room trivial

/-! ## Finding modules -/

namespace Loader

open Run (Sound)

/-- A file whose state cannot be asked for is an expected fault. -/
theorem isFile_expected {loader : Loader} {path : Path} {fault : Fault}
    (h : loader.isFile path = .error fault) : fault.Expected := by
  unfold isFile at h
  split at h
  · cases h
  · split at h <;> cases h
    trivial

/-- Asking whether a file is there. -/
theorem checkFile_sound (loader : Loader) (path : Path) :
    Sound (fun _ => True) (loader.checkFile path) := by
  unfold checkFile
  split
  · exact Sound.pure trivial
  · next h => exact Sound.throw (isFile_expected h)

/-- Asking for it under one root after another. -/
theorem search_sound (loader : Loader) (name : String) (path : Path) (roots : List Path) :
    Sound (fun _ => True) (loader.search name path roots) := by
  induction roots with
  | nil => exact Sound.pure trivial
  | cons root roots ih =>
    refine (Run.record_sound _).bind fun _ _ => ?_
    refine (checkFile_sound loader _).bind fun answer _ => ?_
    split
    · exact Sound.pure trivial
    · exact ih

/-- A module's name that has no path is an expected fault. -/
theorem modulePath_expected {name : String} {fault : Fault}
    (h : modulePath name = .error fault) : fault.Expected := by
  unfold modulePath at h
  split at h
  · cases h
  · dsimp only at h
    split at h <;> cases h
    trivial

/-- Looking for a module's file ends in no fault but those of paths and files. -/
theorem resolve_sound (loader : Loader) (name : String) :
    Sound (fun _ => True) (loader.resolve name) := by
  unfold resolve
  split
  · next h => exact Sound.throw (modulePath_expected h)
  · split
    · refine (checkFile_sound loader _).bind fun answer _ => ?_
      split <;> exact Sound.pure trivial
    · exact search_sound loader name _ _

/-- A file without a text is an expected fault: it is unreadable, or not to be decoded. -/
theorem text_expected {loader : Loader} {path : Path} {fault : Fault}
    (h : loader.text path = .error fault) : fault.Expected := by
  unfold text bytes at h
  split at h
  · next hbytes =>
    cases h
    split at hbytes <;> cases hbytes <;> trivial
  · split at h <;> cases h
    trivial

end Loader

end SmallScheme
