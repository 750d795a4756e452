/-
  ALOOF RUNS have nothing to do with the store, nor with what is being loaded.

  All that an aloof run looks at is how many lists and frames have been made (`Run.Aloof`).  Its
  outcome depends on nothing else, and of the state it only adds to what has been displayed, put
  on record and made (`State.grown`).  What it comes to is good in a sense that is a parameter, so
  that one pass over the primitives says both how they run and what their values are made of.

  1. Errors and limits, letting values in, and displaying are aloof; so are one aloof run after
     another (`Aloof.bind`).  What only concerns the values, in whatever state, is `Run.Gives`.
  2. A primitive is aloof, and whatever it comes to has its parts from the arguments
     (`Primitive.apply_aloof`): it cannot bring names or code into play that were not there.
  3. Looking for the file of a module is aloof, and what it finds is one of the candidates for the
     name (`Loader.resolve_aloof`).

  What is left of a program's work is looking up, defining and loading; whatever is true of those
  three and of aloof runs is true of everything.
-/
import SmallScheme.Proofs.Scope
import SmallScheme.Proofs.Limit

namespace SmallScheme

/-! ## The notion -/

/-- The state after more has been displayed, put on record and made. -/
def State.grown (s : State) (text : String) (new : Array Event) (made : Nat) : State :=
  { s with out := s.out ++ text, events := s.events ++ new, made := made }

namespace Run

variable {α β : Type} {good good' : α → Prop}

/-- An outcome in a state. -/
def result (outcome : Except Fault α) (s : State) : EStateM.Result Fault State α :=
  match outcome with
  | .ok a => .ok a s
  | .error fault => .error fault s

/-- A result shows its outcome and its state. -/
theorem result_inj {outcome outcome' : Except Fault α} {s t : State}
    (h : result outcome s = result outcome' t) : outcome = outcome' ∧ s = t := by
  cases outcome <;> cases outcome' <;> cases h <;> exact ⟨rfl, rfl⟩

/-- The run looks at nothing but how much has been made, only adds to what has been displayed, put
    on record and made, and comes to a good value or to a fault. -/
def Aloof (good : α → Prop) (x : Run α) : Prop :=
  ∀ made, ∃ outcome text new made', (∀ a, outcome = .ok a → good a) ∧
    ∀ s : State, s.made = made → x s = result outcome (s.grown text new made')

/-- A run that does nothing to the state. -/
theorem Aloof.still {x : Run α} (outcome : Except Fault α) (h : ∀ s, x s = result outcome s)
    (ha : ∀ a, outcome = .ok a → good a) : Aloof good x := by
  refine fun made => ⟨outcome, "", #[], made, ha, ?_⟩
  rintro s rfl
  rw [h s, State.grown, String.append_empty, Array.append_empty]

/-- Giving back a good value. -/
theorem Aloof.pure {a : α} (h : good a) : Aloof good (pure a) := by
  refine Aloof.still (.ok a) (fun _ => rfl) fun b hb => ?_
  cases hb
  exact h

/-- No fault has a value that would have to be good. -/
theorem Aloof.throw (fault : Fault) : Aloof good (throw fault : Run α) :=
  Aloof.still (.error fault) (fun _ => rfl) nofun

/-- One aloof run after another: the second one sees how much the first has made, and nothing else
    of it but its value. -/
theorem Aloof.bind {good : α → Prop} {good' : β → Prop} {x : Run α} {k : α → Run β}
    (hx : Aloof good x) (hk : ∀ a, good a → Aloof good' (k a)) : Aloof good' (x >>= k) := by
  intro made
  obtain ⟨outcome, text, new, made', hgood, hxs⟩ := hx made
  cases outcome with
  | error fault =>
    refine ⟨.error fault, text, new, made', nofun, fun s hs => ?_⟩
    rw [bind_apply, hxs s hs]
    rfl
  | ok a =>
    -- what the second run adds comes after what the first has added
    obtain ⟨outcome', text', new', made'', hgood', hks⟩ := hk a (hgood a rfl) made'
    refine ⟨outcome', text ++ text', new ++ new', made'', hgood', fun s hs => ?_⟩
    rw [bind_apply, hxs s hs]
    show k a (s.grown text new made') = _
    rw [hks _ rfl]
    simp only [State.grown, String.append_assoc, Array.append_assoc]

/-- What is good may be taken more widely. -/
theorem Aloof.mono {x : Run α} (hx : Aloof good x) (h : ∀ a, good a → good' a) :
    Aloof good' x := by
  intro made
  obtain ⟨outcome, text, new, made', hgood, hxs⟩ := hx made
  exact ⟨outcome, text, new, made', fun a ha => h a (hgood a ha), hxs⟩

/-- Raising an error, or meeting the limit in its message. -/
theorem raise_aloof (room : Nat) (e : Error) : Aloof good (raise room e) := by
  unfold raise
  split <;> exact Aloof.throw _

/-- A text that has been written, or the limit that was met. -/
theorem printed_aloof (text : Except Limit String) : Aloof (fun _ => True) (printed text) := by
  cases text with
  | ok text => exact Aloof.pure trivial
  | error limit => exact Aloof.throw _

/-- A new origin depends on how many there are, and is one more. -/
theorem fresh_aloof : Aloof (fun _ => True) fresh := by
  refine fun made => ⟨.ok (.made made), "", #[], made + 1, fun _ _ => trivial, ?_⟩
  rintro s rfl
  rw [State.grown, String.append_empty, Array.append_empty]
  rfl

/-- One more event on record. -/
theorem record_aloof (event : Event) : Aloof (fun _ => True) (record event) := by
  refine fun made => ⟨.ok (), "", #[event], made, fun _ _ => trivial, ?_⟩
  rintro s rfl
  rw [State.grown, String.append_empty, Array.append_singleton]
  rfl

/-- Some more text is displayed. -/
theorem display_aloof (text : String) : Aloof (fun _ => True) (display text) := by
  refine fun made => ⟨.ok (), text, #[], made, fun _ _ => trivial, ?_⟩
  rintro s rfl
  rw [State.grown, Array.append_empty]
  rfl

/-- Displaying code points is aloof, whether they are a text or not. -/
theorem displayCodes_aloof (codes : List Nat) : Aloof (fun _ => True) (displayCodes codes) := by
  unfold displayCodes
  split
  · exact display_aloof _
  · exact Aloof.throw _

/-- Letting a value in numbers its lists.  What names are in its code does not change. -/
theorem letIn_aloof {scope : Scope} {v : Value} (h : scope.Code v) :
    Aloof scope.Code (letIn v) := by
  refine fun made => ⟨.ok (v.stamp made).1, "", #[], (v.stamp made).2, ?_, ?_⟩
  -- first that the value is good, then what becomes of the state
  · intro w hw
    cases hw
    exact h.stamp made
  · rintro s rfl
    rw [State.grown, String.append_empty, Array.append_empty]
    rfl

/-! ## Good values -/

/-- All values that the run comes to are good. -/
def Gives (good : α → Prop) (x : Run α) : Prop := ∀ s a t, x s = .ok a t → good a

/-- Giving back a good value. -/
theorem Gives.pure {a : α} (h : good a) : Gives good (pure a) := by
  intro s b t hb
  cases hb
  exact h

/-- Good values of the first run are handed on to the second. -/
theorem Gives.bind {good : α → Prop} {good' : β → Prop} {x : Run α} {k : α → Run β}
    (hx : Gives good x) (hk : ∀ a, good a → Gives good' (k a)) : Gives good' (x >>= k) := by
  intro s b t hb
  rw [bind_apply] at hb
  cases hs : x s with
  | ok a u =>
    rw [hs] at hb
    exact hk a (hx s a u hs) u b t hb
  | error fault u =>
    rw [hs] at hb
    cases hb

/-- What the guard of depth does to a result. -/
theorem guardDepth_apply (x : Run α) (s : State) :
    guardDepth x s = match x s with
      | .error .tooDeep t => .error (.error .tooDeep) t
      | r => r := by
  show EStateM.tryCatch x _ s = _
  unfold EStateM.tryCatch
  cases x s with
  | ok a t => rfl
  | error fault t => cases fault <;> rfl

/-- The outcome of a run that is guarded against going too deep. -/
def guarded : Except Fault α → Except Fault α
  | .error .tooDeep => .error (.error .tooDeep)
  | outcome => outcome

/-- The guard leaves the state as it is. -/
theorem guardDepth_result {x : Run α} {s t : State} {outcome : Except Fault α}
    (h : x s = result outcome t) : guardDepth x s = result (guarded outcome) t := by
  rw [guardDepth_apply, h]
  cases outcome with
  | ok a => rfl
  | error fault => cases fault <;> rfl

/-- A run that is guarded comes to a value by itself only. -/
theorem guarded_eq_ok {outcome : Except Fault α} {a : α} (h : guarded outcome = .ok a) :
    outcome = .ok a := by
  unfold guarded at h
  split at h
  · cases h
  · exact h

/-- While a file is being loaded its path is first in the list, and it is taken out again whichever
    way the run ends. -/
theorem whileLoading_result {x : Run α} {s t : State} {path : Path} {outcome : Except Fault α}
    (h : x { s with loading := path :: s.loading } = result outcome t) :
    whileLoading path x s = result outcome { t with loading := t.loading.erase path } := by
  unfold whileLoading
  rw [h]
  cases outcome <;> rfl

/-- The guard adds no values. -/
theorem Gives.guardDepth {x : Run α} (hx : Gives good x) : Gives good (guardDepth x) := by
  intro s a t ha
  rw [guardDepth_apply] at ha
  split at ha
  · cases ha
  · exact hx s a t ha

/-- An aloof run gives good values. -/
theorem Aloof.gives {x : Run α} (h : Aloof good x) : Gives good x := by
  intro s a t hx
  obtain ⟨outcome, text, new, made, hgood, hs⟩ := h s.made
  rw [hs s rfl] at hx
  cases outcome with
  | ok b =>
    cases hx
    exact hgood _ rfl
  | error fault => cases hx

end Run

/-! ## Primitives -/

namespace Primitive

open Run (Aloof)

variable {scope : Scope}

/-- The result, if it is a value, is in scope. -/
def InScope (scope : Scope) (result : Except Fault Value) : Prop :=
  ∀ v, result = .ok v → scope.Data v

/-- A value whose parts are in scope is. -/
theorem InScope.ok {v : Value} (h : scope.Data v) : InScope scope (.ok v) := by
  intro w hw
  cases hw
  exact h

/-- A fault has no parts. -/
theorem InScope.error (fault : Fault) : InScope scope (.error fault) := nofun

/-- An outcome that is in scope is settled. -/
theorem settle_aloof (room : Nat) {result : Except Fault Value} (h : InScope scope result) :
    Aloof scope.Data (settle room result) := by
  unfold settle
  split
  · exact Aloof.pure (h _ rfl)
  · exact Run.raise_aloof room _
  · exact Aloof.throw _

/-- A primitive of one argument, if what it makes of the argument is in scope. -/
theorem unary_aloof (p : Primitive) (room : Nat) {args : List Value}
    (hargs : ∀ arg ∈ args, scope.Data arg) {result : Value → Except Fault Value}
    (h : ∀ v, scope.Data v → InScope scope (result v)) :
    Aloof scope.Data (unary p room args result) := by
  unfold unary
  split
  · exact settle_aloof room (h _ (hargs _ List.mem_cons_self))
  · exact Run.raise_aloof room _

/-- A primitive of two arguments. -/
theorem binary_aloof (p : Primitive) (room : Nat) {args : List Value}
    (hargs : ∀ arg ∈ args, scope.Data arg) {result : Value → Value → Except Fault Value}
    (h : ∀ v w, scope.Data v → scope.Data w → InScope scope (result v w)) :
    Aloof scope.Data (binary p room args result) := by
  unfold binary
  split
  · obtain ⟨hv, hrest⟩ := List.forall_mem_cons.mp hargs
    exact settle_aloof room (h _ _ hv (hrest _ List.mem_cons_self))
  · exact Run.raise_aloof room _

/-- A pair has the parts of both its sides. -/
theorem consValue_data (origin : Origin) {v w : Value} (hv : scope.Data v) (hw : scope.Data w) :
    scope.Data (consValue origin v w) := by
  cases w with
  | list _ vs => exact Scope.data_list.mpr (List.forall_mem_cons.mpr ⟨hv, Scope.data_list.mp hw⟩)
  | dotted _ vs tail =>
    obtain ⟨hvs, htail⟩ := Scope.data_dotted.mp hw
    exact Scope.data_dotted.mpr ⟨List.forall_mem_cons.mpr ⟨hv, hvs⟩, htail⟩
  -- onto a value that is no list, the pair is a dotted one
  | _ => exact Scope.data_dotted.mpr ⟨List.forall_mem_singleton.mpr hv, hw⟩

/-- The first item of a list is a part of it. -/
theorem first_inScope {v : Value} (h : scope.Data v) : InScope scope (first v) := by
  unfold first
  split
  · exact .ok (Scope.data_list.mp h _ List.mem_cons_self)
  · exact .ok ((Scope.data_dotted.mp h).1 _ List.mem_cons_self)
  · exact .error _
  · exact .error _

/-- So are the others, as a list of their own. -/
theorem others_inScope (origin : Origin) {v : Value} (h : scope.Data v) :
    InScope scope (others origin v) := by
  unfold others
  split
  · exact .ok (Scope.data_list.mpr (List.forall_mem_cons.mp (Scope.data_list.mp h)).2)
  · obtain ⟨hvs, htail⟩ := Scope.data_dotted.mp h
    exact .ok (Scope.data_dotted.mpr ⟨(List.forall_mem_cons.mp hvs).2, htail⟩)
  · exact .ok (Scope.data_dotted.mp h).2
  · exact .error _

/-- There are no parts in a truth value. -/
theorem data_bool (b : Bool) : scope.Data (.bool b) := Scope.data_of_parts rfl rfl

/-- Nor in a number. -/
theorem data_int (n : Int) : scope.Data (.int n) := Scope.data_of_parts rfl rfl

/-- Arithmetic on one number. -/
theorem onNumber_inScope (p : Primitive) {result : Int → Value}
    (h : ∀ n, scope.Data (result n)) (v : Value) : InScope scope (onNumber p result v) := by
  unfold onNumber
  split
  · exact .ok (h _)
  · exact .error _

/-- Arithmetic on two numbers. -/
theorem onNumberPair_inScope (p : Primitive) {result : Int → Int → Value}
    (h : ∀ m n, scope.Data (result m n)) (v w : Value) :
    InScope scope (onNumberPair p result v w) := by
  unfold onNumberPair
  split
  · exact .ok (h _ _)
  · exact .error _
  · exact .error _

/-- Arithmetic on a list of numbers. -/
theorem onNumbers_inScope (p : Primitive) {result : List Int → Value}
    (h : ∀ ns, scope.Data (result ns)) (args : List Value) :
    InScope scope (onNumbers p result args) := by
  unfold onNumbers
  split
  · exact .ok (h _)
  · exact .error _

/-- Comparing comes to a truth value, or runs too deep. -/
theorem equality_inScope (room : Nat) (v w : Value) : InScope scope (equality room v w) := by
  unfold equality
  split
  · exact .ok (data_bool _)
  · exact .error _

/-- The raw text of the arguments, one after the other. -/
theorem rawText_aloof (room : Nat) (vs : List Value) :
    Aloof (fun _ => True) (rawText room vs) := by
  induction vs with
  | nil => exact Aloof.pure trivial
  | cons v vs ih =>
    refine (Run.printed_aloof _).bind fun text _ => ?_
    exact ih.bind fun rest _ => Aloof.pure trivial

/-- A primitive does not look at the store, and has only its arguments to make a value of. -/
theorem apply_aloof (p : Primitive) (room : Nat) {args : List Value}
    (h : ∀ arg ∈ args, scope.Data arg) : Aloof scope.Data (p.apply room args) := by
  cases p with
  | cons =>
    refine Run.fresh_aloof.bind fun origin _ => binary_aloof _ room h fun v w hv hw => ?_
    exact .ok (consValue_data origin hv hw)
  | car => exact unary_aloof _ room h fun v hv => first_inScope hv
  | cdr => exact Run.fresh_aloof.bind fun origin _ => unary_aloof _ room h fun v hv =>
      others_inScope origin hv
  | isNull | isAtom | isZero | isNumber =>
    exact unary_aloof _ room h fun v _ => .ok (data_bool _)
  | isEqual => exact binary_aloof _ room h fun v w _ _ => equality_inScope room v w
  | add1 | sub1 => exact unary_aloof _ room h fun v _ => onNumber_inScope _ (fun _ => data_int _) v
  | greater | less =>
    exact binary_aloof _ room h fun v w _ _ =>
      onNumberPair_inScope _ (fun _ _ => data_bool _) v w
  | add | multiply => exact settle_aloof room (onNumbers_inScope _ (fun _ => data_int _) args)
  | subtract =>
    cases args with
    | nil => exact Run.raise_aloof room (.noArguments subtract.name)
    | cons v vs => exact settle_aloof room (onNumbers_inScope _ (fun _ => data_int _) (v :: vs))
  | display =>
    refine (rawText_aloof room args).bind fun text _ => ?_
    exact (Run.displayCodes_aloof _).bind fun _ _ => Aloof.pure (Scope.data_of_parts rfl rfl)

/-- The primitives by their names; under any other name there is none. -/
theorem call_aloof (name : String) (room : Nat) {args : List Value}
    (h : ∀ arg ∈ args, scope.Data arg) : Aloof scope.Data (call name room args) := by
  unfold call
  split
  · exact apply_aloof _ room h
  · exact Run.raise_aloof room _

end Primitive

/-! ## Finding modules -/

namespace Loader

open Run (Aloof)

/-- Whether a file is there is asked of the files alone. -/
theorem checkFile_aloof (loader : Loader) (path : Path) :
    Aloof (fun _ => True) (loader.checkFile path) := by
  unfold checkFile
  split
  · exact Aloof.pure trivial
  · exact Aloof.throw _

/-- What a search finds is one of the places where it looks. -/
theorem search_aloof (loader : Loader) (name : String) (path : Path) (roots : List Path) :
    Aloof (fun path? => ∀ found, path? = some found → found ∈ roots.map fun root => root.join path)
      (loader.search name path roots) := by
  induction roots with
  | nil => exact Aloof.pure nofun
  | cons root roots ih =>
    refine (Run.record_aloof _).bind fun _ _ => ?_
    refine (checkFile_aloof loader _).bind fun answer _ => ?_
    split
    · refine Aloof.pure fun found hfound => ?_
      cases hfound
      exact List.mem_cons_self
    · exact ih.mono fun path? h found hfound => List.mem_cons_of_mem _ (h found hfound)

/-- The file of a module is one of the candidates for its name. -/
theorem resolve_aloof (loader : Loader) (name : String) :
    Aloof (fun path? => ∀ found, path? = some found → found ∈ loader.candidates name)
      (loader.resolve name) := by
  unfold resolve candidates
  cases modulePath name with
  | error fault => exact Aloof.throw _
  | ok path =>
    dsimp only
    split
    · refine (checkFile_aloof loader _).bind fun answer _ => ?_
      split
      · refine Aloof.pure fun found hfound => ?_
        cases hfound
        exact List.mem_cons_self
      · exact Aloof.pure nofun
    · exact search_aloof loader name _ _

end Loader

end SmallScheme
