/-
  WHILE A FILE IS BEING LOADED everything else goes on as usual.

  That a file is being loaded is part of the state, but only the loader looks there, to refuse the
  same file.  So two states that differ in nothing else (`State.Besides`) cannot be told apart by
  a program that does not load that file.

  A program that does load it can tell: with the file in the list it ends in an error.  Hence the
  condition in `Run.Unnoticed`, which is about the scenes of the run with the file not in the list:
  in none of them is that file being loaded.  It is a condition on one of the two runs only, and
  it is handed down to the parts of the run as the scenes are.

  That all programs keep to it is `Host.relates_unnoticed`.  What is on record may differ as well,
  for no program looks there at all.
-/
import SmallScheme.Proofs.Staged

namespace SmallScheme

/-! ## The states -/

/-- The states are the same but for what is on record, and for the file, which is being loaded
    only in the second. -/
structure State.Besides (file : Path) (s t : State) : Prop where
  store : t.store = s.store
  out : t.out = s.out
  made : t.made = s.made
  loading : ∃ inner outer, s.loading = inner ++ outer ∧ t.loading = inner ++ file :: outer

namespace State.Besides

variable {file : Path} {s t : State}

/-- All other files are being loaded in both states or in none. -/
theorem contains (h : s.Besides file t) {path : Path} (hpath : path ≠ file) :
    t.loading.contains path = s.loading.contains path := by
  obtain ⟨inner, outer, hs, ht⟩ := h.loading
  rw [Bool.eq_iff_iff, List.contains_iff_mem, List.contains_iff_mem, hs, ht]
  simp [hpath]

/-- In the second state the file is being loaded. -/
theorem mem (h : s.Besides file t) : file ∈ t.loading := by
  obtain ⟨inner, outer, -, ht⟩ := h.loading
  rw [ht]
  exact List.mem_append_right _ List.mem_cons_self

/-- The records may differ in any way. -/
theorem record (h : s.Besides file t) (events events' : Array Event) :
    State.Besides file { s with events := events } { t with events := events' } :=
  ⟨h.store, h.out, h.made, h.loading⟩

/-- One more file is being loaded in both. -/
theorem cons (h : s.Besides file t) (path : Path) :
    State.Besides file { s with loading := path :: s.loading }
      { t with loading := path :: t.loading } := by
  obtain ⟨inner, outer, hs, ht⟩ := h.loading
  exact ⟨h.store, h.out, h.made, path :: inner, outer, congrArg _ hs, congrArg _ ht⟩

/-- And no longer, unless it is the file itself. -/
theorem erase (h : s.Besides file t) {path : Path} (hpath : path ≠ file) :
    State.Besides file { s with loading := s.loading.erase path }
      { t with loading := t.loading.erase path } := by
  obtain ⟨inner, outer, hs, ht⟩ := h.loading
  refine ⟨h.store, h.out, h.made, ?_⟩
  dsimp only
  rw [hs, ht, List.erase_append, List.erase_append,
    List.erase_cons_tail (by simpa using hpath.symm)]
  split
  · exact ⟨inner.erase path, outer, rfl, rfl⟩
  · exact ⟨inner, outer.erase path, rfl, rfl⟩

/-- More is displayed and made in both. -/
theorem grown (h : s.Besides file t) (text : String) (new : Array Event) (made : Nat) :
    State.Besides file (s.grown text new made) (t.grown text new made) := by
  refine ⟨h.store, ?_, rfl, h.loading⟩
  show t.out ++ text = s.out ++ text
  rw [h.out]

end State.Besides

/-! ## The runs -/

namespace Run

variable {α β : Type}

/-- The results are of the same outcome, in states that are the same besides the file. -/
def SameBesides (file : Path) (good : α → Prop) (r r' : EStateM.Result Fault State α) : Prop :=
  ∃ outcome s t, r = result outcome s ∧ r' = result outcome t ∧ s.Besides file t ∧
    ∀ a, outcome = .ok a → good a

/-- Where the staged run does not load the file, the run does the same while the file is being
    loaded. -/
def Unnoticed (file : Path) (good : α → Prop) (x : Staged α) (x' : Run α) : Prop :=
  ∀ inProgress s t, s.Besides file t → (∀ scene ∈ (x inProgress s).1, file ∉ scene.inProgress) →
    SameBesides file good (x.run inProgress s) (x' t)

variable {file : Path} {good : α → Prop} {good' : β → Prop}

/-- One outcome, in states that are the same besides the file. -/
theorem SameBesides.intro {s t : State} (h : s.Besides file t) (outcome : Except Fault α)
    (hgood : ∀ a, outcome = .ok a → good a) :
    SameBesides file good (result outcome s) (result outcome t) :=
  ⟨outcome, s, t, rfl, rfl, h, hgood⟩

/-- An aloof run does not look at what is being loaded. -/
theorem SameBesides.of_aloof {x : Run α} (hx : x.Aloof good) {s t : State}
    (h : s.Besides file t) : SameBesides file good (x s) (x t) := by
  obtain ⟨outcome, text, new, made, hgood, hxs⟩ := hx s.made
  rw [hxs s rfl, hxs t h.made]
  exact .intro (h.grown text new made) outcome hgood

namespace Unnoticed

/-- So it has no scenes, and does the same. -/
theorem of_aloof {x : Run α} (hx : x.Aloof good) : Unnoticed file good (liftM x) x :=
  fun _ _ _ h _ => SameBesides.of_aloof hx h

/-- One such run after the other. -/
theorem bind {x : Staged α} {x' : Run α} {k : α → Staged β} {k' : α → Run β}
    (hx : Unnoticed file good x x') (hk : ∀ a, good a → Unnoticed file good' (k a) (k' a)) :
    Unnoticed file good' (x >>= k) (x' >>= k') := by
  intro inProgress s t h hscenes
  have hfirst : ∀ scene ∈ (x inProgress s).1, file ∉ scene.inProgress := fun scene hscene =>
    hscenes scene (Staged.mem_bind_iff.mpr (Or.inl hscene))
  obtain ⟨outcome, s', t', hs, ht, h', hgood⟩ := hx inProgress s t h hfirst
  have hrun : (x >>= k).run inProgress = x.run inProgress >>= fun a => (k a).run inProgress :=
    Noted.run_bind (x inProgress) fun a => k a inProgress
  rw [hrun, bind_apply, bind_apply, hs, ht]
  cases outcome with
  | error fault => exact .intro h' (.error fault) nofun
  | ok a =>
    -- the scenes of the second run are among those of both
    exact hk a (hgood a rfl) inProgress s' t' h' fun scene hscene =>
      hscenes scene (Staged.mem_bind_iff.mpr (Or.inr ⟨a, s', hs, hscene⟩))

/-- A scene more in the first run is one more condition. -/
theorem note {x : Staged α} {x' : Run α} (what? : Option (Value × Env))
    (hx : Unnoticed file good x x') : Unnoticed file good (Host.note what? >>= fun _ => x) x' :=
  fun inProgress s t h hscenes =>
    hx inProgress s t h fun scene hscene => hscenes scene (List.mem_cons_of_mem _ hscene)

/-- Running too deep is the same in both. -/
theorem guardDepth {x : Staged α} {x' : Run α} (hx : Unnoticed file good x x') :
    Unnoticed file good (Host.guardDepth x) (Run.guardDepth x') := by
  intro inProgress s t h hscenes
  obtain ⟨outcome, s', t', hs, ht, h', hgood⟩ := hx inProgress s t h hscenes
  show SameBesides file good (Run.guardDepth (x.run inProgress) s) _
  rw [guardDepth_result hs, guardDepth_result ht]
  exact .intro h' (guarded outcome) fun a ha => hgood a (guarded_eq_ok ha)

/-- Looking up, since the stores are the same. -/
theorem lookup (room : Nat) (name : String) (env : Env) :
    Unnoticed file Scope.everything.Data (liftM (Eval.lookup room name env))
      (Eval.lookup room name env) := by
  intro inProgress s t h _
  show SameBesides file _ (Eval.lookup room name env s) _
  rw [Eval.lookup_apply, Eval.lookup_apply, h.store]
  cases env.lookup? name with
  | some v => exact .intro h (.ok v) fun v _ => Scope.everything_data v
  | none =>
    cases s.store.get? name with
    | some v => exact .intro h (.ok v) fun v _ => Scope.everything_data v
    | none => exact SameBesides.of_aloof (raise_aloof room _) h

/-- Defining, likewise. -/
theorem defining (name : String) (v : Value) :
    Unnoticed file Scope.everything.Data (liftM (Eval.defining name v)) (Eval.defining name v) := by
  intro inProgress s t h _
  show SameBesides file _ (Eval.defining name v s) _
  rw [Eval.defining_apply, Eval.defining_apply]
  refine ⟨.ok (.symbol name), _, _, rfl, rfl, ⟨?_, h.out, h.made, h.loading⟩, fun v _ =>
    Scope.everything_data v⟩
  dsimp only
  rw [h.store]

/-- Opening another file.  It is refused in both states or in neither, and while it is being read it
    is in both lists. -/
theorem openFile {loader : Loader} {room : Nat} {path : Path} {k : String → Staged Value}
    {k' : String → Run Value} {good : Value → Prop}
    (hk : ∀ source, loader.text path = .ok source → Unnoticed file good (k source) (k' source)) :
    Unnoticed file good (Host.openFile loader room path k) (loader.openFile room path k') := by
  have hread : Unnoticed file good (Host.readFile loader path k) (loader.readFile path k') := by
    unfold Host.readFile Loader.readFile
    cases htext : loader.text path with
    | error fault => exact of_aloof (Aloof.throw fault)
    | ok source => exact hk source htext
  intro inProgress s t h hscenes
  rw [Staged.openFile_scenes] at hscenes
  rw [Staged.openFile_run, Loader.openFile_apply, Loader.openFile_apply]
  have hraise : (Run.raise room (.circularRequire path) : Run Value).Aloof good :=
    raise_aloof room _
  by_cases hs : s.loading.contains path
  · -- what is being loaded in the first state is being loaded in the second
    have ht : t.loading.contains path := by
      by_cases hpath : path = file
      · rw [hpath, List.contains_iff_mem]
        exact h.mem
      · rw [h.contains hpath, hs]
    rw [if_pos hs, if_pos ht]
    exact SameBesides.of_aloof hraise h
  · rw [if_neg hs] at hscenes ⊢
    -- the file itself is not opened, for it would be in the scene
    have hpath : path ≠ file := by
      rintro rfl
      exact hscenes _ List.mem_cons_self List.mem_cons_self
    rw [h.contains hpath, if_neg hs]
    have hbesides := (h.record (s.events.push (.loading path)) (t.events.push (.loading path))).cons
      path
    obtain ⟨outcome, s', t', hs', ht', h', hgood⟩ := hread (path :: inProgress) _ _ hbesides
      fun scene hscene => hscenes scene (List.mem_cons_of_mem _ hscene)
    rw [Staged.readFile_run] at hs'
    rw [whileLoading_result hs', whileLoading_result ht']
    exact .intro (h'.erase hpath) outcome hgood

end Unnoticed

end Run

/-- That a file is being loaded goes unnoticed in all programs that do not load it. -/
theorem Host.relates_unnoticed (loader? : Option Loader) (file : Path) :
    Relates (m := Staged) .everything loader? fun _ => Run.Unnoticed file where
  modules loader _ := Scope.everything_modules loader
  pure ha := Run.Unnoticed.of_aloof (Run.Aloof.pure ha)
  bind hx hk := hx.bind hk
  aloof hx := Run.Unnoticed.of_aloof hx
  lookup room name env _ _ := Run.Unnoticed.lookup room name env
  define name v _ _ := Run.Unnoticed.defining name v
  note expr env hx := hx.note (some (expr, env))
  openFile _ _ _ _ _ _ hk := Run.Unnoticed.openFile hk
  guardDepth hx := hx.guardDepth

end SmallScheme
