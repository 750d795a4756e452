/-
  STAGED RUNS know which files they are loading.

  A staged run does what a run does.  Besides, it is told from outside which files are being loaded:
  whoever loads a file tells so whatever runs on behalf of that file, and nothing else.  And it
  shows its scenes: the moments at which an expression is about to be evaluated or a file about to
  be read, each with the files being loaded and with the state of that moment.

  So a staged run is a noted run, with scenes for its notes, that reads the files being loaded from
  its surroundings.  All that is said of noted runs is there for it, file by file.

  What a state itself says about files being loaded is a list that the loader keeps, adds to and
  takes from.  The scenes of a staged run show whether it is kept right: in the module on circular
  loading the two are compared, scene by scene.
-/
import SmallScheme.Proofs.Noted

namespace SmallScheme

/-- A moment of a run. -/
structure Scene where
  /-- What is about to be evaluated; nothing, if a file is about to be read. -/
  expr? : Option Value
  /-- The files that are being loaded, the innermost first. -/
  inProgress : List Path
  state : State

/-- The files being loaded of which the text has been read. -/
def Scene.entered (scene : Scene) : List Path :=
  match scene.expr? with
  | some _ => scene.inProgress
  | none => scene.inProgress.tail

/-- A run that is told which files are being loaded, and notes its scenes. -/
def Staged (α : Type) : Type := List Path → Noted Scene α

namespace Staged

variable {α β : Type}

/-- What comes after a run is told the same. -/
instance : Monad Staged where
  pure a _ := pure a
  bind x k inProgress := x inProgress >>= fun a => k a inProgress

/-- A run has no scenes of its own, and need not be told anything. -/
instance : MonadLift Run Staged := ⟨fun x _ => liftM x⟩

/-- The run without its scenes. -/
def run (x : Staged α) (inProgress : List Path) : Run α := Noted.run (x inProgress)

/-- Whoever loads a file tells so what is done while it is being loaded. -/
instance : Host Staged where
  note what? inProgress := Noted.jot fun s => ⟨what?.map Prod.fst, inProgress, s⟩
  whileLoading path x inProgress := Noted.whileLoading path (x (path :: inProgress))
  guardDepth x inProgress := Noted.guardDepth (x inProgress)

/-- Told which files are being loaded, a staged run is a noted one. -/
theorem bind_eq (x : Staged α) (k : α → Staged β) (inProgress : List Path) :
    (x >>= k) inProgress = x inProgress >>= fun a => k a inProgress := rfl

/-- The laws hold for whatever files are being loaded. -/
instance : LawfulMonad Staged :=
  LawfulMonad.mk' Staged (fun x => funext fun inProgress => bind_pure (x inProgress))
    (fun _ _ => rfl) (fun x k l => funext fun inProgress =>
      bind_assoc (x inProgress) (fun a => k a inProgress) fun b => l b inProgress)

/-- A scene of one run after another is a scene of the first, or of the second where the first has
    come to a value. -/
theorem mem_bind_iff {x : Staged α} {k : α → Staged β} {inProgress : List Path} {s : State}
    {scene : Scene} : scene ∈ ((x >>= k) inProgress s).1 ↔
      scene ∈ (x inProgress s).1 ∨ ∃ a t, x.run inProgress s = .ok a t ∧
        scene ∈ (k a inProgress t).1 := by
  rw [bind_eq]
  exact Noted.mem_bind_iff

/-! ## Without the scenes -/

/-- Without the scenes a file is read as it was. -/
theorem readFile_run (loader : Loader) (file : Path) (k : String → Staged Value)
    (inProgress : List Path) :
    (Host.readFile loader file k).run inProgress
      = loader.readFile file fun source => (k source).run inProgress := by
  unfold Host.readFile Loader.readFile
  cases loader.text file <;> rfl

/-- What opening a file does, without the scenes. -/
theorem openFile_run (loader : Loader) (room : Nat) (file : Path) (k : String → Staged Value)
    (inProgress : List Path) :
    (Host.openFile loader room file k).run inProgress
      = loader.openFile room file fun source => (k source).run (file :: inProgress) := by
  funext s
  rw [Loader.openFile_apply, ← readFile_run]
  show run (if s.loading.contains file then _ else _ : Staged Value) inProgress s = _
  split <;> rfl

/-- The scenes of opening a file that is not being loaded: first it is about to be read, and then
    there are those of what is done with its text. -/
theorem openFile_scenes (loader : Loader) (room : Nat) (file : Path) (k : String → Staged Value)
    (inProgress : List Path) (s : State) :
    (Host.openFile loader room file k inProgress s).1
      = if s.loading.contains file then []
        else
          let t := { s with
            events := s.events.push (.loading file)
            loading := file :: s.loading }
          ⟨none, file :: inProgress, t⟩ ::
            (Host.readFile loader file k (file :: inProgress) t).1 := by
  show ((if s.loading.contains file then _ else _ : Staged Value) inProgress s).1 = _
  split <;> rfl

/-- The staged run does what the run does, whatever it is told, and comes to good values. -/
structure Does (good : α → Prop) (x : Staged α) (x' : Run α) : Prop where
  run_eq : ∀ inProgress, x.run inProgress = x'
  gives : x'.Gives good

/-- It is so as a noted run. -/
theorem Does.noted {good : α → Prop} {x : Staged α} {x' : Run α} (h : Does good x x')
    (inProgress : List Path) : Noted.Does good (x inProgress) x' :=
  ⟨h.run_eq inProgress, h.gives⟩

/-- What is so as a noted run, whatever it is told, is so. -/
theorem Does.of_noted {good : α → Prop} {x : Staged α} {x' : Run α}
    (h : ∀ inProgress, Noted.Does good (x inProgress) x') : Does good x x' :=
  ⟨fun inProgress => (h inProgress).run_eq, (h []).gives⟩

/-- All programs do as staged runs what they do as runs. -/
theorem relates_does (loader? : Option Loader) :
    Host.Relates (m := Staged) .everything loader? fun _ => Does where
  modules loader _ := Scope.everything_modules loader
  pure ha := .of_noted fun _ => .pure ha
  bind hx hk := .of_noted fun inProgress =>
    (hx.noted inProgress).bind fun a ha => (hk a ha).noted inProgress
  aloof hx := .of_noted fun _ => .lift hx.gives
  lookup _ _ _ _ _ := .of_noted fun _ => .lift fun _ v _ _ => Scope.everything_data v
  define _ _ _ _ := .of_noted fun _ => .lift fun _ v _ _ => Scope.everything_data v
  note _ _ hx := ⟨fun inProgress => hx.run_eq inProgress, hx.gives⟩
  openFile := by
    intro loader room path k k' _ hk
    refine ⟨fun inProgress => ?_, fun _ v _ _ => Scope.everything_data v⟩
    rw [openFile_run, Loader.openFile, Loader.openFile,
      Loader.readFile_congr fun source htext => (hk source htext).run_eq _]
  guardDepth hx := .of_noted fun inProgress => (hx.noted inProgress).guardDepth

end Staged

end SmallScheme
