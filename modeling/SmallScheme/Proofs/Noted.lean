/-
  NOTED RUNS: runs that note down what happens on the way.

  A noted run does what a run does, and lists its notes as it goes.  A note may be anything; what is
  worth one is for the host to say (`Host.note`).  There are two such hosts: traced runs note all
  that is evaluated, and staged runs note which files are being loaded at the time.

  1. Notes.  Those of one run after another are the notes of the first, and after them the notes of
     the second, if it is begun at all (`bind_apply`, `mem_bind_iff`).  Nothing is noted where
     nothing is done, so that the laws of a monad hold.

  2. Without the notes.  `run` forgets them, and keeps to all that programs are made of: one thing
     after another (`run_bind`), runs (`MonadLift`), loading a file, and guarding a form.  So a
     program in such a host does what it does as a run, as far as its parts do (`Does`).
-/
import SmallScheme.Proofs.Host

namespace SmallScheme

/-- A run that lists notes. -/
def Noted (N α : Type) : Type := State → List N × EStateM.Result Fault State α

namespace Noted

variable {N α β : Type}

/-- Nothing is noted for a value; one run after another puts their notes in this order. -/
instance : Monad (Noted N) where
  pure a s := ([], .ok a s)
  bind x k s :=
    match x s with
    | (before, .ok a t) => (before ++ (k a t).1, (k a t).2)
    | (before, .error fault t) => (before, .error fault t)

/-- A run has no notes of its own. -/
instance : MonadLift Run (Noted N) := ⟨fun x s => ([], x s)⟩

/-- The run without its notes. -/
def run (x : Noted N α) : Run α := fun s => (x s).2

/-- Notes something down about the present state. -/
def jot (note : State → N) : Noted N Unit := fun s => ([note s], .ok () s)

/-- `Run.whileLoading`, with the notes of `x`. -/
def whileLoading (path : Path) (x : Noted N α) : Noted N α := fun s =>
  ((x { s with loading := path :: s.loading }).1, Run.whileLoading path x.run s)

/-- `Run.guardDepth`, with the notes of `x`. -/
def guardDepth (x : Noted N α) : Noted N α := fun s => ((x s).1, Run.guardDepth x.run s)

/-! ## One run after another -/

/-- The second run adds its notes to those of the first, unless the first has failed. -/
theorem bind_apply (x : Noted N α) (k : α → Noted N β) (s : State) :
    (x >>= k) s = match x s with
      | (before, .ok a t) => (before ++ (k a t).1, (k a t).2)
      | (before, .error fault t) => (before, .error fault t) := rfl

/-- Nothing after a run adds nothing to it. -/
theorem bind_done (x : Noted N α) : x >>= pure = x := by
  funext s
  rw [bind_apply]
  rcases x s with ⟨before, a | fault⟩
  · exact congrArg (·, _) (List.append_nil before)
  · rfl

/-- It does not matter in which of two parts the one in the middle is. -/
theorem bind_bind {γ : Type} (x : Noted N α) (k : α → Noted N β) (l : β → Noted N γ) :
    x >>= k >>= l = x >>= fun a => k a >>= l := by
  funext s
  simp only [bind_apply]
  rcases x s with ⟨before, a | fault⟩
  · dsimp only
    rcases k a _ with ⟨between, b | fault⟩
    · exact congrArg (·, _) (List.append_assoc before between _)
    · rfl
  · rfl

/-- The laws hold, for notes are put together like lists. -/
instance : LawfulMonad (Noted N) :=
  LawfulMonad.mk' (Noted N) bind_done (fun _ _ => rfl) bind_bind

/-- After a run that comes to a value, the rest goes on with that value. -/
theorem bind_ok {x : Noted N α} {k : α → Noted N β} {s t : State} {a : α} {before : List N}
    (h : x s = (before, .ok a t)) : (x >>= k) s = (before ++ (k a t).1, (k a t).2) := by
  rw [bind_apply, h]

/-- What comes to a value does so in two parts. -/
theorem of_bind_ok {x : Noted N α} {k : α → Noted N β} {s u : State} {b : β} {notes : List N}
    (h : (x >>= k) s = (notes, .ok b u)) :
    ∃ before a t after, x s = (before, .ok a t) ∧ k a t = (after, .ok b u) ∧
      notes = before ++ after := by
  rw [bind_apply] at h
  rcases hx : x s with ⟨before, a | fault⟩
  · rw [hx] at h
    obtain ⟨hnotes, hb⟩ := Prod.mk.inj h
    exact ⟨before, _, _, _, rfl, Prod.ext rfl hb, hnotes.symm⟩
  · rw [hx] at h
    cases (Prod.mk.inj h).2

/-- A note of one run after another is one of the first, or of the second where the first has come
    to a value. -/
theorem mem_bind_iff {x : Noted N α} {k : α → Noted N β} {s : State} {note : N} :
    note ∈ ((x >>= k) s).1 ↔
      note ∈ (x s).1 ∨ ∃ a t, x.run s = .ok a t ∧ note ∈ (k a t).1 := by
  rw [bind_apply, run]
  rcases x s with ⟨before, a | fault⟩
  · dsimp only
    rw [List.mem_append]
    refine or_congr_right ⟨fun h => ⟨_, _, rfl, h⟩, ?_⟩
    rintro ⟨_, _, heq, h⟩
    cases heq
    exact h
  · refine ⟨Or.inl, ?_⟩
    rintro (h | ⟨_, _, heq, -⟩)
    · exact h
    · cases heq

/-! ## Without the notes -/

/-- The notes do not matter to what is done. -/
theorem run_bind (x : Noted N α) (k : α → Noted N β) :
    run (x >>= k) = run x >>= fun a => run (k a) := by
  funext s
  rw [Run.bind_apply, run, run, bind_apply]
  rcases x s with ⟨before, a | fault⟩ <;> rfl

/-- The noted run does what the run does, and comes to good values. -/
structure Does (good : α → Prop) (x : Noted N α) (x' : Run α) : Prop where
  run_eq : x.run = x'
  gives : x'.Gives good

namespace Does

variable {good : α → Prop} {good' : β → Prop} {x : Noted N α} {x' : Run α}

/-- A value does what it does. -/
theorem pure {a : α} (h : good a) : Does (N := N) good (Pure.pure a) (Pure.pure a) :=
  ⟨rfl, .pure h⟩

/-- A run does what it does. -/
theorem lift (h : x'.Gives good) : Does (N := N) good (liftM x') x' := ⟨rfl, h⟩

/-- One after another does, if each of them does. -/
theorem bind {k : α → Noted N β} {k' : α → Run β} (hx : Does good x x')
    (hk : ∀ a, good a → Does good' (k a) (k' a)) : Does good' (x >>= k) (x' >>= k') := by
  refine ⟨?_, hx.gives.bind fun a ha => (hk a ha).gives⟩
  funext s
  rw [run_bind, hx.run_eq, Run.bind_apply, Run.bind_apply]
  cases hs : x' s with
  | ok a t => exact congrFun (hk a (hx.gives s a t hs)).run_eq t
  | error fault t => rfl

/-- A form that is guarded does, if the form does. -/
theorem guardDepth (h : Does good x x') : Does good x.guardDepth (Run.guardDepth x') :=
  ⟨congrArg Run.guardDepth h.run_eq, h.gives.guardDepth⟩

end Does

end Noted

end SmallScheme
