/-
  CIRCULAR LOADING is always caught, and what is being loaded is always kept right.

  A file that is being loaded can be asked for again from anywhere: from the forms of a module
  that it requires, or from a closure that is called much later; and the loading can end in many
  ways.  All that the loader has to go by is a list in the state.  `Loader.Oversees` says that this
  list is right: in every scene it holds just the files being loaded, each of them once; and in the
  end it is what it was before.

  1. **Places.**  Paths are compared in the form that the loader writes them, and all spellings
     that lead to one place are written in one way (`Loader.absolute_of_walk`).

  2. **Scenes** (`Scene.Guarded`).  Where the list is right, the files in it are different files of
     the tree, so they nest no deeper than there are files (`Scene.Guarded.length_readable_le`).

  3. **Restoring** (`Run.Restores`): however a run ends, with a value, a fault or the quit signal,
     the same files are being loaded as before.

  4. **Overseen runs.**  Evaluating, loading and all that an interpreter does is overseen
     (`Host.relates_oversees`): the host of scenes is compared with runs, and each of the
     operations of a program keeps the list right.

  So the loader refuses a file if and only if it is being loaded, under whatever spelling of its
  path, and it refuses it before anything else is done (`circular_loading_caught`).
-/
import Mathlib.Data.List.Dedup
import Mathlib.Data.List.Perm.Subperm
import SmallScheme.Proofs.Reachable
import SmallScheme.Proofs.Staged

namespace SmallScheme

/-! ## Places -/

namespace FileTree

/-- Where `walk` gets, `simplify` gets as well. -/
theorem walk_eq_simplify {tree : FileTree} {place place' parts : List String}
    (h : tree.walk place parts = .ok place') : place' = simplify place parts := by
  induction parts generalizing place with
  | nil =>
    cases h
    rfl
  | cons part parts ih =>
    rw [walk] at h
    split at h
    · split at h
      · cases h
      · exact ih h
    · cases h
    · cases h

/-- The place that is simplified has no steps back, if the start has none. -/
theorem dots_notMem_simplify {place : List String} (h : ".." ∉ place) (parts : List String) :
    ".." ∉ simplify place parts := by
  induction parts generalizing place with
  | nil => exact h
  | cons part parts ih =>
    rw [simplify]
    refine ih ?_
    split
    · exact fun hmem => h (List.dropLast_subset _ hmem)
    · next hpart =>
      rw [List.mem_append, List.mem_singleton]
      rintro (hmem | heq)
      · exact h hmem
      · exact hpart heq.symm

/-- Without steps back, the parts are the place. -/
theorem simplify_of_dots_notMem {place parts : List String} (h : ".." ∉ parts) :
    simplify place parts = place ++ parts := by
  induction parts generalizing place with
  | nil => rw [simplify, List.append_nil]
  | cons part parts ih =>
    have hpart : part ≠ ".." := fun heq => h (heq ▸ List.mem_cons_self)
    rw [simplify, if_neg hpart, ih fun hmem => h (List.mem_cons_of_mem _ hmem),
      List.append_assoc]
    rfl

/-- The number of files. -/
def fileCount (tree : FileTree) : Nat := (tree.files.map Prod.fst).dedup.length

/-- A file that is at a place is one of the tree's files. -/
theorem mem_files_of_node {tree : FileTree} {place : List String} {bytes : List UInt8}
    (h : tree.node? place = some (.file bytes)) : place ∈ tree.files.map Prod.fst := by
  unfold node? at h
  split at h
  · next hlookup =>
    obtain ⟨before, after, heq, -⟩ := List.lookup_eq_some_iff.mp hlookup
    rw [heq, List.map_append, List.map_cons]
    exact List.mem_append_right _ List.mem_cons_self
  · split at h <;> cases h

/-- What is found is at the place where the parts lead. -/
theorem place_of_find {tree : FileTree} {place parts : List String} {node : Node}
    (h : tree.find place parts = .ok node) :
    ∃ place', tree.walk place parts = .ok place' ∧ tree.node? place' = some node := by
  unfold find at h
  split at h
  · cases h
  · next place' hwalk =>
    split at h <;> cases h
    exact ⟨place', hwalk, by assumption⟩

end FileTree

namespace Loader

variable {loader : Loader}

/-- What is found is found from where the path starts. -/
theorem find_eq_ok {path : Path} {node : FileTree.Node} (h : loader.find path = .ok node) :
    loader.tree.find (loader.start path) path.parts = .ok node := by
  unfold find at h
  split at h
  · cases h
  · exact h

/-- Can the file that a path leads to be read? -/
def isReadable (loader : Loader) (path : Path) : Bool :=
  match loader.bytes path with
  | .ok _ => true
  | .error _ => false

/-- The path is that of a file as the loader writes it, and the file can be read. -/
structure Loadable (loader : Loader) (path : Path) : Prop where
  resolved : ∃ spelling, path = loader.absolute spelling
  readable : loader.isReadable path = true

/-- A file with a text can be read. -/
theorem isReadable_of_text {path : Path} {source : String} (h : loader.text path = .ok source) :
    loader.isReadable path = true := by
  unfold text at h
  unfold isReadable
  cases hbytes : loader.bytes path with
  | ok bytes => rfl
  | error fault =>
    rw [hbytes] at h
    cases h

/-- What can be read is a file. -/
theorem find_of_isReadable {path : Path} (h : loader.isReadable path = true) :
    ∃ bytes, loader.find path = .ok (.file bytes) := by
  unfold isReadable Loader.bytes at h
  cases hfind : loader.find path with
  | error why =>
    rw [hfind] at h
    cases h
  | ok node =>
    cases node with
    | file bytes => exact ⟨bytes, rfl⟩
    | folder =>
      rw [hfind] at h
      cases h

/-- All spellings that lead to one place are one absolute path. -/
theorem absolute_of_walk {path : Path} {place : List String}
    (h : loader.tree.walk (loader.start path) path.parts = .ok place) :
    loader.absolute path = ⟨.root, place⟩ := by
  rw [absolute, FileTree.walk_eq_simplify h]

/-- What can be loaded is a file of the tree. -/
theorem Loadable.mem_files {path : Path} (h : loader.Loadable path)
    (hfolder : ".." ∉ loader.folder) :
    path.anchor = .root ∧ path.parts ∈ loader.tree.files.map Prod.fst := by
  obtain ⟨⟨spelling, rfl⟩, hreadable⟩ := h
  refine ⟨rfl, ?_⟩
  have hdots : ".." ∉ (loader.absolute spelling).parts := by
    refine FileTree.dots_notMem_simplify ?_ _
    unfold start
    split
    · exact List.not_mem_nil
    · exact hfolder
  -- the file has been found at the place that the absolute path leads to, which is its own parts
  obtain ⟨bytes, hfind⟩ := find_of_isReadable hreadable
  obtain ⟨place, hwalk, hnode⟩ := FileTree.place_of_find (find_eq_ok hfind)
  rw [FileTree.walk_eq_simplify hwalk, FileTree.simplify_of_dots_notMem hdots] at hnode
  exact FileTree.mem_files_of_node hnode

end Loader

/-! ## Scenes -/

/-- In the scene, the loader's list is right. -/
structure Scene.Guarded (loader : Loader) (scene : Scene) : Prop where
  /-- The list holds just the files being loaded, -/
  exact : scene.state.loading = scene.inProgress
  /-- each of them once, -/
  distinct : scene.inProgress.Nodup
  /-- by its absolute path; -/
  resolved : ∀ path ∈ scene.inProgress, ∃ spelling, path = loader.absolute spelling
  /-- and those files that the scene is inside of can be read. -/
  entered : ∀ path ∈ scene.entered, loader.isReadable path = true

/-- Loading nests no deeper than there are files. -/
theorem Scene.Guarded.length_readable_le {loader : Loader} {scene : Scene}
    (h : scene.Guarded loader) (hfolder : ".." ∉ loader.folder) :
    (scene.inProgress.filter loader.isReadable).length ≤ loader.tree.fileCount := by
  have hloadable : ∀ path ∈ scene.inProgress.filter loader.isReadable, loader.Loadable path := by
    intro path hpath
    obtain ⟨hmem, hreadable⟩ := List.mem_filter.mp hpath
    exact ⟨h.resolved path hmem, hreadable⟩
  have hdistinct : ((scene.inProgress.filter loader.isReadable).map Path.parts).Nodup := by
    -- paths of files differ in their parts, for they all start from the root
    refine List.Nodup.map_on ?_ (h.distinct.filter _)
    rintro ⟨anchor, parts⟩ hp ⟨anchor', parts'⟩ hq heq
    obtain ⟨rfl, -⟩ := (hloadable _ hp).mem_files hfolder
    obtain ⟨rfl, -⟩ := (hloadable _ hq).mem_files hfolder
    exact congrArg (Path.mk .root) heq
  have hfiles : (scene.inProgress.filter loader.isReadable).map Path.parts
      ⊆ (loader.tree.files.map Prod.fst).dedup := by
    intro parts hparts
    obtain ⟨path, hpath, rfl⟩ := List.mem_map.mp hparts
    exact List.mem_dedup.mpr ((hloadable path hpath).mem_files hfolder).2
  have hle := (hdistinct.subperm hfiles).length_le
  rw [List.length_map] at hle
  exact hle

/-! ## Restoring the list -/

namespace Run

variable {α β : Type} {good : α → Prop}

/-- However the run ends, the same files are being loaded as before. -/
def Restores (x : Run α) : Prop := ∀ s, (x.stateAfter s).loading = s.loading

/-- The state after a run that comes to a value. -/
theorem stateAfter_ok {x : Run α} {s t : State} {a : α} (h : x s = .ok a t) :
    x.stateAfter s = t := by
  rw [stateAfter, h]

/-- The state after a run, whatever it comes to. -/
theorem stateAfter_result {x : Run α} {s t : State} {outcome : Except Fault α}
    (h : x s = result outcome t) : x.stateAfter s = t := by
  rw [stateAfter, h]
  cases outcome <;> rfl

/-- Aloof runs do not touch the list. -/
theorem Restores.of_aloof {x : Run α} (h : x.Aloof good) : Restores x := by
  intro s
  obtain ⟨outcome, text, new, made, -, hs⟩ := h s.made
  rw [stateAfter, hs s rfl]
  cases outcome <;> rfl

/-- One run after the other: the second one begins with the list as it was. -/
theorem Restores.bind {x : Run α} {k : α → Run β} (hx : Restores x) (hgives : x.Gives good)
    (hk : ∀ a, good a → Restores (k a)) : Restores (x >>= k) := by
  intro s
  have h := hx s
  unfold stateAfter at h ⊢
  rw [bind_apply]
  cases hs : x s with
  | ok a t =>
    rw [hs] at h
    exact (hk a (hgives s a t hs) t).trans h
  | error fault t =>
    rw [hs] at h
    exact h

/-- The guard changes the outcome only. -/
theorem Restores.guardDepth {x : Run α} (hx : Restores x) : Restores (guardDepth x) := by
  intro s
  have h := hx s
  unfold stateAfter at h ⊢
  rw [guardDepth_apply]
  cases hs : x s with
  | ok a t =>
    rw [hs] at h
    exact h
  | error fault t =>
    rw [hs] at h
    cases fault <;> exact h

/-- What `x` leaves of the list is the file in front of what there was, and that is taken off. -/
theorem Restores.whileLoading {x : Run α} (hx : Restores x) (path : Path) :
    Restores (whileLoading path x) := by
  intro s
  have h := hx { s with loading := path :: s.loading }
  unfold stateAfter at h ⊢
  unfold Run.whileLoading
  cases hs : x { s with loading := path :: s.loading } with
  | ok a t =>
    rw [hs] at h
    replace h : t.loading = path :: s.loading := h
    show t.loading.erase path = s.loading
    rw [h, List.erase_cons_head]
  | error fault t =>
    rw [hs] at h
    replace h : t.loading = path :: s.loading := h
    show t.loading.erase path = s.loading
    rw [h, List.erase_cons_head]

/-- Looking up does not touch the list. -/
theorem Restores.lookup (room : Nat) (name : String) (env : Env) :
    Restores (Eval.lookup room name env) := by
  intro s
  rw [stateAfter, Eval.lookup_apply]
  cases env.lookup? name with
  | some v => rfl
  | none =>
    cases s.store.get? name with
    | some v => rfl
    | none =>
      have hraise : (Run.raise room (.unbound name) : Run Value).Aloof fun _ => True :=
        raise_aloof room _
      exact Restores.of_aloof hraise s

/-- Nor does defining. -/
theorem Restores.defining (name : String) (v : Value) : Restores (Eval.defining name v) := by
  intro s
  rw [stateAfter, Eval.defining_apply]

/-- A file is opened and closed again, or refused. -/
theorem Restores.openFile {loader : Loader} {room : Nat} {file : Path} {k : String → Run Value}
    (hk : ∀ source, loader.text file = .ok source → Restores (k source)) :
    Restores (loader.openFile room file k) := by
  have hread : Restores (loader.readFile file k) := by
    unfold Loader.readFile
    cases htext : loader.text file with
    | error fault =>
      have hthrow : (throw fault : Run Value).Aloof fun _ => True := Aloof.throw fault
      exact Restores.of_aloof hthrow
    | ok source => exact hk source htext
  intro s
  rw [stateAfter, Loader.openFile_apply]
  -- a file that is being loaded is refused at once; any other one is entered and left again
  by_cases hcontains : s.loading.contains file
  · rw [if_pos hcontains]
    have hraise : (Run.raise room (.circularRequire file) : Run Value).Aloof fun _ => True :=
      raise_aloof room _
    exact Restores.of_aloof hraise s
  · rw [if_neg hcontains]
    exact Restores.whileLoading hread file { s with events := s.events.push (.loading file) }

end Run

/-! ## Overseen runs -/

/-- The staged run does what the run does.  In all its scenes the loader's list is right, if it
    was before; and however the run ends, the list is then what it was before. -/
structure Loader.Oversees {α : Type} (loader : Loader) (x : Staged α) (x' : Run α) : Prop where
  run_eq : ∀ inProgress, x.run inProgress = x'
  restores : ∀ s, (x'.stateAfter s).loading = s.loading
  scenes : ∀ s, s.loading.Nodup → (∀ path ∈ s.loading, loader.Loadable path) →
    ∀ scene ∈ (x s.loading s).1, scene.Guarded loader

namespace Loader.Oversees

variable {α β : Type} {good : α → Prop} {loader : Loader}

/-- One overseen run after the other. -/
theorem bind {x : Staged α} {x' : Run α} {k : α → Staged β} {k' : α → Run β}
    (hx : loader.Oversees x x') (hgives : x'.Gives good)
    (hrun : ∀ inProgress, (x >>= k).run inProgress = x' >>= k')
    (hk : ∀ a, good a → loader.Oversees (k a) (k' a)) :
    loader.Oversees (x >>= k) (x' >>= k') := by
  refine ⟨hrun, Run.Restores.bind hx.restores hgives fun a ha => (hk a ha).restores, ?_⟩
  intro s hdistinct hloadable scene hscene
  rcases Staged.mem_bind_iff.mp hscene with hscene | ⟨a, t, hat, hscene⟩
  · exact hx.scenes s hdistinct hloadable scene hscene
  · -- the list is again what it was when the second run begins
    rw [hx.run_eq] at hat
    have hloading : t.loading = s.loading := by
      rw [← hx.restores s, Run.stateAfter_ok hat]
    rw [← hloading] at hdistinct hloadable hscene
    exact (hk a (hgives s a t hat)).scenes t hdistinct hloadable scene hscene

/-- A run without scenes that restores the list. -/
theorem of_run {x : Run α} (h : x.Restores) : loader.Oversees (liftM x) x :=
  ⟨fun _ => rfl, h, fun _ _ _ _ hscene => (nomatch hscene)⟩

/-- A scene of an expression: its list is the one it was begun with. -/
theorem note {x : Staged α} {x' : Run α} (expr : Value) (env : Env)
    (h : loader.Oversees x x') :
    loader.Oversees (Host.note (some (expr, env)) >>= fun _ => x) x' := by
  refine ⟨fun inProgress => h.run_eq inProgress, h.restores, ?_⟩
  intro s hdistinct hloadable scene hscene
  rcases List.mem_cons.mp hscene with rfl | hscene
  · exact ⟨rfl, hdistinct, fun path hpath => (hloadable path hpath).resolved,
      fun path hpath => (hloadable path hpath).readable⟩
  · exact h.scenes s hdistinct hloadable scene hscene

/-- The guard adds no scenes. -/
theorem guardDepth {x : Staged α} {x' : Run α} (h : loader.Oversees x x') :
    loader.Oversees (Host.guardDepth x) (Run.guardDepth x') :=
  ⟨fun inProgress => congrArg Run.guardDepth (h.run_eq inProgress),
    Run.Restores.guardDepth h.restores, h.scenes⟩

/-- While a file is open it is the first in the list.  It was not there before, or it would have
    been refused; so each file is there once. -/
theorem openFile {room : Nat} {path : Path} {k : String → Staged Value} {k' : String → Run Value}
    (hrun : ∀ inProgress, (Host.openFile loader room (loader.absolute path) k).run inProgress
      = loader.openFile room (loader.absolute path) k')
    (hk : ∀ source, loader.text (loader.absolute path) = .ok source →
      loader.Oversees (k source) (k' source)) :
    loader.Oversees (Host.openFile loader room (loader.absolute path) k)
      (loader.openFile room (loader.absolute path) k') := by
  refine ⟨hrun, Run.Restores.openFile fun source hsource => (hk source hsource).restores, ?_⟩
  intro s hdistinct hloadable scene hscene
  rw [Staged.openFile_scenes] at hscene
  split at hscene
  -- a file that is refused has no scene
  · cases hscene
  · next hcontains =>
    have hnew : loader.absolute path ∉ s.loading := by simpa using hcontains
    have hdistinct' : (loader.absolute path :: s.loading).Nodup :=
      List.nodup_cons.mpr ⟨hnew, hdistinct⟩
    -- the first scene is the reading of the file, which is in the list but has not been entered yet
    rcases List.mem_cons.mp hscene with rfl | hscene
    · refine ⟨rfl, hdistinct', List.forall_mem_cons.mpr ⟨⟨path, rfl⟩, ?_⟩,
        fun file hfile => (hloadable file hfile).readable⟩
      exact fun file hfile => (hloadable file hfile).resolved
    · unfold Host.readFile at hscene
      cases htext : loader.text (loader.absolute path) with
      | error fault =>
        rw [htext] at hscene
        cases hscene
      | ok source =>
        -- now that the file has been read, it counts among those that can be loaded
        rw [htext] at hscene
        have hloadable' : ∀ file ∈ loader.absolute path :: s.loading, loader.Loadable file :=
          List.forall_mem_cons.mpr ⟨⟨⟨path, rfl⟩, isReadable_of_text htext⟩, hloadable⟩
        exact (hk source htext).scenes
          { s with
            events := s.events.push (.loading (loader.absolute path))
            loading := loader.absolute path :: s.loading }
          hdistinct' hloadable' scene hscene

end Loader.Oversees

/-- All programs are overseen. -/
theorem Host.relates_oversees (loader : Loader) :
    Relates (m := Staged) .everything (some loader)
      fun _ good x x' => loader.Oversees x x' ∧ x'.Gives good where
  modules loader _ := Scope.everything_modules loader
  pure ha := ⟨.of_run (Run.Restores.of_aloof (Run.Aloof.pure ha)), .pure ha⟩
  -- that the scenes are those of the plain run is known of every step already
  bind hx hk := by
    have hdoes := (Staged.relates_does (some loader)).bind ⟨hx.1.run_eq, hx.2⟩
      fun a ha => ⟨(hk a ha).1.run_eq, (hk a ha).2⟩
    exact ⟨hx.1.bind hx.2 hdoes.run_eq fun a ha => (hk a ha).1, hdoes.gives⟩
  aloof hx := ⟨.of_run (Run.Restores.of_aloof hx), hx.gives⟩
  lookup room name env _ _ :=
    ⟨.of_run (Run.Restores.lookup room name env), fun _ v _ _ => Scope.everything_data v⟩
  define name v _ _ :=
    ⟨.of_run (Run.Restores.defining name v), fun _ v _ _ => Scope.everything_data v⟩
  note expr env hx := ⟨hx.1.note expr env, hx.2⟩
  openFile := by
    rintro loader' room path k k' ⟨⟩ hk
    have hdoes := (Staged.relates_does (some loader)).openFile loader room path k k' rfl
      fun source hsource => ⟨(hk source hsource).1.run_eq, (hk source hsource).2⟩
    exact ⟨.openFile hdoes.run_eq fun source hsource => (hk source hsource).1, hdoes.gives⟩
  guardDepth hx := ⟨hx.1.guardDepth, hx.2.guardDepth⟩

/-! ## Refusing and entering -/

/-- Loading the path is to read its file and to evaluate the text, while the file is in the list. -/
def Loader.Enters (loader : Loader) (ev : Evaluator) (path : Path) (s : State) : Prop :=
  loader.loadPath ev path s
    = Run.whileLoading (loader.absolute path)
        (loader.readFile (loader.absolute path) fun source =>
          runScript ev (.ofText (ev.room - Room.moduleText) source))
        { s with events := s.events.push (.loading (loader.absolute path)) }

/-- Circular loading is always caught.  Evaluating any expression, loading any file, and all that
    an interpreter does, is overseen: from the first scene to the last the loader's list holds just
    the files being loaded, each once, and in the end it is what it was.  Files nest no deeper than
    there are files.  A file in the list is refused, with the state left as it is, and any other is
    entered; spellings that lead to one place are one entry of the list.  So whatever way the
    loading of a file has ended, any file that could be loaded before can be loaded again. -/
theorem circular_loading_caught (loader : Loader) :
    (∀ steps room below expr env, loader.Oversees
      (Host.evaluate (some loader) steps room below expr env)
      (Eval.evaluate (some loader) steps room below expr env)) ∧
    (∀ steps room path, loader.Oversees
      (Host.loadPath loader (Host.within (some loader) steps room) path)
      (loader.loadPath (Eval.within (some loader) steps room) path)) ∧
    (∀ room halted source, loader.Oversees (Host.eval ⟨loader, room, halted⟩ source)
      (Interpreter.eval ⟨loader, room, halted⟩ source)) ∧
    (∀ room halted path, loader.Oversees (Host.loadFile ⟨loader, room, halted⟩ path)
      (Interpreter.loadFile ⟨loader, room, halted⟩ path)) ∧
    (∀ room prelude, loader.Oversees (Host.start loader room prelude)
      (Interpreter.start loader room prelude)) ∧
    (∀ scene : Scene, scene.Guarded loader → ".." ∉ loader.folder →
      (scene.inProgress.filter loader.isReadable).length ≤ loader.tree.fileCount) ∧
    (∀ ev path s, path.hasNull = false → loader.absolute path ∈ s.loading →
      loader.loadPath ev path s
        = .error (.error (.circularRequire (loader.absolute path))) s) ∧
    (∀ ev path s, path.hasNull = false → loader.absolute path ∉ s.loading →
      loader.Enters ev path s) ∧
    (∀ path place, loader.tree.walk (loader.start path) path.parts = .ok place →
      loader.absolute path = ⟨.root, place⟩) ∧
    ∀ steps room ev path path' s, path'.hasNull = false → loader.absolute path' ∉ s.loading →
      loader.Enters ev path'
        ((loader.loadPath (Eval.within (some loader) steps room) path).stateAfter s) := by
  have h := Host.relates_oversees loader
  -- no form is excluded, so the modules are no exception
  have hcode : ∀ (path : Path) source, loader.text (loader.absolute path) = .ok source →
      ∀ room, ∀ form ∈ (Script.ofText room source).forms, Scope.everything.Code form :=
    fun _ _ _ _ form _ => Scope.everything_code form
  have hload : ∀ steps room path, loader.Oversees
      (Host.loadPath loader (Host.within (some loader) steps room) path)
      (loader.loadPath (Eval.within (some loader) steps room) path) :=
    fun steps room path => (h.loadPath (h.within steps room) rfl (hcode path)).1
  refine ⟨fun steps room below expr env => ?_, hload, fun room halted source => ?_,
    fun room halted path => ?_, fun room prelude => ?_,
    fun scene hscene hfolder => hscene.length_readable_le hfolder,
    fun ev path s hnull hmem => Loader.loadPath_of_loading ev hnull hmem,
    fun ev path s hnull hmem => Loader.loadPath_of_free ev hnull hmem,
    fun path place hwalk => Loader.absolute_of_walk hwalk, ?_⟩
  · exact (h.evaluate steps room below (Scope.everything_body expr) (Scope.everything_env env)).1
  · exact (Host.Relates.eval (i := ⟨loader, room, halted⟩) h
      fun form _ => Scope.everything_code form).1
  · exact (Host.Relates.loadFile (i := ⟨loader, room, halted⟩) h (hcode path)).1
  · exact (h.start room fun _ _ => trivial).1
  · intro steps room ev path path' s hnull hmem
    refine Loader.loadPath_of_free ev hnull ?_
    -- after the first load, however it ended, the loading set is what it was
    rw [(hload steps room path).restores s]
    exact hmem

/-- A tree with a folder `/lib` and a file `/a.scm`, in which is `(require "a")`; modules are
    looked for at the root, and relative paths are seen from `/lib`. -/
def Loader.withItself : Loader :=
  ⟨[⟨.root, []⟩], ⟨[["lib"]], [(["a.scm"],
    [40, 114, 101, 113, 117, 105, 114, 101, 32, 34, 97, 34, 41])]⟩, ["lib"]⟩

/-- The file that requires itself is entered and nests no deeper; then it is refused as `../a.scm`;
    and afterwards it is entered again. -/
theorem circular_loading_caught_itself :
    (∀ scene ∈ ((Host.loadPath .withItself (Host.within (some .withItself) 100 100)
        ⟨.relative, ["..", "a.scm"]⟩ : Staged Value) [] State.initial).1,
      scene.Guarded .withItself ∧
        (scene.inProgress.filter Loader.withItself.isReadable).length ≤ 1) ∧
    Loader.withItself.loadPath (Eval.within (some .withItself) 100 100)
      ⟨.relative, ["..", "a.scm"]⟩ { State.initial with loading := [⟨.root, ["a.scm"]⟩] }
        = .error (.error (.circularRequire ⟨.root, ["a.scm"]⟩))
          { State.initial with loading := [⟨.root, ["a.scm"]⟩] } ∧
    Loader.withItself.Enters (Eval.within (some .withItself) 100 100)
      ⟨.relative, ["..", "a.scm"]⟩ State.initial ∧
    Loader.withItself.absolute ⟨.relative, ["..", "a.scm"]⟩ = ⟨.root, ["a.scm"]⟩ ∧
    Loader.withItself.Enters (Eval.within (some .withItself) 100 100)
      ⟨.root, ["a.scm"]⟩
      ((Loader.withItself.loadPath (Eval.within (some .withItself) 100 100)
        ⟨.relative, ["..", "a.scm"]⟩).stateAfter State.initial) := by
  obtain ⟨-, hload, -, -, -, hdepth, hrefused, hentered, hspelled, hagain⟩ :=
    circular_loading_caught .withItself
  refine ⟨fun scene hscene => ?_, ?_, ?_, ?_, ?_⟩
  · have hguarded := (hload 100 100 _).scenes State.initial List.nodup_nil
      (fun _ hmem => nomatch hmem) scene hscene
    exact ⟨hguarded, hdepth scene hguarded (by decide)⟩
  · exact hrefused _ _ _ rfl List.mem_cons_self
  · exact hentered _ _ _ rfl List.not_mem_nil
  · exact hspelled _ ["a.scm"] rfl
  · exact hagain 100 100 _ _ _ _ rfl List.not_mem_nil

end SmallScheme
