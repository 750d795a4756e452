/-
  SEVERAL FILES are run as if their texts stood in one.

  The program loads its files one after the other, up to the first that quits or fails.  Every file
  has a loop over forms of its own, and while it runs, that file is being loaded.  Neither matters.

  1. **The course of forms** (`Script.Course`): a list of forms is evaluated up to its end or to
     the first form that quits or fails, and nothing after it.  Courses are put together
     (`append`, `append_of_stops`), and there is only one from each state (`unique`).

  2. **Scenes without certain files** (`Staged.Avoids`, `LeavesAlone`): the result is about texts
     none of which loads one of the files again.  Elsewhere it would fail, since a file is refused
     while it is being loaded.

  3. **A file** (`Interpreter.loadFile_course`).  While it is loaded, it is in the list of those
     that are.  By `SmallScheme.Proofs.Unnoticed` this changes nothing for what leaves it alone, so
     the file takes the course of its forms with no file being loaded at all.

  4. **All files** (`CommandLine.runFiles_concludes`), by induction.  The forms of the joined text
     are those of the first file and then of the others; where the reader stops in the first file,
     it stops there in the joined text.

  5. **The program** (`CommandLine.several_files_run_as_one`): the arguments, the report on the
     error stream and the status.  A single file with all the texts is a case of the same.

  The course goes on in the states of a run that loads none of the files, so the states of the
  program are the same but for what is on record (`State.SameIdle`).
-/
import SmallScheme.CommandLine
import SmallScheme.Proofs.Circularity
import SmallScheme.Proofs.JoinedText
import SmallScheme.Proofs.Unnoticed

namespace SmallScheme

/-! ## The course of forms -/

/-- How the forms of a text end. -/
inductive Script.Ending where
  | finished
  | quit
  | failed (fault : Fault)

/-- What the loader comes to in the end. -/
def Script.Ending.outcome : Ending → Except Fault Value
  | finished => .ok .unspecified
  | quit => .ok .quit
  | failed fault => .error fault

/-- Lets a form of a file in and evaluates it. -/
def Loader.runForm (ev : Evaluator) (form : Value) : Run Value := do
  let form ← Run.letIn form
  ev.run Room.moduleForm form .empty

/-- What happens when forms are evaluated one after the other: all of them are, or they are up to
    the first that quits or fails, and nothing after it.  After the last form the reader may be
    stopped by a fault. -/
inductive Script.Course (ev : Evaluator) (fault? : Option Fault) :
    List Value → State → Ending → State → Prop where
  | finished (s : State) : fault? = none → Course ev fault? [] s .finished s
  | stopped (s : State) {fault : Fault} : fault? = some fault →
      Course ev fault? [] s (.failed fault) s
  | quit {form : Value} (forms : List Value) {s t : State} :
    Loader.runForm ev form s = .ok .quit t → Course ev fault? (form :: forms) s .quit t
  | failed {form : Value} (forms : List Value) {s t : State} {fault : Fault} :
    Loader.runForm ev form s = .error fault t →
      Course ev fault? (form :: forms) s (.failed fault) t
  | next {form v : Value} {forms : List Value} {s t u : State} {ending : Ending} :
    Loader.runForm ev form s = .ok v t → v ≠ .quit → Course ev fault? forms t ending u →
      Course ev fault? (form :: forms) s ending u

namespace Script.Course

variable {ev : Evaluator} {fault? : Option Fault} {forms more : List Value} {s t u : State}

/-- The loader's loop over a text, by its first form. -/
theorem runScript_cons (form : Value) (rest : Tokens) :
    Loader.runScript ev ⟨form :: forms, fault?, rest⟩ = Loader.runForm ev form >>= fun v =>
      match v with
      | .quit => pure .quit
      | _ => Loader.runScript ev ⟨forms, fault?, rest⟩ := by
  rw [Loader.runForm]
  show (Run.letIn form >>= _ : Run Bool) >>= _ = (Run.letIn form >>= _) >>= _
  simp only [bind_assoc]
  congr 1
  funext form
  congr 1
  funext v
  cases v <;> rfl

/-- The loader's loop over a text takes a course. -/
theorem exists_of_forms (ev : Evaluator) (fault? : Option Fault) (forms : List Value)
    (rest : Tokens) (s : State) :
    ∃ ending t, Course ev fault? forms s ending t ∧
      Loader.runScript ev ⟨forms, fault?, rest⟩ s = Run.result ending.outcome t := by
  induction forms generalizing s with
  | nil =>
    cases fault? with
    | none => exact ⟨.finished, s, .finished s rfl, rfl⟩
    | some fault => exact ⟨.failed fault, s, .stopped s rfl, rfl⟩
  | cons form forms ih =>
    rw [runScript_cons, Run.bind_apply]
    cases hform : Loader.runForm ev form s with
    | error fault t => exact ⟨.failed fault, t, .failed forms hform, rfl⟩
    | ok v t =>
      -- a quit ends the course here; any other value is dropped and the next form follows
      by_cases hv : v = .quit
      · subst hv
        exact ⟨.quit, t, .quit forms hform, rfl⟩
      · obtain ⟨ending, u, hcourse, hrest⟩ := ih t
        refine ⟨ending, u, .next hform hv hcourse, ?_⟩
        rw [← hrest]
        cases v <;> first | rfl | exact absurd rfl hv

/-- Where the forms have been evaluated, others go on. -/
theorem append {ending : Ending} (h : Course ev none forms s .finished t)
    (hmore : Course ev fault? more t ending u) : Course ev fault? (forms ++ more) s ending u := by
  induction forms generalizing s with
  | nil =>
    cases h
    exact hmore
  | cons form forms ih =>
    cases h with
    | next hform hv hrest => exact .next hform hv (ih hrest)

/-- What does not finish ends as it does, whatever comes after it. -/
theorem append_of_stops {ending : Ending} (h : Course ev none forms s ending t)
    (hstops : ending ≠ .finished) (more : List Value) :
    Course ev fault? (forms ++ more) s ending t := by
  induction h with
  | finished s hfault => exact absurd rfl hstops
  | stopped s hfault => cases hfault
  | quit forms hform => exact .quit _ hform
  | failed forms hform => exact .failed _ hform
  | next hform hv hrest ih => exact .next hform hv (ih hstops)

/-- Only where the reader has not been stopped do the forms finish, and then the loop has gone
    through all of them. -/
theorem of_finished (h : Course ev fault? forms s .finished t) :
    fault? = none ∧ Loader.runForms ev forms s = .ok false t := by
  induction forms generalizing s with
  | nil =>
    cases h with
    | finished _ hfault => exact ⟨hfault, rfl⟩
  | cons form forms ih =>
    cases h with
    | @next _ v _ _ u _ _ hform hv hrest =>
      obtain ⟨hfault, hforms⟩ := ih hrest
      refine ⟨hfault, ?_⟩
      -- the loop asks of each value whether it is a quit, and this one is not
      have hcons : Loader.runForms ev (form :: forms) = Loader.runForm ev form >>= fun v =>
          match v with
          | .quit => pure true
          | _ => Loader.runForms ev forms := by
        rw [Loader.runForm, bind_assoc]
        rfl
      rw [hcons, Run.bind_apply, hform, ← hforms]
      cases v <;> first | rfl | exact absurd rfl hv

/-- There is only one course. -/
theorem unique {ending ending' : Ending} (h : Course ev fault? forms s ending t)
    (h' : Course ev fault? forms s ending' u) : ending = ending' ∧ t = u := by
  -- the forms take the same steps from the same state, so two courses can part nowhere
  induction h with
  | finished s hfault =>
    cases h' with
    | finished => exact ⟨rfl, rfl⟩
    | stopped _ hfault' => cases hfault.symm.trans hfault'
  | stopped s hfault =>
    cases h' with
    | finished _ hfault' => cases hfault.symm.trans hfault'
    | stopped _ hfault' =>
      cases hfault.symm.trans hfault'
      exact ⟨rfl, rfl⟩
  | quit forms hform =>
    cases h' with
    | quit _ hform' =>
      cases hform.symm.trans hform'
      exact ⟨rfl, rfl⟩
    | failed _ hform' => cases hform.symm.trans hform'
    | next hform' hv => cases hform.symm.trans hform'; exact absurd rfl hv
  | failed forms hform =>
    cases h' with
    | quit _ hform' => cases hform.symm.trans hform'
    | failed _ hform' =>
      cases hform.symm.trans hform'
      exact ⟨rfl, rfl⟩
    | next hform' => cases hform.symm.trans hform'
  | next hform hv _ ih =>
    cases h' with
    | quit _ hform' => cases hform.symm.trans hform'; exact absurd rfl hv
    | failed _ hform' => cases hform.symm.trans hform'
    | next hform' _ hrest' =>
      cases hform.symm.trans hform'
      exact ih hrest'

/-- With another fault after the last form, only what the reader is stopped by is another. -/
theorem with_fault {ending : Ending} (h : Course ev fault? forms s ending t) (f : Fault → Fault) :
    Course ev (fault?.map f) forms s ending t ∨
      ∃ fault, ending = .failed fault ∧ Course ev (fault?.map f) forms s (.failed (f fault)) t := by
  induction h with
  | finished s hfault =>
    subst hfault
    exact Or.inl (.finished s rfl)
  | @stopped s fault hfault =>
    subst hfault
    exact Or.inr ⟨fault, rfl, .stopped s rfl⟩
  | quit forms hform => exact Or.inl (.quit forms hform)
  | failed forms hform => exact Or.inl (.failed forms hform)
  | next hform hv _ ih =>
    rcases ih with hrest | ⟨fault, hending, hrest⟩
    · exact Or.inl (.next hform hv hrest)
    · exact Or.inr ⟨fault, hending, .next hform hv hrest⟩

end Script.Course

/-! ## Scenes without certain files -/

namespace Staged

variable {α β : Type} {x : Staged α} {k : α → Staged β} {files : List Path} {s t : State}

/-- In no scene of the run is one of the files being loaded. -/
def Avoids (files : List Path) (x : Staged α) (s : State) : Prop :=
  ∀ scene ∈ (x [] s).1, ∀ file ∈ files, file ∉ scene.inProgress

/-- If two runs avoid the files, so does the first. -/
theorem Avoids.left (h : Avoids files (x >>= k) s) : Avoids files x s :=
  fun scene hscene => h scene (mem_bind_iff.mpr (Or.inl hscene))

/-- So does the second, where the first has come to a value. -/
theorem Avoids.right {a : α} (h : Avoids files (x >>= k) s) (hx : x.run [] s = .ok a t) :
    Avoids files (k a) t :=
  fun scene hscene => h scene (mem_bind_iff.mpr (Or.inr ⟨a, t, hx, hscene⟩))

/-- Fewer files are avoided as well. -/
theorem Avoids.mono {files' : List Path} (h : Avoids files x s) (hsub : files' ⊆ files) :
    Avoids files' x s :=
  fun scene hscene file hfile => h scene hscene file (hsub hfile)

end Staged

namespace Interpreter

/-- While the forms are evaluated, one after the other and with no file being loaded before, none
    of the files is loaded. -/
def LeavesAlone (i : Interpreter) (files : List Path) (forms : List Value) (s : State) : Prop :=
  Staged.Avoids files (Host.runForms (Host.engine i : Host.Engine Staged) forms) s

/-- In a host that sees scenes the forms do what they do. -/
theorem runForms_staged (i : Interpreter) (forms : List Value) :
    (Host.runForms (Host.engine i : Host.Engine Staged) forms).run []
      = Loader.runForms i.evaluator forms := by
  have h := Staged.relates_does (some i.loader)
  exact (h.runForms h.engine fun form _ => Scope.everything_code form).run_eq []

variable {i : Interpreter} {files : List Path} {forms more : List Value} {s t : State}

/-- If all of the forms leave the files alone, the first ones do. -/
theorem LeavesAlone.left (h : i.LeavesAlone files (forms ++ more) s) :
    i.LeavesAlone files forms s := by
  rw [LeavesAlone, Host.runForms_append] at h
  exact Staged.Avoids.left h

/-- The second forms begin where the first have ended. -/
theorem LeavesAlone.right (h : i.LeavesAlone files (forms ++ more) s)
    (hfirst : Loader.runForms i.evaluator forms s = .ok false t) :
    i.LeavesAlone files more t := by
  rw [LeavesAlone, Host.runForms_append] at h
  rw [← runForms_staged] at hfirst
  exact Staged.Avoids.right (a := false) h hfirst

/-- Nothing is evaluated after the forms. -/
theorem LeavesAlone.runScript {fault? : Option Fault} {rest : Tokens}
    (h : i.LeavesAlone files forms s) :
    Staged.Avoids files
      (Host.runScript (Host.engine i : Host.Engine Staged) ⟨forms, fault?, rest⟩) s := by
  intro scene hscene
  rcases Staged.mem_bind_iff.mp hscene with hscene | ⟨quits, t, -, hscene⟩
  · exact h scene hscene
  · cases quits with
    | true => cases hscene
    | false => cases fault? <;> cases hscene

/-- Fewer files are left alone as well. -/
theorem LeavesAlone.mono {files' : List Path} (h : i.LeavesAlone files forms s)
    (hsub : files' ⊆ files) : i.LeavesAlone files' forms s :=
  Staged.Avoids.mono h hsub

end Interpreter

/-! ## A file -/

/-- The states are the same but for what is on record, and no file is being loaded in either. -/
structure State.SameIdle (s t : State) : Prop where
  store : t.store = s.store
  out : t.out = s.out
  made : t.made = s.made
  idle : s.loading = []
  idle' : t.loading = []

/-- Every idle state is the same as itself. -/
theorem State.SameIdle.refl {s : State} (h : s.loading = []) : s.SameIdle s :=
  ⟨rfl, rfl, rfl, h, h⟩

/-- The path leads to a file with that text. -/
structure Loader.Holds (loader : Loader) (path : Path) (source : String) : Prop where
  notNull : path.hasNull = false
  text : loader.text (loader.absolute path) = .ok source

/-- The script that the loader makes of a text. -/
def Interpreter.script (i : Interpreter) (source : String) : Script :=
  .ofText (i.room - Room.moduleText) source

/-- What the loader's loop leaves in its own list, where the list is empty before: nothing. -/
theorem Interpreter.runScript_restores (i : Interpreter) (script : Script) :
    (Loader.runScript i.evaluator script).Restores := by
  have h := Host.relates_oversees i.loader
  exact (h.runScript h.engine fun form _ => Scope.everything_code form).1.restores

/-- Loading a file takes the course of its forms while no file is being loaded, if none of them
    loads the file again. -/
theorem Interpreter.loadFile_course {i : Interpreter} (hi : i.halted = false) {path : Path}
    {source : String} (h : i.loader.Holds path source) {s t : State} (hsame : s.SameIdle t)
    (halone : i.LeavesAlone [i.loader.absolute path] (i.script source).forms s) :
    ∃ ending s' t', Script.Course i.evaluator (i.script source).fault? (i.script source).forms s
        ending s' ∧
      i.loadFile path t = Run.result (Run.guarded ending.outcome) t' ∧ s'.SameIdle t' := by
  let file := i.loader.absolute path
  let inside : State := { t with
    events := t.events.push (.loading file)
    loading := [file] }
  -- inside of the file everything goes on as without it
  have hbesides : s.Besides file inside :=
    ⟨hsame.store, hsame.out, hsame.made, [], [], hsame.idle, rfl⟩
  have hquiet : ∀ scene ∈ (Host.runScript (Host.engine i : Host.Engine Staged)
      (i.script source) [] s).1, file ∉ scene.inProgress :=
    fun scene hscene => halone.runScript scene hscene file List.mem_cons_self
  have hunnoticed := Host.relates_unnoticed (some i.loader) file
  have hdoes := Staged.relates_does (some i.loader)
  have hcode : ∀ form ∈ (i.script source).forms, Scope.everything.Code form :=
    fun form _ => Scope.everything_code form
  have hscript := hunnoticed.runScript hunnoticed.engine hcode [] s inside hbesides hquiet
  rw [(hdoes.runScript hdoes.engine hcode).run_eq] at hscript
  obtain ⟨outcome, s', t', hs, ht, hbesides', -⟩ := hscript
  -- the file has been the only one in the list, and it is taken out
  have hs' : s'.loading = [] := by
    have hrestores := i.runScript_restores (i.script source) s
    rwa [Run.stateAfter_result hs, hsame.idle] at hrestores
  have ht' : t'.loading.erase file = [] := by
    obtain ⟨inner, outer, hinner, houter⟩ := hbesides'.loading
    rw [hs'] at hinner
    obtain ⟨rfl, rfl⟩ := List.append_eq_nil_iff.mp hinner.symm
    rw [houter]
    exact List.erase_cons_head file []
  have hfree : i.loader.absolute path ∉ t.loading := by
    rw [hsame.idle']
    exact List.not_mem_nil
  have hload : i.loader.loadPath i.evaluator path t
      = Run.result outcome { t' with loading := t'.loading.erase file } := by
    rw [Loader.loadPath_of_free i.evaluator h.notNull hfree, Loader.readFile_of_text h.text]
    refine Run.whileLoading_result ?_
    dsimp only
    rw [hsame.idle']
    exact ht
  obtain ⟨ending, u, hcourse, hending⟩ := Script.Course.exists_of_forms i.evaluator
    (i.script source).fault? (i.script source).forms (i.script source).rest s
  obtain ⟨rfl, rfl⟩ := Run.result_inj (hs.symm.trans hending)
  refine ⟨ending, s', { t' with loading := t'.loading.erase file }, hcourse, ?_,
    hbesides'.store, hbesides'.out, hbesides'.made, hs', ht'⟩
  rw [loadFile, if_neg (by rw [hi]; exact Bool.false_ne_true)]
  exact Run.guardDepth_result hload

/-! ## All files -/

/-- At its own place a fault is where it is. -/
theorem Fault.moved_zero (fault : Fault) : fault.moved 0 = fault := by
  cases fault with
  | error e => cases e <;> first | rfl | simp [moved]
  | _ => rfl

/-- Moving a fault twice moves it by both. -/
theorem Fault.moved_moved (fault : Fault) (before more : Nat) :
    (fault.moved before).moved more = fault.moved (more + before) := by
  cases fault with
  | error e => cases e <;> first | rfl | simp [moved, Nat.add_assoc]
  | _ => rfl

namespace CommandLine

/-- Is a file reported that fails like this?  Errors of the program are, among them that of going
    too deep, and files that cannot be read. -/
def isReported : Fault → Bool
  | .error _ | .unreadable _ _ | .tooDeep => true
  | _ => false

/-- The line that reports a file. -/
def errorLine (path : Path) (fault : Fault) : String := s!"error: {path.text}: {fault.message}\n"

/-- What loading one of the files comes to in the end, by how the forms end.  The report names a
    file; and a string that nothing closes has another place in a file than it has in all of
    them. -/
inductive Concludes (paths : List Path) (t : State) :
    Script.Ending → EStateM.Result Fault State FilesEnding → Prop where
  | finished : Concludes paths t .finished (.ok .finished t)
  | quit : Concludes paths t .quit (.ok .quit t)
  | reported {path : Path} {fault : Fault} (before : Nat) : path ∈ paths →
    isReported fault = true →
    Concludes paths t (.failed (fault.moved before)) (.ok (.failed (errorLine path fault)) t)
  | escaped {fault : Fault} : isReported fault = false →
    Concludes paths t (.failed fault) (.error fault t)

/-- With one more file in front, the conclusion is about a file among more. -/
theorem Concludes.cons {paths : List Path} {t : State} {ending : Script.Ending}
    {r : EStateM.Result Fault State FilesEnding} (h : Concludes paths t ending r) (path : Path) :
    Concludes (path :: paths) t ending r := by
  cases h with
  | finished => exact .finished
  | quit => exact .quit
  | reported before hmem hfault => exact .reported before (List.mem_cons_of_mem _ hmem) hfault
  | escaped hfault => exact .escaped hfault

section Files

variable {i : Interpreter} {path : Path} {t t' : State}

/-- After a file that is finished come the others. -/
theorem runFiles_of_finished (paths : List Path)
    (h : i.loadFile path t = Run.result (Run.guarded (.ok .unspecified)) t') :
    runFiles i (path :: paths) t = runFiles i paths t' := by
  rw [runFiles, Run.bind_apply, Repl.attempt, h]
  rfl

/-- A file that quits is the last. -/
theorem runFiles_of_quit (paths : List Path)
    (h : i.loadFile path t = Run.result (Run.guarded (.ok .quit)) t') :
    runFiles i (path :: paths) t = .ok .quit t' := by
  rw [runFiles, Run.bind_apply, Repl.attempt, h]
  rfl

/-- A file that fails is the last. -/
theorem runFiles_of_failed (paths : List Path) {fault : Fault} (before : Nat)
    (h : i.loadFile path t = Run.result (Run.guarded (.error fault)) t') :
    Concludes (path :: paths) t' (.failed (fault.moved before)) (runFiles i (path :: paths) t) := by
  rw [runFiles, Run.bind_apply, Repl.attempt, h]
  cases fault with
  | error e => exact .reported before List.mem_cons_self rfl
  | unreadable file why => exact .reported before List.mem_cons_self rfl
  | tooDeep => exact .reported before List.mem_cons_self rfl
  | _ => exact .escaped rfl

/-- A file whose forms do not finish is the last. -/
theorem runFiles_of_stops (paths : List Path) {ending : Script.Ending}
    (hstops : ending ≠ .finished)
    (h : i.loadFile path t = Run.result (Run.guarded ending.outcome) t') :
    Concludes (path :: paths) t' ending (runFiles i (path :: paths) t) := by
  cases ending with
  | finished => exact absurd rfl hstops
  | quit =>
    rw [runFiles_of_quit paths h]
    exact .quit
  | failed fault =>
    have hfailed := runFiles_of_failed paths 0 h
    rw [Fault.moved_zero] at hfailed
    exact hfailed

end Files

/-- The text that several texts make, each in lines of its own. -/
def joinTexts (sources : List String) : String := String.intercalate "\n" sources

/-- The first text, a line end, and the others. -/
theorem joinTexts_cons_cons (source other : String) (sources : List String) :
    joinTexts (source :: other :: sources)
      = source ++ "\n" ++ joinTexts (other :: sources) :=
  String.intercalate_cons_cons

/-- The forms of all texts, if the reader is not stopped before the last. -/
theorem forms_joinTexts (i : Interpreter) {sources : List String}
    (h : ∀ source ∈ sources.dropLast, (i.script source).fault? = none) :
    (i.script (joinTexts sources)).forms
      = sources.flatMap fun source => (i.script source).forms := by
  induction sources with
  | nil =>
    rw [Interpreter.script, Script.ofText, Script.ofTokens_eq]
    rfl
  | cons source sources ih =>
    cases sources with
    | nil => exact (List.append_nil _).symm
    | cons other sources =>
      have hfirst : (i.script source).fault? = none := h source List.mem_cons_self
      rw [joinTexts_cons_cons, Interpreter.script, (Script.ofText_joined hfirst _).1]
      exact congrArg (_ ++ ·) (ih fun source hsource => h source (List.mem_cons_of_mem _ hsource))

/-- The course of the last file. -/
theorem runFiles_concludes_last {i : Interpreter} (hi : i.halted = false) {path : Path}
    {source : String} (h : i.loader.Holds path source) (before : Nat) {s t : State}
    (hsame : s.SameIdle t)
    (halone : i.LeavesAlone [i.loader.absolute path] (i.script source).forms s) :
    ∃ ending s' t', Script.Course i.evaluator ((i.script source).fault?.map (Fault.moved before))
        (i.script source).forms s ending s' ∧
      s'.SameIdle t' ∧ Concludes [path] t' ending (runFiles i [path] t) := by
  obtain ⟨ending, s', t', hcourse, hload, hsame'⟩ := i.loadFile_course hi h hsame halone
  rcases hcourse.with_fault (Fault.moved before) with hcourse' | ⟨fault, rfl, hcourse'⟩
  · by_cases hending : ending = .finished
    · subst hending
      rw [runFiles_of_finished [] hload]
      exact ⟨.finished, s', t', hcourse', hsame', .finished⟩
    · exact ⟨ending, s', t', hcourse', hsame', runFiles_of_stops [] hending hload⟩
  · exact ⟨_, s', t', hcourse', hsame', runFiles_of_failed [] before hload⟩

/-- The files, one after the other, take the course of the joined text.  `before` is how much of
    that text stands before the first of these files: an unclosed string is reported by its
    place. -/
theorem runFiles_concludes {i : Interpreter} (hi : i.halted = false) {paths : List Path}
    {sources : List String} (hfiles : List.Forall₂ i.loader.Holds paths sources)
    (haccepted : ∀ source ∈ sources.dropLast, ∃ room, (Script.ofText room source).fault? = none)
    (before : Nat) {s t : State} (hsame : s.SameIdle t)
    (halone : i.LeavesAlone (paths.map i.loader.absolute) (i.script (joinTexts sources)).forms s) :
    ∃ ending s' t', Script.Course i.evaluator
        ((i.script (joinTexts sources)).fault?.map (Fault.moved before))
        (i.script (joinTexts sources)).forms s ending s' ∧
      s'.SameIdle t' ∧ Concludes paths t' ending (runFiles i paths t) := by
  induction hfiles generalizing before s t with
  -- without files nothing is run, and there is nothing in the joined text
  | nil =>
    have hempty : i.script (joinTexts []) = ⟨[], none, ⟨[], none⟩⟩ := by
      rw [Interpreter.script, Script.ofText, Script.ofTokens_eq]
      rfl
    rw [hempty]
    exact ⟨.finished, s, t, .finished s rfl, hsame, .finished⟩
  | @cons path source paths sources h hrest ih =>
    cases hrest with
    | nil => exact runFiles_concludes_last hi h before hsame halone
    | @cons path' source' paths sources h' hrest =>
      have hfirst : [i.loader.absolute path]
          ⊆ (path :: path' :: paths).map i.loader.absolute := by simp
      have hothers : (path' :: paths).map i.loader.absolute
          ⊆ (path :: path' :: paths).map i.loader.absolute := by simp
      obtain ⟨room, hroom⟩ := haccepted source List.mem_cons_self
      rw [joinTexts_cons_cons] at halone ⊢
      rcases Script.fault?_of_accepted hroom (i.room - Room.moduleText) with hfault | hdeep
      · -- the forms of the others come after those of the file
        obtain ⟨hforms, hstop⟩ :=
          Script.ofText_joined hfault (joinTexts (source' :: sources))
        rw [Interpreter.script, hforms] at halone
        rw [Interpreter.script, hforms, hstop]
        obtain ⟨ending, s', t', hcourse, hload, hsame'⟩ :=
          i.loadFile_course hi h hsame (halone.left.mono hfirst)
        rw [show (i.script source).fault? = none from hfault] at hcourse
        by_cases hending : ending = .finished
        · subst hending
          have halone' := (halone.right hcourse.of_finished.2).mono hothers
          obtain ⟨ending, s'', t'', hcourse', hsame'', hconcludes⟩ := ih
            (fun source hsource => haccepted source (List.mem_cons_of_mem _ hsource))
            (before + (source.length + 1)) hsame' halone'
          rw [runFiles_of_finished _ hload]
          refine ⟨ending, s'', t'', hcourse.append ?_, hsame'', hconcludes.cons path⟩
          rw [Option.map_map, show Fault.moved before ∘ Fault.moved (source.length + 1)
            = Fault.moved (before + (source.length + 1)) from
              funext fun fault => fault.moved_moved _ _]
          exact hcourse'
        · exact ⟨ending, s', t', hcourse.append_of_stops hending _, hsame',
            runFiles_of_stops _ hending hload⟩
      · -- the reader goes too deep in the file, and so it does in all texts
        have hunclosed := (Script.readOn_of_accepted hroom).1
        obtain ⟨hforms, hstop⟩ :=
          Script.ofText_joined_of_tooDeep hunclosed hdeep (joinTexts (source' :: sources))
        rw [Interpreter.script, hforms] at halone
        rw [Interpreter.script, hforms, hstop]
        obtain ⟨ending, s', t', hcourse, hload, hsame'⟩ :=
          i.loadFile_course hi h hsame (halone.mono hfirst)
        rw [show (i.script source).fault? = some .tooDeep from hdeep] at hcourse
        have hending : ending ≠ .finished := by
          rintro rfl
          cases hcourse.of_finished.1
        exact ⟨ending, s', t', hcourse, hsame', runFiles_of_stops _ hending hload⟩

/-! ## The program -/

/-- Words that are values are taken for files, all of them. -/
theorem readWords_of_values (options : Options) (words : List Word) (names : List String) :
    readWords options (.reading words) false (names.map .value)
      = .ok { options with files := (Files.reading (words ++ names.map .value)).paths } := by
  induction names generalizing words with
  | nil => rw [List.map_nil, List.append_nil, readWords, if_neg Bool.false_ne_true]
  | cons name names ih =>
    show readWords options (.reading (words ++ [.value name])) false (names.map .value) = _
    rw [ih, List.append_assoc]
    rfl

/-- There is no `--` to be taken out of them. -/
theorem paths_of_values (names : List String) :
    (Files.reading (names.map .value)).paths = names.map Path.ofString := by
  have herase : (names.map Word.value).erase .dashes = names.map .value := by
    refine List.erase_of_not_mem fun hmem => ?_
    obtain ⟨name, -, hname⟩ := List.mem_map.mp hmem
    cases hname
  rw [Files.paths, herase, List.map_map]
  rfl

/-- Words that are no options, after the option for no dialogue, are the files. -/
theorem options?_of_files (names : List String)
    (h : ∀ name ∈ names, word? name = some (.value name)) :
    options? ("--no-repl" :: names) = .ok ⟨names.map Path.ofString, [], true, none⟩ := by
  have hwords : words? names = some (names.map .value) := by
    induction names with
    | nil => rfl
    | cons name names ih =>
      obtain ⟨hname, hnames⟩ := List.forall_mem_cons.mp h
      have hdashes : name ≠ "--" := by
        rintro rfl
        cases hname
      rw [words?, hname, ih hnames]
      · rfl
      · exact fun heq => hdashes heq
  have hall : words? ("--no-repl" :: names)
      = some (.option .noRepl none false :: names.map .value) := by
    rw [words?, hwords]
    · rfl
    · nofun
  -- once the flag is read, only names of files are left
  have hflag : readWords ⟨[], [], false, none⟩ .awaited false
      (.option .noRepl none false :: names.map .value)
        = readWords ⟨[], [], true, none⟩ .awaited false (names.map .value) := by
    rw [readWords.eq_def]
    rfl
  rw [options?, hall]
  dsimp only
  rw [hflag]
  cases names with
  | nil => rfl
  | cons name names =>
    show readWords _ (.reading [.value name]) false (names.map .value) = _
    rw [readWords_of_values, List.singleton_append, ← List.map_cons, paths_of_values]

/-- A plan is made of options. -/
theorem plan_eq_ok {system : System} {args : List String} {p : Plan}
    (h : plan system args = .ok p) :
    ∃ options, options? args = .ok options ∧ options.plan system = .ok p := by
  unfold plan at h
  split at h
  · cases h
  · next options hoptions =>
    split at h
    · next hplan =>
      cases h
      exact ⟨options, hoptions, hplan⟩
    · cases h

/-- The plan for other files is the same but for the files, and its interpreter is not halted. -/
theorem Options.plan_files {options : Options} {system : System} {p : Plan}
    (h : options.plan system = .ok p) (files : List Path) :
    p.options = options ∧ p.interpreter.halted = false ∧
      ({ options with files := files } : Options).plan system
        = .ok { p with options := { options with files := files } } := by
  -- which files there are is asked neither of the settings nor of the roots
  have hlevel : threshold system { options with files := files } = threshold system options := rfl
  unfold Options.plan at h ⊢
  rw [hlevel]
  split at h
  · cases h
  · split at h
    · cases h
    · split at h
      · cases h
      · next hroots =>
        cases h
        dsimp only
        rw [hroots]
        exact ⟨rfl, rfl, rfl⟩

/-- What the program reports on files, by how their forms end and in which state. -/
inductive Reports (threshold : Nat) (paths : List Path) (t : State) :
    Script.Ending → Report → Prop where
  | finished (events : Array Event) :
    Reports threshold paths t .finished ⟨.exit 0, t.out, recordLines threshold events⟩
  | quit (events : Array Event) :
    Reports threshold paths t .quit ⟨.exit 0, t.out, recordLines threshold events⟩
  /-- A line tells of one of the files what its error is. -/
  | reported {path : Path} {fault : Fault} (before : Nat) (events : Array Event) :
    path ∈ paths → isReported fault = true →
    Reports threshold paths t (.failed (fault.moved before))
      ⟨.exit 1, t.out, recordLines threshold events ++ errorLine path fault⟩
  /-- The fault is none that the program handles. -/
  | escaped {fault : Fault} (events : Array Event) : isReported fault = false →
    Reports threshold paths t (.failed fault)
      ⟨.fault fault, t.out, recordLines threshold events⟩

/-- What the program reports, by how its files conclude. -/
theorem run_reports {system : System} {args : List String} {p : Plan} (input : String)
    (hplan : plan system args = .ok p) (hrepl : p.options.noRepl = true) {t t' : State}
    {ending : Script.Ending} (hout : t'.out = t.out)
    (h : Concludes p.options.files t' ending
      (runFiles p.interpreter p.options.files .initial)) :
    Reports p.threshold p.options.files t ending (run system args input) := by
  -- with no dialogue to follow, the run is over after the files
  have hrun : run system args input
      = match runFiles p.interpreter p.options.files .initial with
        | .ok .finished u | .ok .quit u => ⟨.exit 0, u.out, recordLines p.threshold u.events ++ ""⟩
        | .ok (.failed text) u => ⟨.exit 1, u.out, recordLines p.threshold u.events ++ text⟩
        | .error fault u => ⟨.fault fault, u.out, recordLines p.threshold u.events⟩ := by
    rw [run, hplan]
    dsimp only
    rw [execute, Run.bind_apply]
    cases runFiles p.interpreter p.options.files .initial with
    | error fault u => rfl
    | ok ending u =>
      cases ending with
      | finished =>
        dsimp only
        rw [hrepl]
        rfl
      | _ => rfl
  rw [hrun]
  generalize runFiles p.interpreter p.options.files .initial = r at h
  cases h with
  | finished =>
    dsimp only
    rw [hout, String.append_empty]
    exact .finished t'.events
  | quit =>
    dsimp only
    rw [hout, String.append_empty]
    exact .quit t'.events
  | reported before hmem hfault =>
    dsimp only
    rw [hout]
    exact .reported before t'.events hmem hfault
  | escaped hfault =>
    dsimp only
    rw [hout]
    exact .escaped t'.events hfault

/-- The status that goes with an end of the forms, or the fault that escapes. -/
def endingOf : Script.Ending → Ending
  | .finished | .quit => .exit 0
  | .failed fault => if isReported fault then .exit 1 else .fault fault

/-- Where a string is not closed does not matter to whether that is reported. -/
theorem isReported_moved (fault : Fault) (before : Nat) :
    isReported (fault.moved before) = isReported fault := by
  cases fault with
  | error e => cases e <;> rfl
  | _ => rfl

/-- The output and the status are decided by the course. -/
theorem Reports.out_and_ending {threshold : Nat} {paths : List Path} {t : State}
    {ending : Script.Ending} {report : Report} (h : Reports threshold paths t ending report) :
    report.out = t.out ∧ report.ending = endingOf ending := by
  cases h with
  | finished => exact ⟨rfl, rfl⟩
  | quit => exact ⟨rfl, rfl⟩
  | reported before events hmem hfault =>
    rw [endingOf, isReported_moved, if_pos hfault]
    exact ⟨rfl, rfl⟩
  | escaped events hfault =>
    rw [endingOf, hfault]
    exact ⟨rfl, rfl⟩

/-- To run several files is to run one with all their texts.  Let the words be files, and each
    with a text that can be read; let the reader accept all texts but the last; let one more file
    have the texts of all, each in lines of its own; and let none of these files be loaded by what
    is evaluated.  Then the program displays the same and ends the same with the several files and
    with the one.  Both times it takes the course of all forms, from the empty store: the status
    is 0 if they are all evaluated, or up to one that quits; it is 1, with one report of an error,
    if a form fails or the reader is stopped after the last; and nothing after that form is
    evaluated. -/
theorem several_files_run_as_one (system : System) (names : List String) (joined input : String)
    (sources : List String) {p : Plan}
    (hwords : ∀ name ∈ joined :: names, word? name = some (.value name))
    (hplan : plan system ("--no-repl" :: names) = .ok p)
    (hfiles : List.Forall₂ p.interpreter.loader.Holds (names.map Path.ofString) sources)
    (hjoined : p.interpreter.loader.Holds (.ofString joined) (joinTexts sources))
    (haccepted : ∀ source ∈ sources.dropLast, ∃ room vs, (Script.ofText room source).all = .ok vs)
    (halone : p.interpreter.LeavesAlone
      ((joined :: names).map fun name => p.interpreter.loader.absolute (.ofString name))
      (p.interpreter.script (joinTexts sources)).forms .initial) :
    (run system ["--no-repl", joined] input).out
        = (run system ("--no-repl" :: names) input).out ∧
      (run system ["--no-repl", joined] input).ending
        = (run system ("--no-repl" :: names) input).ending ∧
      ((∀ source ∈ sources.dropLast, (p.interpreter.script source).fault? = none) →
        (p.interpreter.script (joinTexts sources)).forms
          = sources.flatMap fun source => (p.interpreter.script source).forms) ∧
      ∃ ending t, Script.Course p.interpreter.evaluator
          (p.interpreter.script (joinTexts sources)).fault?
          (p.interpreter.script (joinTexts sources)).forms .initial ending t ∧
        Reports p.threshold (names.map Path.ofString) t ending
          (run system ("--no-repl" :: names) input) ∧
        Reports p.threshold [.ofString joined] t ending
          (run system ["--no-repl", joined] input) := by
  obtain ⟨hname, hnames⟩ := List.forall_mem_cons.mp hwords
  -- the plans differ in the files only
  obtain ⟨options, hoptions, hoptionsPlan⟩ := plan_eq_ok hplan
  rw [options?_of_files names hnames] at hoptions
  cases hoptions
  obtain ⟨hsame, hgoes, hother⟩ := Options.plan_files hoptionsPlan [.ofString joined]
  have hplan' : plan system ["--no-repl", joined]
      = .ok { p with options := ⟨[.ofString joined], [], true, none⟩ } := by
    have hone : options? ["--no-repl", joined] = .ok ⟨[.ofString joined], [], true, none⟩ :=
      options?_of_files [joined] (List.forall_mem_singleton.mpr hname)
    rw [plan, hone]
    dsimp only
    rw [hother]
  have hfilesOf : p.options.files = names.map Path.ofString := by rw [hsame]
  have hrepl : p.options.noRepl = true := by rw [hsame]
  -- the course, once for each of the runs
  have hmoved : ∀ fault? : Option Fault, fault?.map (Fault.moved 0) = fault? := by
    intro fault?
    cases fault? with
    | none => rfl
    | some fault => exact congrArg some fault.moved_zero
  have hidle : State.initial.SameIdle .initial := .refl rfl
  have hmap : (joined :: names).map (fun name => p.interpreter.loader.absolute (.ofString name))
      = p.interpreter.loader.absolute (.ofString joined)
        :: (names.map Path.ofString).map p.interpreter.loader.absolute := by
    rw [List.map_cons, List.map_map]
    rfl
  rw [hmap] at halone
  obtain ⟨ending, t, u, hcourse, htu, hseveral⟩ := runFiles_concludes hgoes hfiles
    (fun source hsource => by
      obtain ⟨room, vs, hall⟩ := haccepted source hsource
      exact ⟨room, (Script.all_eq_ok_iff.mp hall).1⟩)
    0 hidle (halone.mono (List.subset_cons_self _ _))
  obtain ⟨ending', t', u', hcourse', htu', hone⟩ := runFiles_concludes_last hgoes hjoined 0 hidle
    (halone.mono (by simp))
  rw [hmoved] at hcourse hcourse'
  obtain ⟨rfl, rfl⟩ := hcourse.unique hcourse'
  rw [← hfilesOf] at hseveral
  have hreports := run_reports input hplan hrepl htu.out hseveral
  have hreports' := run_reports input hplan' rfl htu'.out hone
  obtain ⟨hout, hending⟩ := hreports.out_and_ending
  obtain ⟨hout', hending'⟩ := hreports'.out_and_ending
  rw [hfilesOf] at hreports
  exact ⟨hout'.trans hout.symm, hending'.trans hending.symm, forms_joinTexts p.interpreter,
    ending, t, hcourse, hreports, hreports'⟩

/-- Files `/a.scm` and `/b.scm`, in which are `1` and `x`, and `/c.scm` with both. -/
def System.ofThree : System :=
  ⟨[], ⟨[], [(["a.scm"], [49]), (["b.scm"], [120]), (["c.scm"], [49, 10, 120])]⟩, [],
    ⟨.root, ["library"]⟩⟩

/-- The program that loads `/a.scm` and `/b.scm`. -/
def Plan.ofTwo : Plan :=
  ⟨⟨[⟨.root, ["a.scm"]⟩, ⟨.root, ["b.scm"]⟩], [], true, none⟩, 30,
    ⟨System.ofThree.loader [⟨.root, ["library"]⟩], 10000, false⟩⟩

/-- The plan for two files. -/
theorem Plan.ofTwo_eq : plan .ofThree ["--no-repl", "/a.scm", "/b.scm"] = .ok .ofTwo := rfl

/-- The first file and the second file end like the third, which has the texts of both. -/
theorem several_files_run_as_one_unbound :
    (run .ofThree ["--no-repl", "/c.scm"] "").out
        = (run .ofThree ["--no-repl", "/a.scm", "/b.scm"] "").out ∧
      (run .ofThree ["--no-repl", "/c.scm"] "").ending
        = (run .ofThree ["--no-repl", "/a.scm", "/b.scm"] "").ending := by
  have hforms : (Plan.ofTwo.interpreter.script (joinTexts ["1", "x"])).forms
      = [.int 1, .symbol "x"] := by
    rw [Interpreter.script, Script.ofText, Script.forms_ofTokens]
    rfl
  have haccepted : (Script.ofText 100 "1").all = .ok [.int 1] := by
    rw [Script.all_eq_ok_iff, Script.ofText, Script.forms_ofTokens, Script.fault?_ofTokens]
    exact ⟨rfl, rfl⟩
  -- neither of the two forms is evaluated while a file is being loaded
  have hscenes : ((Host.runForms (Host.engine Plan.ofTwo.interpreter : Host.Engine Staged)
      [.int 1, .symbol "x"]) [] State.initial).1.map Scene.inProgress = [[], []] := rfl
  have halone : Plan.ofTwo.interpreter.LeavesAlone
      (["/c.scm", "/a.scm", "/b.scm"].map fun name =>
        Plan.ofTwo.interpreter.loader.absolute (.ofString name))
      (Plan.ofTwo.interpreter.script (joinTexts ["1", "x"])).forms .initial := by
    rw [hforms]
    intro scene hscene file _
    have hmem : scene.inProgress ∈ [[], []] := by
      rw [← hscenes]
      exact List.mem_map_of_mem hscene
    have hnil : scene.inProgress = [] := by simpa using hmem
    rw [hnil]
    exact List.not_mem_nil
  have hresult := several_files_run_as_one .ofThree ["/a.scm", "/b.scm"] "/c.scm" "" ["1", "x"]
    (by decide) Plan.ofTwo_eq (.cons ⟨rfl, rfl⟩ (.cons ⟨rfl, rfl⟩ .nil)) ⟨rfl, rfl⟩
    (List.forall_mem_singleton.mpr ⟨100, _, haccepted⟩) halone
  exact ⟨hresult.1, hresult.2.1⟩

end CommandLine

end SmallScheme
